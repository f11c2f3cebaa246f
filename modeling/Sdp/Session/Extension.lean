import Sdp.Attribute.Parser

/-!
# Leaving out an extension

A candidate line can be written again without one of its extensions. The new line is shorter, so
leaving out one extension after another comes to an end.
-/

namespace Sdp.Candidate

open Text (lower words unwords weight)

/-- Drops the first complete pair called `name`, if there is one. -/
def dropPair? (name : List Char) : List (List Char) → Option (List (List Char))
  | n :: v :: rest => if n = name then some rest else (dropPair? name rest).map (n :: v :: ·)
  | _ => none

/-- The line without its first extension called exactly `name`; none if the line is not a candidate
or has no such extension. -/
def withoutExtension? (line name : List Char) : Option (List Char) :=
  let (keyword, value) := Attribute.splitLine line
  if lower keyword = Kind.candidate.keyword.toList then
    let tokens := words value
    (dropPair? name (tokens.drop mandatoryTokens)).map fun rest =>
      keyword ++ ':' :: unwords (tokens.take mandatoryTokens ++ rest)
  else none

theorem weight_append (xs ys : List (List Char)) : weight (xs ++ ys) = weight xs + weight ys := by
  induction xs with
  | nil => simp [weight]
  | cons x rest ih =>
    simp only [List.cons_append, weight, ih]
    omega

theorem weight_dropPair {name : List Char} {tokens rest : List (List Char)}
    (h : dropPair? name tokens = some rest) : weight rest + 2 ≤ weight tokens := by
  fun_induction dropPair? name tokens generalizing rest with
  | case1 v rest' =>
    obtain rfl : rest' = rest := by simpa using h
    simp only [weight]
    omega
  | case2 n v rest' hn ih =>
    obtain ⟨r, hr, rfl⟩ := Option.map_eq_some_iff.1 h
    have := ih hr
    simp only [weight] at this ⊢
    omega
  | case3 => simp at h

theorem length_withoutExtension {line name shorter : List Char}
    (h : withoutExtension? line name = some shorter) : shorter.length < line.length := by
  cases hc : Text.cut ':' line with
  | none =>
    simp [withoutExtension?, Attribute.splitLine, hc, dropPair?, words] at h
  | some parts =>
    obtain ⟨keyword, value⟩ := parts
    obtain ⟨rfl, _⟩ := Text.eq_of_cut_eq_some hc
    simp only [withoutExtension?, Attribute.splitLine, hc] at h
    split at h
    · obtain ⟨rest, hr, rfl⟩ := Option.map_eq_some_iff.1 h
      have h1 := weight_dropPair hr
      have h2 := Text.length_unwords_le
        ((words (Text.trim value)).take mandatoryTokens ++ rest)
      have h3 := Text.weight_words_le (Text.trim value)
      have h4 := Text.length_trim_le value
      have h5 : weight ((words (Text.trim value)).take mandatoryTokens) +
          weight ((words (Text.trim value)).drop mandatoryTokens) =
          weight (words (Text.trim value)) := by
        rw [← weight_append, List.take_append_drop]
      rw [weight_append] at h2
      simp only [List.length_append, List.length_cons]
      omega
    · simp at h

end Sdp.Candidate
