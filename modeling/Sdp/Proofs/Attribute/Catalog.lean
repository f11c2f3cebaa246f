import Mathlib.Data.List.Nodup
import Sdp.Attribute.Parser
import Sdp.Proofs.Text.Spelling

/-!
# Keywords of the catalogue

A keyword names a kind if it is ASCII and the keyword of that kind in lower case. No two kinds have
the same keyword.
-/

namespace Sdp

open Text (isAscii lower)

namespace Kind

theorem nodup_keywords : (all.map keyword).Nodup := by decide +kernel

theorem keyword_injective {k l : Kind} (h : k.keyword = l.keyword) : k = l :=
  List.inj_on_of_nodup_map nodup_keywords (mem_all k) (mem_all l) h

theorem ofKeyword?_eq_some_iff {s : List Char} {k : Kind} :
    ofKeyword? s = some k ↔ isAscii s ∧ k.keyword.toList = lower s := by
  unfold ofKeyword? Text.matchLower
  split
  · next hs =>
      rw [Text.find?_word_eq_some_iff mem_all fun _ _ => keyword_injective]
      exact (and_iff_right hs).symm
  · next hs => simp [hs]

theorem ofKeyword?_eq_none_iff {s : List Char} :
    ofKeyword? s = none ↔ isAscii s = false ∨ ∀ k : Kind, k.keyword.toList ≠ lower s := by
  rw [Option.eq_none_iff_forall_ne_some]
  simp only [ne_eq, ofKeyword?_eq_some_iff, not_and]
  cases isAscii s <;> simp

example : all.length = 30 := rfl

end Kind

namespace Attribute

theorem ofLine_of_keyword {line : List Char} {k : Kind} (h : Kind.ofKeyword? (splitLine line).1 = some k) :
    ofLine line = read k (splitLine line).2 := by
  simp only [ofLine, classify, h]
  rfl

theorem ofLine_of_unknown {line : List Char} (h : Kind.ofKeyword? (splitLine line).1 = none) :
    ofLine line = .error (fault .unknownAttribute (splitLine line).1) := by
  simp only [ofLine, classify, h]
  rfl

theorem splitLine_append {keyword : List Char} (h : ':' ∉ keyword) (value : List Char) :
    splitLine (keyword ++ ':' :: value) = (keyword, Text.trim value) := by
  rw [splitLine, Text.cut_append h]

theorem not_mem_keyword (line : List Char) : ':' ∉ (splitLine line).1 := by
  unfold splitLine
  split
  · next h => exact Text.cut_eq_none_iff.mp h
  · next h => exact (Text.eq_of_cut_eq_some h).2

theorem keyword_subset (line : List Char) : (splitLine line).1 ⊆ line := by
  unfold splitLine
  split
  · exact List.Subset.refl _
  · next h => exact (Text.infix_of_cut_eq_some h).1.subset

end Attribute

end Sdp
