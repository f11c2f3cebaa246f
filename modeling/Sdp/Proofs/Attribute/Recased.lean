import Mathlib.Logic.Relation
import Sdp.Proofs.Attribute.Folding

/-!
# Lines in any letter case

Main statement: `Vocabulary.take?_exact`. The parts of a line that are compared with a vocabulary may change
the case of their ASCII letters, and no character outside ASCII can stand in one of them.
-/

namespace Sdp

open Attribute (ofLine splitLine)
open Candidate (IsOneOf)
open Text (IsLowerSpelling IsWord isBlank lower)

/-! ## Spellings -/

namespace Text

variable {word s t : List Char}

/-- Letters in the other case spell the same word. -/
theorem IsLowerSpelling.of_map_eq (h : IsLowerSpelling word s) (hword : Plain word)
    (hcase : t.map Char.toLower = s.map Char.toLower) : IsLowerSpelling word t := by
  have ht : t.map Char.toLower = word := hcase.trans h.2
  refine ⟨isAscii_iff.mpr fun c hc => lt_of_toLower_lt (hword _ ?_).1, ht⟩
  exact ht ▸ List.mem_map_of_mem hc

theorem IsLowerSpelling.not_mem_of_not_ascii (h : IsLowerSpelling word s) {c : Char} (hc : 0x80 ≤ c.toNat) :
    c ∉ s :=
  fun hmem => absurd (isAscii_iff.mp h.1 c hmem) (Nat.not_lt.mpr hc)

end Text

namespace Vocabulary

variable {v : Vocabulary} {w w' x y : List Char} {c d : Char}

theorem isWord_of_isOneOf (hw : IsOneOf v.words w) : IsWord w := by
  obtain ⟨K, hK, hspelled⟩ := hw
  exact hspelled.isWord (isWord K hK)

theorem not_isOneOf_of_not_ascii (hd : 0x80 ≤ d.toNat) : ¬ IsOneOf v.words (x ++ d :: y) := by
  rintro ⟨K, -, hspelled⟩
  exact hspelled.not_mem_of_not_ascii hd (by simp)

/-- A part of a word is not another word. -/
theorem not_isOneOf_of_infix (hv : v ≠ .kind) (hw : IsOneOf v.words w) (hx : x <:+: w)
    (hlt : x.length < w.length) : ¬ IsOneOf v.words x := by
  rintro ⟨L, hL, hx'⟩
  obtain ⟨K, hK, hw'⟩ := hw
  have hinfix : L.toList <:+: K.toList := hx'.2 ▸ hw'.2 ▸ hx.map Char.toLower
  obtain rfl := eq_of_infix hv K hK L hL hinfix
  have hlength := congrArg List.length (hx'.2.trans hw'.2.symm)
  rw [List.length_map, List.length_map] at hlength
  omega

/-- If a blank takes the place of a character, what is left of the word begins with a part of it. -/
theorem exists_words_eq_cons (hv : v ≠ .kind) (hw : IsOneOf v.words (x ++ c :: y)) (hd : isBlank d) :
    ∃ u rest, Text.words (x ++ d :: y) = u :: rest ∧ ¬ IsOneOf v.words u := by
  have hblank : ∀ b ∈ x ++ c :: y, isBlank b = false := (isWord_of_isOneOf hw).2
  rw [Text.words_append_blank hd]
  by_cases hx : x = []
  · subst hx
    have hy : y ≠ [] := by
      rintro rfl
      obtain ⟨K, hK, hspelled⟩ := hw
      have hlength : 1 = K.toList.length := congrArg List.length hspelled.2
      exact absurd (two_le_length K hK) (by omega)
    have hyword : IsWord y := ⟨hy, fun b hb => hblank b (by simp [hb])⟩
    exact ⟨y, [], by rw [Text.words_of_isWord hyword]; rfl,
      not_isOneOf_of_infix hv hw (List.suffix_cons c y).isInfix (by simp)⟩
  · have hxword : IsWord x := ⟨hx, fun b hb => hblank b (by simp [hb])⟩
    exact ⟨x, Text.words y, by rw [Text.words_of_isWord hxword]; rfl,
      not_isOneOf_of_infix hv hw (List.prefix_append x _).isInfix (by simp)⟩

end Vocabulary

/-! ## Lines -/

theorem Kind.colon_not_mem {k : Kind} {keyword : List Char} (h : IsLowerSpelling k.keyword.toList keyword) :
    ':' ∉ keyword :=
  h.not_mem rfl (Vocabulary.colon_not_mem (v := .kind) _ (List.mem_map_of_mem k.mem_all))

theorem ofLine_of_spelled {k : Kind} {keyword : List Char} (h : IsLowerSpelling k.keyword.toList keyword)
    (s : List Char) : ofLine (keyword ++ ':' :: s) = Attribute.read k (Text.trim s) := by
  have hsplit := Attribute.splitLine_append (Kind.colon_not_mem h) s
  have hk := Kind.ofKeyword?_eq_some_iff_isLowerSpelling.mpr h
  rw [Attribute.ofLine_of_keyword (by rw [hsplit]; exact hk), hsplit]

/-- A line is its keyword and nothing else, or goes on with a colon. -/
theorem splitLine_keyword {w after : List Char} (hw : ':' ∉ w) (hafter : ∀ c ∈ after.head?, c = ':') :
    splitLine (w ++ after) = (w, Text.trim after.tail) := by
  cases after with
  | nil =>
      rw [List.append_nil, splitLine, Text.cut_eq_none_iff.mpr hw]
      rfl
  | cons c rest =>
      obtain rfl : c = ':' := hafter c rfl
      exact Attribute.splitLine_append hw rest

theorem ofLine_keyword_eq_ok_iff {w after : List Char} {a : Attribute} (hw : ':' ∉ w)
    (hafter : ∀ c ∈ after.head?, c = ':') :
    ofLine (w ++ after) = .ok a ↔
      ∃ k : Kind, IsLowerSpelling k.keyword.toList w ∧ Attribute.read k (Text.trim after.tail) = .ok a := by
  have hsplit := splitLine_keyword hw hafter
  simp only [← Kind.ofKeyword?_eq_some_iff_isLowerSpelling]
  cases hk : Kind.ofKeyword? w with
  | none =>
      rw [Attribute.ofLine_of_unknown (by rw [hsplit]; exact hk)]
      simp
  | some k =>
      rw [Attribute.ofLine_of_keyword (by rw [hsplit]; exact hk), hsplit]
      simp

theorem Kind.Expects.ne_kind {k : Kind} {front back : List (List Char)} {v : Vocabulary}
    (h : k.Expects front back v) : v ≠ .kind := by
  rintro rfl
  cases h

/-! ## Places -/

section Places

variable {keyword front back w x y id : List Char} {c d : Char}

theorem ofLine_token {k : Kind} (hkeyword : IsLowerSpelling k.keyword.toList keyword) :
    ofLine (keyword ++ ':' :: front ++ w ++ back) = Attribute.read k (Text.trim (front ++ w ++ back)) := by
  have hline : keyword ++ ':' :: front ++ w ++ back = keyword ++ ':' :: (front ++ w ++ back) := by simp
  rw [hline, ofLine_of_spelled hkeyword]

theorem ofLine_direction (hkeyword : IsLowerSpelling Kind.extmap.keyword.toList keyword) :
    ofLine (keyword ++ ':' :: (front ++ id ++ ['/']) ++ w ++ back) =
      Attribute.read .extmap (Text.trim (front ++ (id ++ '/' :: w) ++ back)) := by
  have hline : keyword ++ ':' :: (front ++ id ++ ['/']) ++ w ++ back =
      keyword ++ ':' :: (front ++ (id ++ '/' :: w) ++ back) := by simp
  rw [hline, ofLine_of_spelled hkeyword]

theorem words_token (hfront : ∀ c ∈ front.getLast?, isBlank c) (hback : ∀ c ∈ back.head?, isBlank c)
    (hw : IsWord w) : Text.words (front ++ w ++ back) = Text.words front ++ w :: Text.words back := by
  rw [Text.words_between hfront hback, Text.words_of_isWord hw, List.append_assoc, List.singleton_append]

theorem words_direction (hfront : ∀ c ∈ front, isBlank c) (hid : ∀ c ∈ id, c ≠ '/' ∧ isBlank c = false)
    (hw : ∀ c ∈ w, isBlank c = false) (hback : ∀ c ∈ back.head?, isBlank c) :
    Text.words (Text.trim (front ++ (id ++ '/' :: w) ++ back)) = (id ++ '/' :: w) :: Text.words back := by
  have hlast : ∀ c ∈ front.getLast?, isBlank c := fun c hc => hfront c (List.mem_of_getLast? hc)
  have hword : IsWord (id ++ '/' :: w) := by
    refine ⟨by simp, List.forall_mem_append.mpr ⟨fun c hc => (hid c hc).2, ?_⟩⟩
    exact List.forall_mem_cons.mpr ⟨by decide, hw⟩
  rw [Text.words_trim, words_token hlast hback hword, Text.words_eq_nil_iff.mpr hfront, List.nil_append]

theorem slash_not_mem (hid : ∀ c ∈ id, c ≠ '/' ∧ isBlank c = false) : '/' ∉ id :=
  fun h => (hid '/' h).1 rfl

theorem forall_not_isBlank_replace (hd : isBlank d = false) (h : ∀ b ∈ x ++ c :: y, isBlank b = false) :
    ∀ b ∈ x ++ d :: y, isBlank b = false := by
  obtain ⟨hx, hy⟩ := List.forall_mem_append.mp h
  exact List.forall_mem_append.mpr ⟨hx, List.forall_mem_cons.mpr ⟨hd, (List.forall_mem_cons.mp hy).2⟩⟩

end Places

namespace Vocabulary

variable {v : Vocabulary} {before w w' after : List Char} {a : Attribute}

theorem StandsAt.isOneOf (h : StandsAt v before w after) (hread : ofLine (before ++ w ++ after) = .ok a) :
    IsOneOf v.words w := by
  cases h with
  | kind hw hafter =>
      obtain ⟨k, hk, -⟩ := (ofLine_keyword_eq_ok_iff hw hafter).mp hread
      exact ⟨k.keyword, List.mem_map_of_mem k.mem_all, hk⟩
  | token hkeyword hw hfront hback h =>
      rw [ofLine_token hkeyword] at hread
      refine h.isOneOf id ?_ hread
      rw [Text.words_trim, words_token hfront hback hw]
  | direction hkeyword hfront hid hw hback =>
      rw [ofLine_direction hkeyword] at hread
      exact Extmap.isOneOf_of_read hread (slash_not_mem hid) (words_direction hfront hid hw hback)

theorem ofLine_of_recased {line line' : List Char} (h : Recased line line') (hread : ofLine line = .ok a) :
    ofLine line' = .ok a := by
  obtain @⟨v, before, w, w', after, hplace, hcase⟩ := h
  obtain ⟨K, hK, hspelled⟩ := hplace.isOneOf hread
  have hspelled' := hspelled.of_map_eq (plain K hK) hcase
  have hlower : lower w = lower w' := by
    rw [(Text.lower_eq_iff_isLowerSpelling (plain K hK) w).mpr hspelled,
      (Text.lower_eq_iff_isLowerSpelling (plain K hK) w').mpr hspelled']
  have hword' : IsWord w' := hspelled'.isWord (isWord K hK)
  cases hplace with
  | kind hw hafter =>
      have hw' : ':' ∉ w' := hspelled'.not_mem rfl (colon_not_mem K hK)
      obtain ⟨k, hk, hvalue⟩ := (ofLine_keyword_eq_ok_iff hw hafter).mp hread
      have hk' := hk.of_map_eq (plain (v := .kind) _ (List.mem_map_of_mem k.mem_all)) hcase
      exact (ofLine_keyword_eq_ok_iff hw' hafter).mpr ⟨k, hk', hvalue⟩
  | token hkeyword hw hfront hback h =>
      rw [ofLine_token hkeyword, ← toOption_eq_some_iff] at hread ⊢
      rw [← hread]
      exact (h.toOption_read (words_token hfront hback hw) (words_token hfront hback hword') hlower).symm
  | direction hkeyword hfront hid hw hback =>
      rw [ofLine_direction hkeyword, ← toOption_eq_some_iff] at hread ⊢
      rw [← hread, Attribute.read, Attribute.read, toOption_map, toOption_map,
        Extmap.toOption_read_congr (slash_not_mem hid) (words_direction hfront hid hw hback)
          (words_direction hfront hid hword'.2 hback) hlower]

theorem read_ne_of_defaced {k : Kind} {front back x y : List Char} {c d : Char}
    (h : k.Expects (Text.words front) (Text.words back) v) (hw : IsOneOf v.words (x ++ c :: y))
    (hd : 0x80 ≤ d.toNat) (hfront : ∀ c ∈ front.getLast?, isBlank c) (hback : ∀ c ∈ back.head?, isBlank c) :
    Attribute.read k (Text.trim (front ++ (x ++ d :: y) ++ back)) ≠ .ok a := by
  intro hread
  cases hblank : isBlank d with
  | true =>
      -- The token falls apart, and the first of its parts is no word.
      obtain ⟨u, rest, hwords, hu⟩ := exists_words_eq_cons h.ne_kind hw hblank
      have htokens : Text.words (Text.trim (front ++ (x ++ d :: y) ++ back)) =
          Text.words front ++ u :: (rest ++ Text.words back) := by
        rw [Text.words_trim, Text.words_between hfront hback, hwords, List.append_assoc, List.cons_append]
      exact hu (h.isOneOf (fun hne => by simp [hne]) htokens hread)
  | false =>
      have hword : IsWord (x ++ d :: y) :=
        ⟨by simp, forall_not_isBlank_replace hblank (isWord_of_isOneOf hw).2⟩
      have htokens := words_token hfront hback hword
      rw [← Text.words_trim] at htokens
      exact not_isOneOf_of_not_ascii hd (h.isOneOf id htokens hread)

theorem read_extmap_ne_of_defaced {front id back x y : List Char} {c d : Char}
    (hw : IsOneOf direction.words (x ++ c :: y)) (hd : 0x80 ≤ d.toNat) (hfront : ∀ c ∈ front, isBlank c)
    (hid : ∀ c ∈ id, c ≠ '/' ∧ isBlank c = false) (hback : ∀ c ∈ back.head?, isBlank c) :
    Attribute.read .extmap (Text.trim (front ++ (id ++ '/' :: (x ++ d :: y)) ++ back)) ≠ .ok a := by
  intro hread
  have hslash := slash_not_mem hid
  have hword : ∀ b ∈ x ++ c :: y, isBlank b = false := (isWord_of_isOneOf hw).2
  cases hblank : isBlank d with
  | true =>
      -- The token ends at the blank, and what is left of the direction is a part of it.
      have hline : front ++ (id ++ '/' :: (x ++ d :: y)) ++ back =
          front ++ (id ++ '/' :: x) ++ d :: (y ++ back) := by simp
      rw [hline] at hread
      have hx : ∀ b ∈ x, isBlank b = false := (List.forall_mem_append.mp hword).1
      have hback' : ∀ b ∈ (d :: (y ++ back)).head?, isBlank b := by simpa using hblank
      have hprefix : x <+: x ++ c :: y := List.prefix_append x _
      exact not_isOneOf_of_infix (by decide) hw hprefix.isInfix (by simp)
        (Extmap.isOneOf_of_read hread hslash (words_direction hfront hid hx hback'))
  | false =>
      have hwords := words_direction hfront hid (forall_not_isBlank_replace hblank hword) hback
      exact not_isOneOf_of_not_ascii hd (Extmap.isOneOf_of_read hread hslash hwords)

theorem ofLine_ne_of_defaced {line line' : List Char} (h : Defaced line line') (hread : ofLine line = .ok a)
    (b : Attribute) : ofLine line' ≠ .ok b := by
  obtain @⟨v, before, x, c, d, y, after, hplace, hd⟩ := h
  have hw := hplace.isOneOf hread
  cases hplace with
  | kind hx hafter =>
      have hcolon : ':' ∉ x ++ d :: y := by
        have hne : ':' ≠ d := fun h => absurd (h ▸ hd) (by decide)
        simp only [List.mem_append, List.mem_cons, not_or] at hx ⊢
        exact ⟨hx.1, hne, hx.2.2⟩
      intro hread'
      obtain ⟨k, hk, -⟩ := (ofLine_keyword_eq_ok_iff hcolon hafter).mp hread'
      exact not_isOneOf_of_not_ascii (v := .kind) hd ⟨k.keyword, List.mem_map_of_mem k.mem_all, hk⟩
  | token hkeyword _ hfront hback h =>
      rw [ofLine_token hkeyword]
      exact read_ne_of_defaced h hw hd hfront hback
  | direction hkeyword hfront hid _ hback =>
      rw [ofLine_direction hkeyword]
      exact read_extmap_ne_of_defaced hw hd hfront hid hback

/-- A text is taken for a word just if it is ASCII and the word up to the case of its letters. In a line that
is read every part that is compared with a vocabulary is taken for one of its words, so that the line says the
same when ASCII letters of such parts change their case, and is refused when a character outside ASCII takes
the place of a character of theirs. -/
theorem take?_exact :
    (∀ (v : Vocabulary) t K, v.take? t = some K ↔ K ∈ v.words ∧ IsLowerSpelling K.toList t) ∧
    ∀ line a, ofLine line = .ok a →
      (∀ v before w after, StandsAt v before w after → line = before ++ w ++ after →
        ∃ K, v.take? w = some K) ∧
      (∀ line', Relation.ReflTransGen Recased line line' → ofLine line' = .ok a) ∧
      ∀ line', Defaced line line' → ∃ e, ofLine line' = .error e := by
  refine ⟨fun v t K => take?_eq_some_iff, fun line a hread => ⟨?_, ?_, ?_⟩⟩
  · rintro v before w after hplace rfl
    exact exists_take?_iff.mpr (hplace.isOneOf hread)
  · intro line' hsteps
    induction hsteps with
    | refl => exact hread
    | tail _ hstep ih => exact ofLine_of_recased hstep ih
  · intro line' hdefaced
    cases hline : ofLine line' with
    | ok b => exact absurd hline (ofLine_ne_of_defaced hdefaced hread b)
    | error e => exact ⟨e, rfl⟩

/-- A keyword and a role in other letters, and a capital I with a dot, which is two characters in lower
case. -/
theorem take?_exact_of_role :
    let line := "SETUP:Active".toList
    let recased := "Setup:acTIVE".toList
    let defaced := "SETUP:Act\u0130ve".toList
    ofLine line = .ok (.setup .active) ∧ role.take? "Active".toList = some "active" ∧
      Relation.ReflTransGen Recased line recased ∧ ofLine recased = .ok (.setup .active) ∧
      Defaced line defaced ∧ ∃ e, ofLine defaced = .error e := by
  intro line recased defaced
  have hread : ofLine line = .ok (.setup .active) := by decide +kernel
  have hplace : StandsAt .role ("SETUP".toList ++ [':']) ("Act".toList ++ 'i' :: "ve".toList) [] :=
    .token (by decide +kernel) (by decide) nofun nofun .role
  have hline : line = "SETUP".toList ++ [':'] ++ ("Act".toList ++ 'i' :: "ve".toList) ++ [] := by
    decide +kernel
  have hrecase : Relation.ReflTransGen Recased line recased := by
    have hrole : Recased line ([] ++ "SETUP".toList ++ ":acTIVE".toList) := by
      have h : [] ++ "SETUP".toList ++ ":acTIVE".toList = "SETUP".toList ++ [':'] ++ "acTIVE".toList ++ [] := by
        decide +kernel
      rw [hline, h]
      exact .mk hplace (by decide)
    have hkeyword : Recased ([] ++ "SETUP".toList ++ ":acTIVE".toList)
        ([] ++ "Setup".toList ++ ":acTIVE".toList) :=
      .mk (.kind (by decide) (fun _ h => (Option.mem_some.mp h).symm)) (by decide)
    have hrecased : recased = [] ++ "Setup".toList ++ ":acTIVE".toList := by decide +kernel
    rw [hrecased]
    exact .tail (.single hrole) hkeyword
  have hdeface : Defaced line defaced := by
    have hdefaced : defaced = "SETUP".toList ++ [':'] ++ ("Act".toList ++ '\u0130' :: "ve".toList) ++ [] := by
      decide +kernel
    rw [hline, hdefaced]
    exact .mk hplace (by decide)
  obtain ⟨htaken, hlines⟩ := take?_exact
  obtain ⟨-, hsame, hrefused⟩ := hlines line _ hread
  exact ⟨hread, (htaken _ _ _).mpr (by decide), hrecase, hsame _ hrecase, hdeface, hrefused _ hdeface⟩

end Vocabulary

end Sdp
