import Sdp.Proofs.Numeral.Underscore
import Sdp.Proofs.Text.Ascii

/-!
# Real numbers are read as they are written

Main statement: `readReal?_eq_some_iff`. Each part of a number is looked for in what is left without the
underscores, and comes from a part of the text.
-/

namespace Sdp.Numeral

open Text (isBlank)

variable {negative : Bool} {m : Char} {ds fs : List Nat} {e : Int} {q r t u : List Char} {x : Binary64}

/-! ## Exponents -/

/-- An exponent as it is left. -/
inductive IsPlainExponent : Int → List Char → Prop where
  | none : IsPlainExponent 0 []
  | some {m : Char} {negative : Bool} {sign : List Char} {ds : List Nat} (hm : m = 'e' ∨ m = 'E')
      (hsign : IsSign negative sign) (hne : ds ≠ []) (hds : ∀ d ∈ ds, d < 10) :
      IsPlainExponent (signed negative (ofDigits 10 ds)) (m :: (sign ++ ds.map digitChar))

theorem isMark_of_exponent (hm : m = 'e' ∨ m = 'E') : IsMark m ∧ m ≠ '_' := by
  rcases hm with rfl | rfl <;> decide

theorem IsPlainExponent.head (h : IsPlainExponent e r) : ∀ m ∈ r.head?, m = 'e' ∨ m = 'E' := by
  cases h with
  | none => nofun
  | some hm _ _ _ => simpa using hm

theorem readExponent?_eq_some_iff : readExponent? r = some e ↔ IsPlainExponent e r := by
  let P (negative : Bool) (rest : List Char) : Prop :=
    ∃ ds, decimalDigits? rest = some ds ∧ signed negative (ofDigits 10 ds) = e
  have hunsigned {p : Char} (hp : ∀ d < 10, digitChar d ≠ p) (negative : Bool) (rest : List Char) :
      ¬ P negative (p :: rest) := by
    rintro ⟨ds, hds, -⟩
    obtain ⟨-, hlt, hchars⟩ := decimalDigits?_eq_some_iff.mp hds
    obtain ⟨d, ds, rfl, hd, -⟩ := List.map_eq_cons_iff.mp hchars
    exact hp d (hlt d (List.mem_cons_self ..)) hd
  have hread {m : Char} (hm : m = 'e' ∨ m = 'E') (rest : List Char) :
      readExponent? (m :: rest) = some e ↔ P (cutSign rest).1 (cutSign rest).2 := by
    simp [readExponent?, hm, readDecimal?, P, signed, Option.bind_eq_some_iff, Option.map_eq_some_iff]
  constructor
  · intro h
    cases r with
    | nil =>
        cases h
        exact .none
    | cons m rest =>
        have hm : m = 'e' ∨ m = 'E' := by
          by_contra hm
          simp [readExponent?, hm] at h
        rw [hread hm, cutSign_iff (hunsigned (by decide)) (hunsigned (by decide))] at h
        obtain ⟨negative, sign, rest, rfl, hsign, ds, hds, rfl⟩ := h
        obtain ⟨hne, hlt, rfl⟩ := decimalDigits?_eq_some_iff.mp hds
        exact .some hm hsign hne hlt
  · rintro (_ | ⟨hm, hsign, hne, hds⟩)
    · rfl
    · rw [hread hm, cutSign_iff (hunsigned (by decide)) (hunsigned (by decide))]
      exact ⟨_, _, _, rfl, hsign, _, decimalDigits?_eq_some_iff.mpr ⟨hne, hds, rfl⟩, rfl⟩

theorem exists_drops_exponent_iff : (∃ r, Drops false t r ∧ IsPlainExponent e r) ↔ IsExponent e t := by
  constructor
  · rintro ⟨r, h, _ | ⟨hm, hsign, hne, hds⟩⟩
    · rw [drops_nil_iff.mp h]
      exact .none
    · obtain ⟨hmark, hunder⟩ := isMark_of_exponent hm
      obtain ⟨u, rfl, hu⟩ := (drops_mark_iff hmark hunder).mp h
      obtain ⟨body, rfl, hbody⟩ := (drops_sign_append_iff hsign).mp hu
      exact .some hm hsign (((drops_digits_iff hds).mp hbody).resolve_left fun hnil => hne hnil.1)
  · rintro (_ | ⟨hm, hsign, h⟩)
    · exact ⟨[], .nil, .none⟩
    · obtain ⟨hmark, hunder⟩ := isMark_of_exponent hm
      have hdrops := (drops_sign_append_iff hsign).mpr ⟨_, rfl, h.drops⟩
      exact ⟨_, (drops_mark_iff hmark hunder).mpr ⟨_, rfl, hdrops⟩, .some hm hsign h.ne_nil h.lt⟩

/-! ## Decimals -/

/-- The digits and the point of a number as they are left. -/
inductive IsPlainMantissa : List Nat → List Nat → List Char → Prop where
  | whole {ds : List Nat} (hne : ds ≠ []) (hds : ∀ d ∈ ds, d < 10) :
      IsPlainMantissa ds [] (ds.map digitChar)
  | point {ds fs : List Nat} (hne : ds ++ fs ≠ []) (hds : ∀ d ∈ ds, d < 10) (hfs : ∀ d ∈ fs, d < 10) :
      IsPlainMantissa ds fs (ds.map digitChar ++ '.' :: fs.map digitChar)

theorem exists_drops_mantissa_iff :
    (∃ q, Drops false t q ∧ IsPlainMantissa ds fs q) ↔ IsMantissa ds fs t := by
  have hpoint {u : List Char} : ∀ m ∈ ('.' :: u).head?, IsMark m := by
    rintro m ⟨⟩
    decide
  constructor
  · rintro ⟨q, h, ⟨hne, hds⟩ | ⟨hne, hds, hfs⟩⟩
    · exact .whole (((drops_digits_iff hds).mp h).resolve_left fun hnil => hne hnil.1)
    · obtain ⟨t, rest, rfl, ht, hrest⟩ := (Drops.append_iff hpoint).mp h
      obtain ⟨u, rfl, hu⟩ := (drops_mark_iff (by decide) (by decide)).mp hrest
      replace ht := (drops_digits_iff hds).mp ht
      rcases (drops_digits_iff hfs).mp hu with ⟨rfl, rfl⟩ | hu
      · exact .pointed (ht.resolve_left fun hnil => hne (by rw [hnil.1]; rfl))
      · exact .fraction ht hu
  · have hdrops {t u : List Char} {ds fs : List Nat} (ht : IsDigitPart ds t) (hu : IsDigitPart fs u) :
        Drops false (t ++ '.' :: u) (ds.map digitChar ++ '.' :: fs.map digitChar) :=
      (Drops.append_iff hpoint).mpr
        ⟨t, _, rfl, ht.drops, (drops_mark_iff (by decide) (by decide)).mpr ⟨u, rfl, hu.drops⟩⟩
    rintro (ht | ht | ⟨ht, hu⟩)
    · exact ⟨_, ht.drops, .whole ht.ne_nil ht.lt⟩
    · exact ⟨_, hdrops (.inr ht) (.inl ⟨rfl, rfl⟩), .point (by simpa using ht.ne_nil) ht.lt nofun⟩
    · exact ⟨_, hdrops ht (.inr hu), .point (by simp [hu.ne_nil]) ht.lt hu.lt⟩

/-- Digits and an exponent with their value, as they are left. -/
inductive IsPlainDecimal (negative : Bool) : Binary64 → List Char → Prop where
  | intro {ds fs : List Nat} {e : Int} {p r : List Char} (hp : IsPlainMantissa ds fs p)
      (hr : IsPlainExponent e r) :
      IsPlainDecimal negative (.ofDecimal negative (ofDigits 10 (ds ++ fs)) (e - fs.length)) (p ++ r)

theorem isPlainDecimal_of_parts {p : List Char} (hp : ds ++ fs ≠ [] → IsPlainMantissa ds fs p)
    (h : (if ds.isEmpty && fs.isEmpty then none
      else (readExponent? r).map fun e =>
        Binary64.ofDecimal negative (ofDigits 10 (ds ++ fs)) (e - fs.length)) = some x) :
    IsPlainDecimal negative x (p ++ r) := by
  obtain ⟨hne, hread⟩ := Option.ite_none_left_eq_some.mp h
  obtain ⟨e, he, rfl⟩ := Option.map_eq_some_iff.mp hread
  exact .intro (hp (by simpa [List.isEmpty_iff] using hne)) (readExponent?_eq_some_iff.mp he)

theorem readScientific?_eq_some_iff : readScientific? negative q = some x ↔ IsPlainDecimal negative x q := by
  constructor
  · intro h
    obtain ⟨hq, hds⟩ := cutDigits_eq q
    unfold readScientific? at h
    dsimp only at h
    split at h
    · next rest hrest =>
        obtain ⟨hfraction, hfs⟩ := cutDigits_eq rest
        have hdecimal := isPlainDecimal_of_parts (fun hne => .point hne hds hfs) h
        rwa [List.append_assoc, List.cons_append, ← hfraction, ← hrest, ← hq] at hdecimal
    · have hdecimal := isPlainDecimal_of_parts (fun hne => .whole (by simpa using hne) hds) h
      rwa [← hq] at hdecimal
  · rintro @⟨ds, fs, e, p, r, hp, hr⟩
    have hdigit : Stops (fun c => (decimalDigit? c).isSome) r := fun m hm => by
      simp [(isMark_of_exponent (hr.head m hm)).1.2.2.2]
    have he := readExponent?_eq_some_iff.mpr hr
    cases hp with
    | whole hne hds =>
        have hpoint : ∀ rest, r ≠ '.' :: rest := by
          rintro rest rfl
          exact absurd (hr.head _ rfl) (by decide)
        simp [readScientific?, cutDigits_append hds hdigit, hne, he]
    | point hne hds hfs =>
        have hpoint : Stops (fun c => (decimalDigit? c).isSome) ('.' :: (fs.map digitChar ++ r)) :=
          stops_cons rfl _
        rw [List.append_assoc, List.cons_append]
        simpa [readScientific?, cutDigits_append hds hpoint, cutDigits_append hfs hdigit, he] using hne

/-- No number starts with a mark but the point. -/
theorem readScientific?_cons_of_mark (hm : IsMark m) (hne : m ≠ '.') (negative : Bool) (q : List Char) :
    readScientific? negative (m :: q) = none := by
  have hcut : cutDigits (m :: q) = ([], m :: q) := by simp [cutDigits, hm.2.2.2]
  simp [readScientific?, hcut, hne]

theorem IsPlainExponent.isMark (h : IsPlainExponent e r) : ∀ m ∈ r.head?, IsMark m := fun m hm =>
  (isMark_of_exponent (h.head m hm)).1

theorem IsPlainDecimal.isMagnitude (h : IsPlainDecimal negative x q) (hq : Drops false t q) :
    IsMagnitude negative x t := by
  obtain ⟨hp, hr⟩ := h
  obtain ⟨u, v, rfl, hu, hv⟩ := (Drops.append_iff hr.isMark).mp hq
  exact .decimal (exists_drops_mantissa_iff.mp ⟨_, hu, hp⟩) (exists_drops_exponent_iff.mp ⟨_, hv, hr⟩)

theorem exists_drops_of_decimal (negative : Bool) (ht : IsMantissa ds fs t) (hu : IsExponent e u) :
    ∃ q, Drops false (t ++ u) q ∧
      IsPlainDecimal negative (.ofDecimal negative (ofDigits 10 (ds ++ fs)) (e - fs.length)) q := by
  obtain ⟨p, htp, hp⟩ := exists_drops_mantissa_iff.mpr ht
  obtain ⟨r, hur, hr⟩ := exists_drops_exponent_iff.mpr hu
  exact ⟨p ++ r, (Drops.append_iff hr.isMark).mpr ⟨t, u, rfl, htp, hur⟩, .intro hp hr⟩

/-! ## Words -/

/-- The words that stand for real numbers. -/
def realWords : List String := ["inf", "infinity", "nan"]

theorem plain_realWords : ∀ w ∈ realWords, Text.Plain w.toList := by
  decide

theorem isWord_realWords : ∀ w ∈ realWords, Text.IsWord w.toList := by
  decide

theorem isLetters_realWords : ∀ w ∈ realWords, IsLetters w.toList := by
  decide

section Words

variable {w : String} (hw : w ∈ realWords)
include hw

/-- What has no case and is no letter stands in no such word. -/
theorem not_mem_of_realWord (h : Text.IsLowerSpelling w.toList q) (hm : m.toLower = m)
    (hletter : ¬ ('a' ≤ m ∧ m ≤ 'z')) : m ∉ q :=
  h.not_mem hm fun hmem => hletter (isLetters_realWords w hw m hmem)

theorem isMark_of_realWord (h : Text.IsLowerSpelling w.toList q) : ∀ m ∈ q, IsMark m ∧ m ≠ '_' := by
  refine fun m hm => ⟨isMark_of_letter (isLetters_realWords w hw) h m hm, ?_⟩
  rintro rfl
  exact not_mem_of_realWord hw h (by decide) (by decide) hm

theorem exists_drops_word_iff :
    (∃ q, Drops false t q ∧ Text.lower q = w.toList) ↔ Text.IsLowerSpelling w.toList t := by
  simp only [Text.lower_eq_iff_isLowerSpelling (plain_realWords w hw)]
  constructor
  · rintro ⟨q, h, hq⟩
    rwa [(drops_marks_iff (isMark_of_realWord hw hq)).mp h]
  · intro ht
    exact ⟨t, (drops_marks_iff (isMark_of_realWord hw ht)).mpr rfl, ht⟩

/-- A word is no decimal. -/
theorem readScientific?_of_realWord (h : Text.lower q = w.toList) (negative : Bool) :
    readScientific? negative q = none := by
  have hspelled := (Text.lower_eq_iff_isLowerSpelling (plain_realWords w hw) q).mp h
  cases q with
  | nil => exact absurd h.symm (isWord_realWords w hw).1
  | cons m q =>
      have hmark := (isMark_of_realWord hw hspelled m (List.mem_cons_self ..)).1
      refine readScientific?_cons_of_mark hmark ?_ negative q
      rintro rfl
      exact not_mem_of_realWord hw hspelled (by decide) (by decide) (List.mem_cons_self ..)

end Words

theorem readMagnitude?_of_not_word (h : ∀ w ∈ realWords, Text.lower q ≠ w.toList) (negative : Bool) :
    readMagnitude? negative q = readScientific? negative q := by
  have hinf := h "inf" (by decide)
  have hinfinity := h "infinity" (by decide)
  have hnan := h "nan" (by decide)
  simp only [readMagnitude?, hinf, hinfinity, hnan, or_self, if_false]

theorem exists_drops_magnitude_iff :
    (∃ q, Drops false t q ∧ readMagnitude? negative q = some x) ↔ IsMagnitude negative x t := by
  constructor
  · rintro ⟨q, h, hread⟩
    unfold readMagnitude? at hread
    dsimp only at hread
    split at hread
    · next hword =>
        cases hread
        rcases hword with hword | hword
        · exact .infinity (by decide) ((exists_drops_word_iff (by decide)).mp ⟨q, h, hword⟩)
        · exact .infinity (by decide) ((exists_drops_word_iff (by decide)).mp ⟨q, h, hword⟩)
    · split at hread
      · next hword =>
          cases hread
          exact .nan ((exists_drops_word_iff (by decide)).mp ⟨q, h, hword⟩)
      · exact (readScientific?_eq_some_iff.mp hread).isMagnitude h
  · rintro (⟨hw, ht⟩ | ht | ⟨ht, hu⟩)
    · obtain ⟨q, h, hword⟩ := (exists_drops_word_iff (List.mem_append_left ["nan"] hw)).mpr ht
      have hinfinite : Text.lower q = "inf".toList ∨ Text.lower q = "infinity".toList := by
        rcases List.mem_pair.mp hw with rfl | rfl
        · exact .inl hword
        · exact .inr hword
      exact ⟨q, h, if_pos hinfinite⟩
    · obtain ⟨q, h, hword⟩ := (exists_drops_word_iff (by decide)).mpr ht
      exact ⟨q, h, by simp [readMagnitude?, hword]⟩
    · obtain ⟨q, h, hq⟩ := exists_drops_of_decimal negative ht hu
      have hread := readScientific?_eq_some_iff.mpr hq
      refine ⟨q, h, ?_⟩
      rw [readMagnitude?_of_not_word, hread]
      intro w hw hword
      cases (readScientific?_of_realWord hw hword negative).symm.trans hread

/-! ## Reading -/

theorem IsMantissa.not_isBlank (h : IsMantissa ds fs t) : ∀ c ∈ t, isBlank c = false := by
  cases h with
  | whole ht => exact ht.not_isBlank
  | pointed ht => exact List.forall_mem_append.mpr ⟨ht.not_isBlank, List.forall_mem_singleton.mpr rfl⟩
  | fraction ht hu =>
      refine List.forall_mem_append.mpr ⟨?_, List.forall_mem_cons.mpr ⟨by decide, hu.not_isBlank⟩⟩
      rcases ht with ⟨-, rfl⟩ | ht
      · nofun
      · exact ht.not_isBlank

theorem IsExponent.not_isBlank (h : IsExponent e t) : ∀ c ∈ t, isBlank c = false := by
  cases h with
  | none => nofun
  | some hm hsign ht =>
      refine List.forall_mem_cons.mpr ⟨?_, List.forall_mem_append.mpr ⟨hsign.not_isBlank, ht.not_isBlank⟩⟩
      rcases hm with rfl | rfl <;> decide

theorem IsMagnitude.not_isBlank (h : IsMagnitude negative x t) : ∀ c ∈ t, isBlank c = false := by
  cases h with
  | infinity hw ht => exact (ht.isWord (isWord_realWords _ (List.mem_append_left ["nan"] hw))).2
  | nan ht => exact (ht.isWord (isWord_realWords _ (by decide))).2
  | decimal ht hu => exact List.forall_mem_append.mpr ⟨ht.not_isBlank, hu.not_isBlank⟩

/-- Behind a sign there is no other one. -/
theorem readMagnitude?_cons_of_mark (hm : IsMark m) (hne : m ≠ '.') (hlower : m.toLower = m)
    (hletter : ¬ ('a' ≤ m ∧ m ≤ 'z')) (negative : Bool) (q : List Char) :
    readMagnitude? negative (m :: q) = none := by
  rw [readMagnitude?_of_not_word, readScientific?_cons_of_mark hm hne]
  intro w hw hword
  have hspelled := (Text.lower_eq_iff_isLowerSpelling (plain_realWords w hw) _).mp hword
  exact not_mem_of_realWord hw hspelled hlower hletter (List.mem_cons_self ..)

theorem readReal?_eq_some_iff {s : List Char} : readReal? s = some x ↔ IsReal x s := by
  let P (negative : Bool) (rest : List Char) : Prop := readMagnitude? negative rest = some x
  have hunsigned {m : Char} (hm : IsMark m ∧ m ≠ '.' ∧ m.toLower = m ∧ ¬ ('a' ≤ m ∧ m ≤ 'z'))
      (negative : Bool) (rest : List Char) : ¬ P negative (m :: rest) := by
    obtain ⟨hmark, hpoint, hlower, hletter⟩ := hm
    simp [P, readMagnitude?_cons_of_mark hmark hpoint hlower hletter]
  have hread : readReal? s = some x ↔
      ∃ q, dropUnderscores? false (plain s) = some q ∧ P (cutSign q).1 (cutSign q).2 :=
    Option.bind_eq_some_iff
  rw [hread]
  refine framed_iff (A := fun p => ∃ q, dropUnderscores? false p = some q ∧ P (cutSign q).1 (cutSign q).2)
    s (fun t => ?_) fun negative body h => h.not_isBlank
  simp only [dropUnderscores?_eq_some_iff, cutSign_iff (hunsigned (by decide)) (hunsigned (by decide))]
  constructor
  · rintro ⟨_, h, negative, sign, q, rfl, hsign, hq⟩
    obtain ⟨body, rfl, hbody⟩ := (drops_sign_append_iff hsign).mp h
    exact ⟨negative, sign, body, rfl, hsign, exists_drops_magnitude_iff.mp ⟨q, hbody, hq⟩⟩
  · rintro ⟨negative, sign, body, rfl, hsign, hbody⟩
    obtain ⟨q, h, hq⟩ := exists_drops_magnitude_iff.mpr hbody
    exact ⟨_, (drops_sign_append_iff hsign).mpr ⟨body, rfl, h⟩, negative, sign, q, rfl, hsign, hq⟩

end Sdp.Numeral
