import Mathlib.Data.List.TakeWhile
import Sdp.Numeral.Written
import Sdp.Proofs.Numeral.Grammar

/-!
# Plain characters

A number is made plain before it is read. No digit and no mark of a number is lost on the way, and none is
gained. Main statement: `framed_iff`, what is left has stood between blanks.
-/

namespace Sdp.Numeral

open Text (isBlank digitValue?)

variable {c m : Char} {d : Nat} {front body back : List Char}

/-! ## Digits -/

theorem digitValue?_eq_some_iff :
    digitValue? c = some d ↔
      ∃ first, Text.zeros.find? (fun z => z ≤ c.toNat && c.toNat < z + 10) = some first ∧
        c.toNat - first = d := by
  rw [digitValue?, Option.map_eq_some_iff]

theorem lt_of_digitValue? (h : digitValue? c = some d) : d < 10 := by
  obtain ⟨first, hfirst, rfl⟩ := digitValue?_eq_some_iff.mp h
  have hrange := List.find?_some hfirst
  simp only [Bool.and_eq_true, decide_eq_true_eq] at hrange
  omega

/-- No digit of any script is a blank. -/
theorem isBlank_of_digitValue? (h : digitValue? c = some d) : isBlank c = false := by
  have hscripts : ∀ first ∈ Text.zeros, ∀ d < 10, isBlank (Char.ofNat (first + d)) = false := by
    decide +kernel
  obtain ⟨first, hfirst, rfl⟩ := digitValue?_eq_some_iff.mp h
  have hrange := List.find?_some hfirst
  simp only [Bool.and_eq_true, decide_eq_true_eq] at hrange
  have hblank := hscripts first (List.mem_of_find?_eq_some hfirst) (c.toNat - first) (by omega)
  rwa [Nat.add_sub_cancel' hrange.1, Char.ofNat_toNat] at hblank

/-- In ASCII there are the digits of one script. -/
theorem decimalDigit?_of_ascii (hc : c.toNat < 0x7F) : decimalDigit? c = digitValue? c := by
  have hothers : ∀ first ∈ Text.zeros.tail, 0x7F ≤ first := by decide
  have hnone : Text.zeros.tail.find? (fun z => z ≤ c.toNat && c.toNat < z + 10) = none := by
    refine List.find?_eq_none.mpr fun first hfirst => ?_
    have := hothers first hfirst
    simp only [Bool.and_eq_true, decide_eq_true_eq]
    omega
  have hzeros : Text.zeros = 0x30 :: Text.zeros.tail := rfl
  have hdigit : '0' ≤ c ∧ c ≤ '9' ↔ 0x30 ≤ c.toNat ∧ c.toNat < 0x30 + 10 := by
    have hlow : '0' ≤ c ↔ 0x30 ≤ c.toNat := Iff.rfl
    have hhigh : c ≤ '9' ↔ c.toNat ≤ 0x39 := Iff.rfl
    rw [hlow, hhigh]
    omega
  rw [decimalDigit?, digitValue?, hzeros, List.find?_cons, hnone]
  by_cases h : 0x30 ≤ c.toNat ∧ c.toNat < 0x30 + 10
  · simp [hdigit, h]
  · have hfalse : (decide (0x30 ≤ c.toNat) && decide (c.toNat < 0x30 + 10)) = false := by
      simpa using h
    rw [if_neg (hdigit.not.mpr h), hfalse]
    rfl

theorem decimalDigit?_plainChar (c : Char) : decimalDigit? (plainChar c) = digitValue? c := by
  unfold plainChar
  split
  · next hascii => exact decimalDigit?_of_ascii hascii
  · split
    · next hblank =>
        have hnone : digitValue? c = none := Option.eq_none_iff_forall_ne_some.mpr fun d hd => by
          simp [isBlank_of_digitValue? hd] at hblank
        rw [hnone]
        rfl
    · split
      · next d hd => rw [hd, decimalDigit?_digitChar d (lt_of_digitValue? hd)]
      · next hnone =>
          rw [hnone]
          rfl

theorem plainChar_eq_digitChar_iff (hd : d < 10) : plainChar c = digitChar d ↔ digitValue? c = some d := by
  rw [← decimalDigit?_plainChar, decimalDigit?_eq_some_iff, eq_comm]
  exact (and_iff_right hd).symm

/-! ## Marks -/

/-- A character that is plain already, and neither a digit nor a space nor what stands for everything else. -/
def IsMark (m : Char) : Prop :=
  m.toNat < 0x7F ∧ m ≠ ' ' ∧ m ≠ '?' ∧ decimalDigit? m = none

instance (m : Char) : Decidable (IsMark m) :=
  inferInstanceAs (Decidable (_ ∧ _))

theorem plainChar_eq_mark_iff (hm : IsMark m) : plainChar c = m ↔ c = m := by
  obtain ⟨hascii, hspace, hother, hdigit⟩ := hm
  constructor
  · intro h
    unfold plainChar at h
    split at h
    · exact h
    · split at h
      · exact absurd h.symm hspace
      · split at h
        · next d hd =>
            rw [← h, decimalDigit?_digitChar d (lt_of_digitValue? hd)] at hdigit
            cases hdigit
        · exact absurd h.symm hother
  · rintro rfl
    exact if_pos hascii

theorem digitValue?_of_mark (hm : IsMark m) : digitValue? m = none := by
  rw [← decimalDigit?_of_ascii hm.1, hm.2.2.2]

theorem IsSign.not_isBlank {negative : Bool} {sign : List Char} (h : IsSign negative sign) :
    ∀ c ∈ sign, isBlank c = false := by
  cases h with
  | none => nofun
  | plus => exact List.forall_mem_singleton.mpr rfl
  | minus => exact List.forall_mem_singleton.mpr rfl

/-- Small ASCII letters and nothing else. -/
def IsLetters (word : List Char) : Prop :=
  ∀ c ∈ word, 'a' ≤ c ∧ c ≤ 'z'

instance (word : List Char) : Decidable (IsLetters word) :=
  decidable_of_iff (word.all fun c => 'a' ≤ c && c ≤ 'z') (by simp [IsLetters])

/-- A letter of a word in any case. -/
theorem isMark_of_letter {word s : List Char} (hword : IsLetters word)
    (h : Text.IsLowerSpelling word s) : ∀ c ∈ s, IsMark c := by
  have hletters : ∀ n < 128, 'a' ≤ (Char.ofNat n).toLower ∧ (Char.ofNat n).toLower ≤ 'z' →
      IsMark (Char.ofNat n) := by
    decide +kernel
  intro c hc
  have hascii : c.toNat < 0x80 := of_decide_eq_true (List.all_eq_true.mp h.1 c hc)
  have hletter := hword c.toLower (h.2 ▸ List.mem_map_of_mem hc)
  rw [← Char.ofNat_toNat c] at hletter ⊢
  exact hletters c.toNat hascii hletter

/-! ## Margins -/

/-- What blanks become, but for the information separators. -/
theorem isPadding_plainChar_iff :
    isPadding (plainChar c) ↔ isBlank c ∧ ¬ (0x1C ≤ c.toNat ∧ c.toNat ≤ 0x1F) := by
  have hspace : c = ' ' ↔ c.toNat = 0x20 :=
    ⟨fun h => h ▸ rfl, fun h => Char.ext (UInt32.toNat_inj.mp h)⟩
  unfold plainChar
  split
  · next hascii =>
      simp only [isPadding, isBlank, Bool.or_eq_true, Bool.and_eq_true, decide_eq_true_eq, beq_iff_eq, hspace]
      omega
  · next hascii =>
      split
      · next hblank =>
          refine iff_of_true rfl ⟨hblank, ?_⟩
          omega
      · next hblank =>
          refine iff_of_false ?_ fun h => hblank h.1
          have hdigits : ∀ d < 10, isPadding (digitChar d) = false := by decide
          split
          · next d hd => simp [hdigits d (lt_of_digitValue? hd)]
          · decide

theorem isMargin_iff {s : List Char} : IsMargin s ↔ ∀ c ∈ s.map plainChar, isPadding c := by
  rw [List.forall_mem_map]
  exact forall₂_congr fun _ _ => isPadding_plainChar_iff.symm

theorem isMargin_nil : IsMargin [] := by
  simp [IsMargin]

theorem not_isPadding_of_not_isBlank (h : isBlank c = false) : ¬ isPadding (plainChar c) := by
  intro hpadding
  simp [(isPadding_plainChar_iff.mp hpadding).1] at h

theorem plain_of_margins (hfront : IsMargin front) (hback : IsMargin back)
    (hbody : ∀ c ∈ body, isBlank c = false) : plain (front ++ body ++ back) = body.map plainChar := by
  have hinner : ∀ c ∈ body.map plainChar, ¬ isPadding c :=
    List.forall_mem_map.mpr fun c hc => not_isPadding_of_not_isBlank (hbody c hc)
  have hdrop : (body.map plainChar ++ back.map plainChar).dropWhile isPadding =
      if body = [] then [] else body.map plainChar ++ back.map plainChar := by
    cases body with
    | nil => exact List.dropWhile_eq_nil_iff.mpr (isMargin_iff.mp hback)
    | cons c body => exact List.dropWhile_cons_of_neg (hinner _ (List.mem_cons_self ..))
  have hreverse : ∀ c ∈ (back.map plainChar).reverse, isPadding c := fun c hc =>
    isMargin_iff.mp hback c (List.mem_reverse.mp hc)
  rw [plain, List.append_assoc, List.map_append, List.map_append,
    List.dropWhile_append_of_pos (isMargin_iff.mp hfront), hdrop]
  split
  · next hempty =>
      subst hempty
      rfl
  · rw [List.reverse_append, List.dropWhile_append_of_pos hreverse, List.dropWhile_eq_self_iff.mpr,
      List.reverse_reverse]
    exact fun hlength => hinner _ (List.mem_reverse.mp (List.getElem_mem hlength))

/-- Whatever a text is, its plain form comes from what stands between two margins. -/
theorem exists_plain (s : List Char) :
    ∃ front body back, s = front ++ body ++ back ∧ IsMargin front ∧ IsMargin back ∧
      plain s = body.map plainChar := by
  let isMarginal (c : Char) : Bool := isPadding (plainChar c)
  let rest := s.dropWhile isMarginal
  have hmargin (t : List Char) : IsMargin (t.takeWhile isMarginal) := fun c hc =>
    isPadding_plainChar_iff.mp (List.mem_takeWhile_imp hc : isMarginal c)
  have hrest : rest =
      (rest.reverse.dropWhile isMarginal).reverse ++ (rest.reverse.takeWhile isMarginal).reverse := by
    rw [← List.reverse_append, List.takeWhile_append_dropWhile, List.reverse_reverse]
  refine ⟨s.takeWhile isMarginal, (rest.reverse.dropWhile isMarginal).reverse,
    (rest.reverse.takeWhile isMarginal).reverse, ?_, hmargin s, ?_, ?_⟩
  · rw [List.append_assoc, ← hrest, List.takeWhile_append_dropWhile]
  · exact fun c hc => hmargin rest.reverse c (List.mem_reverse.mp hc)
  · rw [plain, List.dropWhile_map, ← List.map_reverse, List.dropWhile_map, ← List.map_reverse]
    rfl

/-- If what `A` accepts is a sign and what `P` tells, a text whose plain form it accepts has both between
margins. -/
theorem framed_iff {A : List Char → Prop} {P : Bool → List Char → Prop} (s : List Char)
    (hA : ∀ t, A (t.map plainChar) ↔
      ∃ negative sign body, t = sign ++ body ∧ IsSign negative sign ∧ P negative body)
    (hP : ∀ negative body, P negative body → ∀ c ∈ body, isBlank c = false) :
    A (plain s) ↔ Framed P s := by
  constructor
  · intro h
    obtain ⟨front, inner, back, rfl, hfront, hback, hplain⟩ := exists_plain s
    obtain ⟨negative, sign, body, rfl, hsign, hbody⟩ := (hA inner).mp (hplain ▸ h)
    exact .intro hfront hsign hbody hback
  · rintro ⟨hfront, hsign, hbody, hback⟩
    rw [plain_of_margins hfront hback, hA]
    · exact ⟨_, _, _, rfl, hsign, hbody⟩
    · intro c hc
      exact (List.mem_append.mp hc).elim (hsign.not_isBlank c) (hP _ _ hbody c)

end Sdp.Numeral
