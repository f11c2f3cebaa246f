import Sdp.Proofs.Numeral.Digits
import Sdp.Text.Quoted

/-!
# Quoted texts are read back

Main statements: `quote_append_inj`, a quoted text ends where it says, whatever stands behind it, and
`isPrintable_of_mem_quote`.
-/

namespace Sdp

/-! ## Digits of a fixed width -/

namespace Numeral

theorem lt_of_mem_fixedDigits {base : Nat} (h : 0 < base) {width n d : Nat}
    (hd : d ∈ fixedDigits base width n) : d < base := by
  induction width generalizing n with
  | zero => cases hd
  | succ width ih =>
      rcases List.mem_append.mp hd with hd | hd
      · exact ih hd
      · rw [List.mem_singleton.mp hd]
        exact Nat.mod_lt n h

theorem ofDigits_fixedDigits {base width n : Nat} (h : n < Nat.pow base width) :
    ofDigits base (fixedDigits base width n) = n := by
  induction width generalizing n with
  | zero =>
      obtain rfl : n = 0 := by simpa [Nat.pow] using h
      rfl
  | succ width ih =>
      have hdiv : n / base < Nat.pow base width := Nat.div_lt_of_lt_mul (Nat.mul_comm _ base ▸ h)
      have hfront := ih hdiv
      simp only [fixedDigits, ofDigits, List.foldl_append, List.foldl_cons, List.foldl_nil] at hfront ⊢
      rw [hfront]
      exact Nat.div_add_mod' n base

theorem forall_mem_hexFixed {p : Char → Prop} (h : ∀ d < 16, p (digitChar d)) (width n : Nat) :
    ∀ c ∈ hexFixed width n, p c := by
  intro c hc
  obtain ⟨d, hd, rfl⟩ := List.mem_map.mp hc
  exact h d (lt_of_mem_fixedDigits (by decide) hd)

end Numeral

namespace Text

open Numeral (hexFixed hexDigit? fixedDigits ofDigits)

theorem charOfHex?_hexFixed (width : Nat) {c : Char} (h : c.toNat < Nat.pow 16 width) :
    charOfHex? (hexFixed width c.toNat) = some c := by
  have hdigits : (hexFixed width c.toNat).mapM hexDigit? = some (fixedDigits 16 width c.toNat) :=
    Numeral.mapM_digit? fun d hd =>
      Numeral.hexDigit?_digitChar d (Numeral.lt_of_mem_fixedDigits (by decide) hd)
  have hvalid : c.toNat.isValidChar := c.valid
  rw [charOfHex?, hdigits, Option.bind_some, Numeral.ofDigits_fixedDigits h]
  simp [hvalid, Char.ofNat_toNat]

/-! ## Printable characters -/

theorem isPrintable_of_ascii {c : Char} (hlow : 0x20 ≤ c.toNat) (hhigh : c.toNat ≤ 0x7E) : isPrintable c := by
  have hranges : ∀ range ∈ unprintableRanges, range.2 < 0x20 ∨ 0x7E < range.1 := by decide +kernel
  simp only [isPrintable, Bool.not_eq_true', List.any_eq_false, Bool.and_eq_true, decide_eq_true_eq]
  intro range hrange
  have := hranges range hrange
  omega

theorem forall_isPrintable_of_ascii {s : List Char}
    (h : s.all fun c => 0x20 ≤ c.toNat && c.toNat ≤ 0x7E) : ∀ c ∈ s, isPrintable c := by
  intro c hc
  have hbounds := List.all_eq_true.mp h c hc
  simp only [Bool.and_eq_true, decide_eq_true_eq] at hbounds
  exact isPrintable_of_ascii hbounds.1 hbounds.2

theorem isPrintable_of_mem_decimal (n : Nat) : ∀ c ∈ Numeral.decimal n, isPrintable c := by
  have hdigit : ∀ d < 10, 0x20 ≤ (Numeral.digitChar d).toNat ∧ (Numeral.digitChar d).toNat ≤ 0x7E := by decide
  exact Numeral.forall_mem_decimal (fun d hd => isPrintable_of_ascii (hdigit d hd).1 (hdigit d hd).2) n

variable {mark : Char}

/-- The characters that texts are quoted with. -/
def IsQuoteMark (c : Char) : Prop := c = '\'' ∨ c = '"'

theorem isQuoteMark_quoteMark (s : List Char) : IsQuoteMark (quoteMark s) := by
  unfold quoteMark
  split
  · exact Or.inr rfl
  · exact Or.inl rfl

theorem isPrintable_of_mem_hexFixed {width n : Nat} {c : Char} (h : c ∈ hexFixed width n) : isPrintable c := by
  obtain ⟨hlow, hhigh⟩ := Numeral.forall_mem_hexFixed
    (p := fun c => 0x20 ≤ c.toNat ∧ c.toNat ≤ 0x7E) (by decide) width n c h
  exact isPrintable_of_ascii hlow hhigh

theorem IsQuoteMark.isPrintable {c : Char} (h : IsQuoteMark c) : isPrintable c := by
  rcases h with rfl | rfl <;> exact isPrintable_of_ascii (by decide) (by decide)

/-- A character stands for itself, or is a backslash, a letter and maybe some digits. -/
theorem quoteChar_cases (hmark : IsQuoteMark mark) (c : Char) :
    (quoteChar mark c = [c] ∧ isPrintable c) ∨
    ∃ letter width, quoteChar mark c = '\\' :: letter :: hexFixed width c.toNat ∧ isPrintable letter := by
  have hletter : ∀ letter ∈ ['\\', 'n', 'r', 't', 'x', 'u', 'U'], isPrintable letter :=
    forall_isPrintable_of_ascii (by decide)
  unfold quoteChar
  split
  · next hc =>
      rcases hc with rfl | rfl
      · exact Or.inr ⟨_, 0, rfl, hmark.isPrintable⟩
      · exact Or.inr ⟨_, 0, rfl, hletter _ (by decide)⟩
  split
  · exact Or.inr ⟨_, 0, rfl, hletter _ (by decide)⟩
  split
  · exact Or.inr ⟨_, 0, rfl, hletter _ (by decide)⟩
  split
  · exact Or.inr ⟨_, 0, rfl, hletter _ (by decide)⟩
  split
  · next hc => exact Or.inl ⟨rfl, hc⟩
  split
  · exact Or.inr ⟨_, 2, rfl, hletter _ (by decide)⟩
  split
  · exact Or.inr ⟨_, 4, rfl, hletter _ (by decide)⟩
  · exact Or.inr ⟨_, 8, rfl, hletter _ (by decide)⟩

theorem isPrintable_of_mem_quoteChar (hmark : IsQuoteMark mark) {c d : Char} (h : d ∈ quoteChar mark c) :
    isPrintable d := by
  rcases quoteChar_cases hmark c with ⟨hchar, hc⟩ | ⟨letter, width, hchar, hletter⟩
  · rw [hchar, List.mem_singleton] at h
    exact h ▸ hc
  · rw [hchar, List.mem_cons, List.mem_cons] at h
    rcases h with rfl | rfl | h
    · exact isPrintable_of_ascii (by decide) (by decide)
    · exact hletter
    · exact isPrintable_of_mem_hexFixed h

theorem isPrintable_of_mem_quote {s : List Char} {c : Char} (h : c ∈ quote s) : isPrintable c := by
  have hmark := isQuoteMark_quoteMark s
  simp only [quote, List.cons_append, List.mem_cons, List.mem_append, List.mem_flatMap, List.not_mem_nil,
    or_false] at h
  rcases h with rfl | ⟨d, -, hc⟩ | rfl
  · exact hmark.isPrintable
  · exact isPrintable_of_mem_quoteChar hmark hc
  · exact hmark.isPrintable

/-! ## Reading back -/

theorem unquoteTail_quoteChar (hmark : IsQuoteMark mark) (c : Char) (rest : List Char) :
    unquoteTail mark (quoteChar mark c ++ rest) = (unquoteTail mark rest).map (c :: ·) := by
  unfold quoteChar
  split
  · next h =>
      rcases h with rfl | rfl
      · rcases hmark with rfl | rfl <;> simp [unquoteTail]
      · simp [unquoteTail]
  · next h =>
      obtain ⟨hc, hbackslash⟩ := not_or.mp h
      split
      · next hc => subst hc; simp [unquoteTail]
      split
      · next hc => subst hc; simp [unquoteTail]
      split
      · next hc => subst hc; simp [unquoteTail]
      split
      · simp [unquoteTail, hc, hbackslash]
      split
      · next hlt =>
          have hread := charOfHex?_hexFixed 2 hlt
          obtain ⟨d₁, d₂, hdigits⟩ : ∃ d₁ d₂, hexFixed 2 c.toNat = [d₁, d₂] := ⟨_, _, rfl⟩
          rw [hdigits] at hread ⊢
          simp only [List.cons_append, List.nil_append, unquoteTail, hread]
          cases unquoteTail mark rest <;> rfl
      split
      · next hlt =>
          have hread := charOfHex?_hexFixed 4 hlt
          obtain ⟨d₁, d₂, d₃, d₄, hdigits⟩ : ∃ d₁ d₂ d₃ d₄, hexFixed 4 c.toNat = [d₁, d₂, d₃, d₄] :=
            ⟨_, _, _, _, rfl⟩
          rw [hdigits] at hread ⊢
          simp only [List.cons_append, List.nil_append, unquoteTail, hread]
          cases unquoteTail mark rest <;> rfl
      · have hread := charOfHex?_hexFixed 8 c.val.toNat_lt
        obtain ⟨d₁, d₂, d₃, d₄, d₅, d₆, d₇, d₈, hdigits⟩ :
            ∃ d₁ d₂ d₃ d₄ d₅ d₆ d₇ d₈, hexFixed 8 c.toNat = [d₁, d₂, d₃, d₄, d₅, d₆, d₇, d₈] :=
          ⟨_, _, _, _, _, _, _, _, rfl⟩
        rw [hdigits] at hread ⊢
        simp only [List.cons_append, List.nil_append, unquoteTail, hread]
        cases unquoteTail mark rest <;> rfl

theorem unquoteTail_flatMap (hmark : IsQuoteMark mark) (s rest : List Char) :
    unquoteTail mark (s.flatMap (quoteChar mark) ++ rest) = (unquoteTail mark rest).map (s ++ ·) := by
  induction s with
  | nil => simp
  | cons c s ih =>
      rw [List.flatMap_cons, List.append_assoc, unquoteTail_quoteChar hmark, ih]
      simp [Function.comp_def]

theorem unquote_quote_append (s rest : List Char) :
    unquote (quote s ++ rest) = if rest = [] then some s else none := by
  have hmark := isQuoteMark_quoteMark s
  have hend : unquoteTail (quoteMark s) (quoteMark s :: rest) = if rest = [] then some [] else none := by
    rcases hmark with h | h <;> simp [h, unquoteTail]
  rw [quote]
  simp only [List.cons_append, List.append_assoc, List.nil_append]
  rw [unquote, if_pos (show _ ∨ _ from hmark), unquoteTail_flatMap hmark, hend]
  split <;> simp

/-- What is written between quotes is read back as it was. -/
theorem unquote_quote (s : List Char) : unquote (quote s) = some s := by
  simpa using unquote_quote_append s []

/-- A text cannot be quoted in a way that looks like another quoted text with something behind it. -/
theorem quote_append_inj {s t x y : List Char} (h : quote s ++ x = quote t ++ y) : s = t ∧ x = y := by
  -- Of two quoted texts none is the front of the other, as it could not be read back.
  have hnil {s t z : List Char} (h : quote t = quote s ++ z) : z = [] := by
    by_contra hz
    have hread := unquote_quote t
    rw [h, unquote_quote_append, if_neg hz] at hread
    cases hread
  have hst : quote s = quote t := by
    rcases List.append_eq_append_iff.mp h with ⟨z, ht, -⟩ | ⟨z, hs, -⟩
    · rw [ht, hnil ht, List.append_nil]
    · rw [hs, hnil hs, List.append_nil]
  refine ⟨?_, ?_⟩
  · have hread := unquote_quote s
    rw [hst, unquote_quote] at hread
    exact (Option.some.inj hread).symm
  · rw [hst] at h
    exact List.append_cancel_left h

end Text

end Sdp
