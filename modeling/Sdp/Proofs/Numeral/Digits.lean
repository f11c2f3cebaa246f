import Mathlib.Data.List.Basic
import Sdp.Numeral.Digits
import Sdp.Text.Blank

/-!
# Numbers survive their digits

Main statements: `readDecimal?_decimal` and `readHex?_hex`, a number that has been written is read
as itself.
-/

namespace Sdp.Numeral

/-! ## Digits -/

theorem digits_ne_nil (base n : Nat) : digits base n ≠ [] := by
  unfold digits
  split <;> simp

/-- A number below a power of the base has no more digits than the exponent says. -/
theorem length_digits_le {base k n : Nat} (hn : n < Nat.pow base (k + 1)) :
    (digits base n).length ≤ k + 1 := by
  induction k generalizing n with
  | zero =>
      have hsingle : digits base n = [n] := by
        rw [digits, if_pos (Or.inl (by simpa [Nat.pow] using hn))]
      simp [hsingle]
  | succ k ih =>
      unfold digits
      split
      · simp
      · have hdiv : n / base < Nat.pow base (k + 1) := Nat.div_lt_of_lt_mul (Nat.mul_comm _ base ▸ hn)
        rw [List.length_append, List.length_singleton]
        exact Nat.succ_le_succ (ih hdiv)

/-- Only zero starts with the digit 0. -/
theorem head?_digits_ne_zero {base : Nat} (hbase : 2 ≤ base) {n : Nat} (hn : n ≠ 0) :
    (digits base n).head? ≠ some 0 := by
  induction n using Nat.strongRecOn with
  | ind n ih =>
    unfold digits
    split
    · simpa using hn
    · next h =>
        have hlt : n / base < n := Nat.div_lt_self (by omega) (by omega)
        have hpos : n / base ≠ 0 := by
          have := Nat.div_pos (Nat.not_lt.mp fun hlt => h (Or.inl hlt)) (by omega)
          omega
        rw [List.head?_append_of_ne_nil _ (digits_ne_nil base _)]
        exact ih _ hlt hpos

/-! ## Characters -/

theorem decimalDigit?_digitChar : ∀ d < 10, decimalDigit? (digitChar d) = some d := by
  decide

theorem hexDigit?_digitChar : ∀ d < 16, hexDigit? (digitChar d) = some d := by
  decide

theorem mapM_digit? {digit? : Char → Option Nat} {ds : List Nat}
    (h : ∀ d ∈ ds, digit? (digitChar d) = some d) : (ds.map digitChar).mapM digit? = some ds := by
  induction ds with
  | nil => rfl
  | cons d ds ih =>
      obtain ⟨hd, hds⟩ := List.forall_mem_cons.mp h
      simp [hd, ih hds]

theorem decimal_ne_nil (n : Nat) : decimal n ≠ [] := by
  simpa [decimal] using digits_ne_nil 10 n

theorem hex_ne_nil (n : Nat) : hex n ≠ [] := by
  simpa [hex] using digits_ne_nil 16 n

/-- What holds of every digit holds of every character of a number. -/
theorem forall_mem_decimal {p : Char → Prop} (h : ∀ d < 10, p (digitChar d)) (n : Nat) :
    ∀ c ∈ decimal n, p c := by
  intro c hc
  obtain ⟨d, hd, rfl⟩ := List.mem_map.mp hc
  exact h d (lt_of_mem_digits (by decide) hd)

theorem forall_mem_hex {p : Char → Prop} (h : ∀ d < 16, p (digitChar d)) (n : Nat) :
    ∀ c ∈ hex n, p c := by
  intro c hc
  obtain ⟨d, hd, rfl⟩ := List.mem_map.mp hc
  exact h d (lt_of_mem_digits (by decide) hd)

/-- A mark that stands for no digit does not occur in a number. -/
theorem not_mem_decimal {mark : Char} (h : ∀ d < 10, digitChar d ≠ mark) (n : Nat) : mark ∉ decimal n :=
  fun hc => forall_mem_decimal (p := (· ≠ mark)) h n mark hc rfl

theorem not_mem_hex {mark : Char} (h : ∀ d < 16, digitChar d ≠ mark) (n : Nat) : mark ∉ hex n :=
  fun hc => forall_mem_hex (p := (· ≠ mark)) h n mark hc rfl

/-! ## Numbers -/

theorem readDecimal?_decimal (n : Nat) : readDecimal? (decimal n) = some n := by
  have hdigits : (decimal n).mapM decimalDigit? = some (digits 10 n) :=
    mapM_digit? fun d hd => decimalDigit?_digitChar d (lt_of_mem_digits (by decide) hd)
  have hne : (decimal n).isEmpty = false := List.isEmpty_eq_false_iff.mpr (decimal_ne_nil n)
  rw [readDecimal?, decimalDigits?, hne, if_neg Bool.false_ne_true, hdigits, Option.map_some,
    ofDigits_digits (by decide)]

theorem readHex?_hex (n : Nat) : readHex? (hex n) = some n := by
  have hdigits : (hex n).mapM hexDigit? = some (digits 16 n) :=
    mapM_digit? fun d hd => hexDigit?_digitChar d (lt_of_mem_digits (by decide) hd)
  have hne : (hex n).isEmpty = false := List.isEmpty_eq_false_iff.mpr (hex_ne_nil n)
  rw [readHex?, hne, if_neg Bool.false_ne_true, hdigits, Option.map_some, ofDigits_digits (by decide)]

/-- A number is one word. -/
theorem isWord_decimal (n : Nat) : Text.IsWord (decimal n) :=
  ⟨decimal_ne_nil n, forall_mem_decimal (by decide) n⟩

/-- Only zero starts with the character 0. -/
theorem head?_decimal (n : Nat) : (decimal n).head? ≠ some '0' ∨ decimal n = ['0'] := by
  rcases Nat.eq_zero_or_pos n with rfl | hn
  · right
    rw [decimal, digits, if_pos (Or.inl (by decide))]
    rfl
  · left
    rw [decimal, List.head?_map]
    intro h
    obtain ⟨d, hd, hchar⟩ := Option.map_eq_some_iff.mp h
    have hlt : d < 10 := lt_of_mem_digits (by decide) (List.mem_of_head? hd)
    have hzero : ∀ d < 10, digitChar d = '0' → d = 0 := by decide
    exact head?_digits_ne_zero (by decide) (by omega) (hzero d hlt hchar ▸ hd)

end Sdp.Numeral
