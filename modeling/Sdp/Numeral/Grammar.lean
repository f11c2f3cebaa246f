import Sdp.Numeral.Digits

/-!
# What numerals look like

The texts of a number, told without a reader: one or more digits with its value, which a plus sign or
zeros may stand in front of.
-/

namespace Sdp.Numeral

/-- One or more digits of a base up to sixteen, in lower case, with the value `n`. -/
def Denotes (base n : Nat) (s : List Char) : Prop :=
  ∃ ds, ds ≠ [] ∧ (∀ d ∈ ds, d < base) ∧ ofDigits base ds = n ∧ ds.map digitChar = s

/-- The same without zeros in front. -/
def IsCanonical (base n : Nat) (s : List Char) : Prop :=
  Denotes base n s ∧ (s.head? = some '0' → s = ['0'])

/-- Decimal digits with the value `n`, behind a plus sign or not. -/
def IsUnsigned (n : Nat) (s : List Char) : Prop :=
  Denotes 10 n s ∨ ∃ digits, s = '+' :: digits ∧ Denotes 10 n digits

end Sdp.Numeral
