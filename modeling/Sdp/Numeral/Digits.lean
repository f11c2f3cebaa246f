/-!
# Digits

Natural numbers written in a base, most significant digit first, and read back. Main statement:
`ofDigits_digits`, the digits of a number have its value.
-/

namespace Sdp.Numeral

/-- The digits of `n` in `base`; zero has the one digit 0. -/
def digits (base n : Nat) : List Nat :=
  if n < base ∨ base < 2 then [n] else digits base (n / base) ++ [n % base]
termination_by n
decreasing_by exact Nat.div_lt_self (by omega) (by omega)

/-- The last `width` digits of `n` in `base`, with zeros in front where there are fewer. -/
def fixedDigits (base : Nat) : Nat → Nat → List Nat
  | 0, _ => []
  | width + 1, n => fixedDigits base width (n / base) ++ [n % base]

/-- The value of digits in `base`. -/
def ofDigits (base : Nat) (ds : List Nat) : Nat :=
  ds.foldl (fun value d => value * base + d) 0

theorem ofDigits_digits {base : Nat} (h : 2 ≤ base) (n : Nat) :
    ofDigits base (digits base n) = n := by
  induction n using Nat.strongRecOn with
  | ind n ih =>
    unfold digits
    split
    · simp [ofDigits]
    · next hn =>
      have hlt : n / base < n := Nat.div_lt_self (by omega) (by omega)
      have := ih _ hlt
      simp only [ofDigits, List.foldl_append, List.foldl_cons, List.foldl_nil] at this ⊢
      rw [this]
      exact Nat.div_add_mod' n base

theorem lt_of_mem_digits {base : Nat} (h : 2 ≤ base) {n d : Nat} (hd : d ∈ digits base n) : d < base := by
  induction n using Nat.strongRecOn with
  | ind n ih =>
    unfold digits at hd
    split at hd
    · next hn =>
      rw [List.mem_singleton] at hd
      omega
    · next hn =>
      rcases List.mem_append.mp hd with hd | hd
      · exact ih _ (Nat.div_lt_self (by omega) (by omega)) hd
      · rw [List.mem_singleton] at hd
        exact hd ▸ Nat.mod_lt n (by omega)

/-- The power of `base` to an exponent that is not negative; one for every other exponent. -/
def scale (base : Nat) (e : Int) : Nat :=
  Nat.pow base e.toNat

/-- The character of a digit below sixteen, in lower case. -/
def digitChar (d : Nat) : Char :=
  if d < 10 then Char.ofNat (0x30 + d) else Char.ofNat (0x57 + d)

/-- The value of an ASCII decimal digit. -/
def decimalDigit? (c : Char) : Option Nat :=
  if '0' ≤ c ∧ c ≤ '9' then some (c.toNat - 0x30) else none

/-- The value of an ASCII hexadecimal digit in either case. -/
def hexDigit? (c : Char) : Option Nat :=
  if '0' ≤ c ∧ c ≤ '9' then some (c.toNat - 0x30)
  else if 'a' ≤ c ∧ c ≤ 'f' then some (c.toNat - 0x57)
  else if 'A' ≤ c ∧ c ≤ 'F' then some (c.toNat - 0x37)
  else none

/-- A number in decimal digits. -/
def decimal (n : Nat) : List Char :=
  (digits 10 n).map digitChar

/-- A number in hexadecimal digits. -/
def hex (n : Nat) : List Char :=
  (digits 16 n).map digitChar

/-- A number in exactly `width` hexadecimal digits. -/
def hexFixed (width n : Nat) : List Char :=
  (fixedDigits 16 width n).map digitChar

/-- An integer in decimal digits, with a minus sign if it is negative. -/
def signedDecimal : Int → List Char
  | .ofNat n => decimal n
  | .negSucc n => '-' :: decimal (n + 1)

/-- One or more ASCII decimal digits. -/
def decimalDigits? (s : List Char) : Option (List Nat) :=
  if s.isEmpty then none else s.mapM decimalDigit?

/-- The same behind an optional plus sign. -/
def unsignedDigits? : List Char → Option (List Nat)
  | '+' :: rest => decimalDigits? rest
  | s => decimalDigits? s

/-- The value of a text of one or more ASCII decimal digits. -/
def readDecimal? (s : List Char) : Option Nat :=
  (decimalDigits? s).map (ofDigits 10)

/-- The value of a text of one or more hexadecimal digits. -/
def readHex? (s : List Char) : Option Nat :=
  if s.isEmpty then none else (s.mapM hexDigit?).map (ofDigits 16)

end Sdp.Numeral
