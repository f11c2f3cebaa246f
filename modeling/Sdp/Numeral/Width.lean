import Sdp.Numeral.Literal

/-!
# Widths

Only so many digits can be converted to an integer. A reader that may meet more counts them before it
converts any, and does not count zeros in front.
-/

namespace Sdp.Numeral

/-- Digits without zeros in front; zero keeps one digit. -/
def significant (ds : List Nat) : List Nat :=
  match ds.dropWhile (· == 0) with
  | [] => [0]
  | d :: rest => d :: rest

/-- The value of decimal digits that are not too many for an integer. -/
def convert (ds : List Nat) (_ : ds.length ≤ maxIntegerDigits) : Nat :=
  ofDigits 10 ds

/-- The most digits that a reader converts, which an integer may have. -/
structure Width where
  most : Nat
  most_le : most ≤ maxIntegerDigits := by decide

/-- The value of decimal digits. None if they are wider, zeros in front aside. -/
def Width.value? (w : Width) (ds : List Nat) : Option Nat :=
  if h : (significant ds).length ≤ w.most then
    some (convert (significant ds) (Nat.le_trans h w.most_le))
  else none

end Sdp.Numeral
