import Sdp.Numeral.Digits

/-!
# Binary floating-point numbers

A number of sixty-four bits is kept as its bit pattern: one bit of sign, eleven of exponent and
fifty-two of fraction. A quotient of naturals becomes the nearest number, and the even one of two
equally near.
-/

namespace Sdp.Numeral

structure Binary64 where
  bits : UInt64
deriving DecidableEq, Repr

namespace Binary64

/-- What a bit pattern stands for; a finite number is `m * 2 ^ q` with a sign. -/
inductive View where
  | nan
  | infinite (negative : Bool)
  | finite (negative : Bool) (m : Nat) (q : Int)
deriving DecidableEq, Repr

/-- The pattern of the sign alone. -/
def signBit : Nat := 0x8000000000000000

/-- The bit in front of a fraction, which is one and not kept except in the smallest numbers. -/
def hiddenBit : Nat := 0x10000000000000

/-- The pattern of infinity. -/
def infinityBits : Nat := 2047 * hiddenBit

def view (x : Binary64) : View :=
  let negative := x.bits.toNat / signBit = 1
  let exponent : Nat := x.bits.toNat / hiddenBit % 2048
  let fraction : Nat := x.bits.toNat % hiddenBit
  if exponent = 2047 then (if fraction = 0 then .infinite negative else .nan)
  else if exponent = 0 then .finite negative fraction (-1074)
  else .finite negative (hiddenBit + fraction) (exponent - 1075)

/-- The number whose magnitude has the pattern `magnitude`; patterns beyond infinity are infinity. -/
def ofMagnitude (negative : Bool) (magnitude : Nat) : Binary64 :=
  ⟨.ofNat (min magnitude infinityBits + if negative then signBit else 0)⟩

def infinity (negative : Bool) : Binary64 :=
  ofMagnitude negative infinityBits

def nan : Binary64 :=
  ⟨.ofNat (infinityBits + hiddenBit / 2)⟩

/-- The quotient to the nearest natural, and to the even one of two. -/
def roundEven (num den : Nat) : Nat :=
  let q := num / den
  let r := num % den
  if 2 * r > den ∨ 2 * r = den ∧ q % 2 = 1 then q + 1 else q

/-- The number nearest to `num / den`. The unit of the last place is chosen so that the rounded
quotient has fifty-three bits, but is never below the smallest one. -/
def ofRatio (negative : Bool) (num den : Nat) : Binary64 :=
  if num = 0 then ofMagnitude negative 0
  else
    let guess : Int := (num.log2 : Int) - den.log2 - 52
    let fits := num * scale 2 (-guess) / (den * scale 2 guess) ≥ hiddenBit
    let q : Int := max (-1074) (if fits then guess else guess - 1)
    let m := roundEven (num * scale 2 (-q)) (den * scale 2 q)
    ofMagnitude negative ((q + 1074).toNat * hiddenBit + m)

/-- The number nearest to `m * 10 ^ e`. Beyond three hundred and thirty places every number rounds
to infinity or to zero, so no larger power is computed. -/
def ofDecimal (negative : Bool) (m : Nat) (e : Int) : Binary64 :=
  let places : Int := (digits 10 m).length + e
  if m = 0 ∨ places < -330 then ofMagnitude negative 0
  else if places > 330 then infinity negative
  else ofRatio negative (m * scale 10 e) (scale 10 (-e))

end Binary64

end Sdp.Numeral
