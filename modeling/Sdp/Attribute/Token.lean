import Sdp.Attribute.Defect
import Sdp.Numeral.Width

/-!
# Tokens of attributes

Reading one token: a number within its bounds, one of a few words, an address.
-/

namespace Sdp

open Text (matchLower)

/-- No number within its bound has more digits. -/
def Quantity.width : Numeral.Width where
  most := 20

/-- The value of a number. A port is read as any other number first, so a text beyond thirty-two bits
is out of range and not merely no port. -/
def Quantity.read (q : Quantity) (s : List Char) : Reading Nat :=
  match Numeral.unsignedDigits? s with
  | none => .error (fault (.number q .notUnsigned) s)
  | some ds =>
    match width.value? ds with
    | none => .error (fault (.number q .outOfRange) s)
    | some n =>
      if q.bound ≤ n then .error (fault (.number q .outOfRange) s)
      else if q.isPort ∧ 0x10000 ≤ n then .error (fault (.number q .notPort) s)
      else .ok n

/-- One of a few words in any letter case. -/
def Keyword.read {α : Type} (k : Keyword) (all : List α) (word : α → String) (s : List Char) :
    Reading α :=
  match matchLower all word s with
  | some a => .ok a
  | none => .error (fault (.keyword k) s)

/-- A fixed word in any letter case. -/
def Keyword.expect (k : Keyword) (word : String) (s : List Char) : Reading Unit :=
  k.read [()] (fun _ => word) s

/-- An address of either family. -/
def readAddress (s : List Char) : Reading Address :=
  widen .network (Network.readAnyAddress s)

end Sdp
