import Sdp.Data.Value
import Sdp.Numeral.Literal
import Sdp.Numeral.Shortest

/-!
# Writing JSON

A value on one line. Characters outside ASCII stand as they are; the quote, the backslash and the
characters below the space are escaped. An integer with too many digits cannot be written.
-/

namespace Sdp.Json

/-- A character as it stands in a JSON string. -/
def escape (c : Char) : List Char :=
  match c with
  | '"' => ['\\', '"']
  | '\\' => ['\\', '\\']
  | '\n' => ['\\', 'n']
  | '\r' => ['\\', 'r']
  | '\t' => ['\\', 't']
  | '\x08' => ['\\', 'b']
  | '\x0C' => ['\\', 'f']
  | c => if c.toNat < 0x20 then '\\' :: 'u' :: Numeral.hexFixed 4 c.toNat else [c]

def layOutText (s : List Char) : List Char :=
  '"' :: s.flatMap escape ++ ['"']

/-- Items with a comma and a space between neighbours. -/
def layOutAll (items : List (List Char)) : List Char :=
  [',', ' '].intercalate items

mutual
/-- The text of a value, however many digits its integers have. -/
def layOut : Value → List Char
  | .null => "null".toList
  | .bool b => (if b then "true" else "false").toList
  | .int n => Numeral.signedDecimal n
  | .real x => x.text
  | .text s => layOutText s.toList
  | .date s => layOutText s.toList
  | .list items => '[' :: layOutAll (layOutItems items) ++ [']']
  | .record fields => '{' :: layOutAll (layOutFields fields) ++ ['}']

def layOutItems : List Value → List (List Char)
  | [] => []
  | v :: rest => layOut v :: layOutItems rest

def layOutFields : List (String × Value) → List (List Char)
  | [] => []
  | (name, v) :: rest => (layOutText name.toList ++ ':' :: ' ' :: layOut v) :: layOutFields rest
end

mutual
/-- No integer in the value has more digits than an integer may have. -/
def fits : Value → Bool
  | .int n => n.natAbs < Nat.pow 10 Numeral.maxIntegerDigits
  | .list items => fitsItems items
  | .record fields => fitsFields fields
  | _ => true

def fitsItems : List Value → Bool
  | [] => true
  | v :: rest => fits v && fitsItems rest

def fitsFields : List (String × Value) → Bool
  | [] => true
  | (_, v) :: rest => fits v && fitsFields rest
end

/-- The text of a value, if it can be written. -/
def print (v : Value) : Option (List Char) :=
  if fits v then some (layOut v) else none

end Sdp.Json
