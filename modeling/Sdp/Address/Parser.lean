import Sdp.Address.Basic
import Sdp.Text.Split

/-!
# Reading addresses

An address of version 6 is eight groups, or fewer with `::` in the place of one or more zero groups;
its last two groups may be written as an address of version 4.
-/

namespace Sdp.Address

open Numeral (readDecimal? readHex?)

/-- An octet in decimal digits without leading zeros. -/
def readOctet? (s : List Char) : Option UInt8 :=
  if s.length ≤ 3 ∧ (s.head? ≠ some '0' ∨ s = ['0']) then
    (readDecimal? s).bind fun n => if n < 256 then some (.ofNat n) else none
  else none

/-- Four octets with a point between neighbours. -/
def readV4? (s : List Char) : Option (UInt8 × UInt8 × UInt8 × UInt8) :=
  match s.splitOn '.' with
  | [a, b, c, d] => do
    return (← readOctet? a, ← readOctet? b, ← readOctet? c, ← readOctet? d)
  | _ => none

/-- A group of one to four hexadecimal digits. -/
def readGroup? (s : List Char) : Option UInt16 :=
  if s.length ≤ 4 then (readHex? s).map .ofNat else none

/-- The last piece of an address: a group, or two groups as four octets. -/
def readTail? (s : List Char) : Option (List UInt16) :=
  if '.' ∈ s then
    (readV4? s).map fun (a, b, c, d) =>
      [.ofNat (a.toNat * 256 + b.toNat), .ofNat (c.toNat * 256 + d.toNat)]
  else (readGroup? s).map ([·])

/-- Groups with a colon between neighbours, the last by `last`. -/
def readPieces? (last : List Char → Option (List UInt16)) :
    List (List Char) → Option (List UInt16)
  | [] => some []
  | [s] => last s
  | s :: rest => do return (← readGroup? s) :: (← readPieces? last rest)

/-- The groups on one side of `::`; there may be none. -/
def readSide? (last : List Char → Option (List UInt16)) (s : List Char) : Option (List UInt16) :=
  readPieces? last (if s.isEmpty then [] else s.splitOn ':')

/-- The groups of an address. -/
def readGroups? (s : List Char) : Option (List UInt16) :=
  match Text.cutPair ':' s with
  | none => readSide? readTail? s
  | some (left, right) => do
    let high ← readSide? (fun p => (readGroup? p).map ([·])) left
    let low ← readSide? readTail? right
    if high.length + low.length < 8 then
      return high ++ List.replicate (8 - high.length - low.length) 0 ++ low
    else none

/-- Reads an address of either version. -/
def read? (s : List Char) : Option Address :=
  match readV4? s with
  | some (a, b, c, d) => some (.v4 a b c d)
  | none =>
    (readGroups? s).bind fun groups =>
      if h : groups.length = 8 then some (.v6 groups h) else none

end Sdp.Address
