import Sdp.Numeral.Digits

/-!
# Internet addresses

Addresses of version 4 are four octets, addresses of version 6 eight groups of sixteen bits. The
canonical text of a group has no leading zeros, and the first of the longest runs of two or more
zero groups is left out.
-/

namespace Sdp

/-- The version of an address. -/
inductive Family where
  | ip4
  | ip6
deriving DecidableEq, Repr

inductive Address where
  | v4 (a b c d : UInt8)
  | v6 (groups : List UInt16) (length_groups : groups.length = 8)
deriving DecidableEq, Repr

namespace Address

def family : Address → Family
  | v4 .. => .ip4
  | v6 .. => .ip6

/-- Start and length of the first longest run of zero groups. -/
def zeroRun (groups : List UInt16) : Nat × Nat :=
  (List.range groups.length).foldl
    (fun best i =>
      let length := ((groups.drop i).takeWhile (· == 0)).length
      if length > best.2 then (i, length) else best)
    (0, 0)

/-- Groups with a colon between neighbours. -/
def joinGroups (groups : List UInt16) : List Char :=
  [':'].intercalate (groups.map fun g => Numeral.hex g.toNat)

/-- The canonical text. -/
def canonical : Address → List Char
  | v4 a b c d => ['.'].intercalate ([a, b, c, d].map fun n => Numeral.decimal n.toNat)
  | v6 groups _ =>
    let (start, length) := zeroRun groups
    if length < 2 then joinGroups groups
    else joinGroups (groups.take start) ++ [':', ':'] ++ joinGroups (groups.drop (start + length))

end Address

end Sdp
