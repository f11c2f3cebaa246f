import Mathlib.Data.List.Forall2
import Sdp.Address.Basic
import Sdp.Numeral.Grammar

/-!
# How addresses are written

The rules for the canonical text of an address, told without a search among its groups.
-/

namespace Sdp.Address

/-- Canonical numerals with a mark between neighbours. -/
def IsJoined (base : Nat) (mark : Char) (numbers : List Nat) (s : List Char) : Prop :=
  ∃ ws, List.Forall₂ (Numeral.IsCanonical base) numbers ws ∧ [mark].intercalate ws = s

/-- From the position `start` on, `length` groups are zero. -/
def ZerosAt (groups : List UInt16) (start length : Nat) : Prop :=
  List.replicate length 0 <+: groups.drop start

/-- Two zero groups or more; there is no longer run of them, and none as long before this one. -/
structure IsLongestRun (groups : List UInt16) (start length : Nat) : Prop where
  zeros : ZerosAt groups start length
  two_le : 2 ≤ length
  longest : ∀ s l, ZerosAt groups s l → l ≤ length
  first : ∀ s, ZerosAt groups s length → start ≤ s

/-- Version 4 is written in decimal and version 6 in hexadecimal numerals, where two colons stand for
the longest run of zero groups. -/
inductive Written : Address → List Char → Prop where
  | v4 {a b c d s} (h : IsJoined 10 '.' [a.toNat, b.toNat, c.toNat, d.toNat] s) : Written (.v4 a b c d) s
  | full {groups h s} (short : ∀ start length, ZerosAt groups start length → length < 2)
      (hs : IsJoined 16 ':' (groups.map UInt16.toNat) s) : Written (.v6 groups h) s
  | compressed {groups h start length high low} (run : IsLongestRun groups start length)
      (hhigh : IsJoined 16 ':' ((groups.take start).map UInt16.toNat) high)
      (hlow : IsJoined 16 ':' ((groups.drop (start + length)).map UInt16.toNat) low) :
      Written (.v6 groups h) (high ++ [':', ':'] ++ low)

end Sdp.Address
