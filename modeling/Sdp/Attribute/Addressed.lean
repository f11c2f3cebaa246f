import Sdp.Attribute.Grammar
import Sdp.Attribute.Parser

/-!
# Addresses in attributes

Where an address stands among the tokens of a candidate and of a control port, and values that are in
order but for the text in such a place.
-/

namespace Sdp

open Text (words)

/-- The number of a token that has to be an address: the fifth, or one behind the name of a remote
address. -/
inductive Candidate.AddressAt (tokens : List (List Char)) : Nat → Prop where
  | own : AddressAt tokens 4
  | remote {i name} (hname : tokens[8 + 2 * i]? = some name)
      (h : Extension.remoteAddress.IsNamed name) : AddressAt tokens (9 + 2 * i)

/-- A candidate that is read, with `t` in the place of one of its addresses. -/
def Candidate.Addressed (t value : List Char) : Prop :=
  ∃ candidate i, (∃ a, Attribute.read .candidate candidate = .ok a) ∧ AddressAt (words candidate) i ∧
    i < (words candidate).length ∧ words value = (words candidate).set i t

/-- A control port of the family that is read, with `t` in the place of its address. -/
def Rtcp.Addressed (f : Family) (t value : List Char) : Prop :=
  ∃ rtcp r, Attribute.read .rtcp rtcp = .ok (.rtcp r) ∧ r.family = f ∧ words value = (words rtcp).set 3 t

end Sdp
