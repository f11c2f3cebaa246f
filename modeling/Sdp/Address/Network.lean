import Sdp.Address.Parser
import Sdp.Fault
import Sdp.Text.Casing

/-!
# Network words

The words that name a network and an address family, and addresses of an expected family.
-/

namespace Sdp

namespace Family

def all : List Family := [.ip4, .ip6]

def word : Family → String
  | .ip4 => "IP4"
  | .ip6 => "IP6"

end Family

namespace Network

/-- Why a network word or an address is refused. -/
inductive Refusal where
  | networkType
  | addressType
  | address
  | family
deriving DecidableEq, Repr

def Refusal.message : Refusal → String
  | .networkType => "nettype needs to be IN"
  | .addressType => "address type needs to be IP4 or IP6"
  | .address => "Failed to parse unicast address attribute"
  | .family => "Failed to parse unicast address attribute. addrtype does not match address."

/-- The only network there is. -/
def internet : String := "IN"

/-- Accepts the word for the internet in any letter case. -/
def readType (s : List Char) : Except (Fault Refusal) Unit :=
  if Text.upper s = internet.toList then .ok () else .error (fault .networkType s)

/-- The family that a word names in any letter case. -/
def readFamily (s : List Char) : Except (Fault Refusal) Family :=
  match Text.matchUpper Family.all Family.word s with
  | some f => .ok f
  | none => .error (fault .addressType s)

/-- An address of the family `f`. -/
def readAddress (f : Family) (s : List Char) : Except (Fault Refusal) Address :=
  match Address.read? s with
  | none => .error (fault .address s)
  | some a => if a.family = f then .ok a else .error (fault .family s)

/-- An address of the family that its text suggests: version 4 if it holds a point. -/
def readAnyAddress (s : List Char) : Except (Fault Refusal) Address :=
  readAddress (if '.' ∈ s then .ip4 else .ip6) s

end Network

end Sdp
