import Sdp.Address.Network
import Sdp.Attribute.Kind

/-!
# Attributes

The values that attributes carry. Every attribute has a kind, and the kind decides what it carries.
-/

namespace Sdp

inductive Transport where
  | udp
  | tcp
deriving DecidableEq, Repr

namespace Transport

def all : List Transport := [.udp, .tcp]

def word : Transport → String
  | udp => "udp"
  | tcp => "tcp"

end Transport

/-- How a candidate was found. -/
inductive CandidateType where
  | host
  | serverReflexive
  | peerReflexive
  | relayed
deriving DecidableEq, Repr

namespace CandidateType

def all : List CandidateType := [.host, .serverReflexive, .peerReflexive, .relayed]

def word : CandidateType → String
  | host => "host"
  | serverReflexive => "srflx"
  | peerReflexive => "prflx"
  | relayed => "relay"

end CandidateType

/-- Which side opens the connection of a TCP candidate. -/
inductive TcpType where
  | active
  | passive
  | simultaneous
deriving DecidableEq, Repr

namespace TcpType

def all : List TcpType := [.active, .passive, .simultaneous]

def word : TcpType → String
  | active => "active"
  | passive => "passive"
  | simultaneous => "so"

end TcpType

inductive Direction where
  | recvonly
  | sendonly
  | sendrecv
deriving DecidableEq, Repr

namespace Direction

def all : List Direction := [.recvonly, .sendonly, .sendrecv]

def word : Direction → String
  | recvonly => "recvonly"
  | sendonly => "sendonly"
  | sendrecv => "sendrecv"

end Direction

/-- What the members of a group have in common. -/
inductive Semantics where
  | lipSynchronization
  | flowIdentification
  | singleReservationFlow
  | alternateNetworkAddressType
  | forwardErrorCorrection
  | decodingDependency
  | bundle
deriving DecidableEq, Repr

namespace Semantics

def all : List Semantics :=
  [.lipSynchronization, .flowIdentification, .singleReservationFlow, .alternateNetworkAddressType,
    .forwardErrorCorrection, .decodingDependency, .bundle]

def word : Semantics → String
  | lipSynchronization => "LS"
  | flowIdentification => "FID"
  | singleReservationFlow => "SRF"
  | alternateNetworkAddressType => "ANAT"
  | forwardErrorCorrection => "FEC"
  | decodingDependency => "DDP"
  | bundle => "BUNDLE"

end Semantics

/-- Who sets up the connection. -/
inductive SetupRole where
  | active
  | actpass
  | holdconn
  | passive
deriving DecidableEq, Repr

namespace SetupRole

def all : List SetupRole := [.active, .actpass, .holdconn, .passive]

def word : SetupRole → String
  | active => "active"
  | actpass => "actpass"
  | holdconn => "holdconn"
  | passive => "passive"

end SetupRole

/-- A transport address at which a peer may be reached. -/
structure Candidate where
  foundation : String
  component : Nat
  transport : Transport
  priority : Nat
  address : Address
  port : Nat
  type : CandidateType
  remoteAddress : Option Address := none
  remotePort : Option Nat := none
  tcpType : Option TcpType := none
deriving DecidableEq, Repr

/-- A header extension under a local number. -/
structure Extmap where
  id : Nat
  direction : Option Direction
  url : String
deriving DecidableEq, Repr

structure Fingerprint where
  hash : String
  value : String
deriving DecidableEq, Repr

/-- Parameters of a format: the pieces of the whole value between semicolons. -/
structure Fmtp where
  payloadType : Nat
  pieces : List String
deriving DecidableEq, Repr

structure Group where
  semantics : Semantics
  tags : List String
deriving DecidableEq, Repr

structure Msid where
  id : String
  appdata : Option String
deriving DecidableEq, Repr

/-- Where control packets go. -/
structure Rtcp where
  port : Nat
  family : Family
  address : Address
deriving DecidableEq, Repr

structure RtcpFb where
  payloadType : Nat
  feedback : String
deriving DecidableEq, Repr

structure Rtpmap where
  payloadType : Nat
  codec : String
  frequency : Option Nat
  channels : Option Nat
deriving DecidableEq, Repr

structure Sctpmap where
  port : Nat
  channels : Nat
deriving DecidableEq, Repr

structure StreamId where
  id : String
  paused : Bool
deriving DecidableEq, Repr

/-- The streams sent and received; each stream is a list of alternatives. -/
structure Simulcast where
  send : List (List StreamId)
  receive : List (List StreamId)
deriving DecidableEq, Repr

/-- A source of packets, and a property of it that a name or a name and a value state. -/
structure Ssrc where
  id : Nat
  name : Option String
  value : Option String
deriving DecidableEq, Repr

inductive Attribute where
  | flag (f : Flag)
  | label (l : Label) (value : String)
  | candidate (value : Candidate)
  | extmap (value : Extmap)
  | fingerprint (value : Fingerprint)
  | fmtp (value : Fmtp)
  | group (value : Group)
  | iceOptions (options : List String)
  | msid (value : Msid)
  | rtcp (value : Rtcp)
  | rtcpFb (value : RtcpFb)
  | rtpmap (value : Rtpmap)
  | sctpmap (value : Sctpmap)
  | sctpPort (port : Nat)
  | setup (role : SetupRole)
  | simulcast (value : Simulcast)
  | ssrc (value : Ssrc)
deriving DecidableEq, Repr

def Attribute.kind : Attribute → Kind
  | flag f => .flag f
  | label l _ => .label l
  | candidate _ => .candidate
  | extmap _ => .extmap
  | fingerprint _ => .fingerprint
  | fmtp _ => .fmtp
  | group _ => .group
  | iceOptions _ => .iceOptions
  | msid _ => .msid
  | rtcp _ => .rtcp
  | rtcpFb _ => .rtcpFb
  | rtpmap _ => .rtpmap
  | sctpmap _ => .sctpmap
  | sctpPort _ => .sctpPort
  | setup _ => .setup
  | simulcast _ => .simulcast
  | ssrc _ => .ssrc

end Sdp
