import Sdp.Address.Network
import Sdp.Attribute.Kind

/-!
# Defects

Every way in which the text of an attribute can be refused, and its wording. Two defects are
*unsupported*: the text may be well formed, but its keyword or the name of an extension is unknown.
All others are malformed text.
-/

namespace Sdp

/-- The numbers that occur in attributes. -/
inductive Quantity where
  | candidateComponent
  | candidatePriority
  | candidatePort
  | candidateRemotePort
  | extmapId
  | fmtpPayloadType
  | rtcpPort
  | rtcpFbPayloadType
  | rtpmapPayloadType
  | rtpmapFrequency
  | rtpmapChannels
  | sctpmapPort
  | sctpmapChannels
  | sctpPort
  | ssrcId
deriving DecidableEq, Repr

namespace Quantity

def name : Quantity → String
  | candidateComponent => "Candidate component"
  | candidatePriority => "Candidate priority"
  | candidatePort => "ICE candidate port"
  | candidateRemotePort => "ICE candidate rport"
  | extmapId => "Extmap id"
  | fmtpPayloadType => "Fmtp payload type"
  | rtcpPort => "Rtcp port"
  | rtcpFbPayloadType => "Rtcp-Fb payload type"
  | rtpmapPayloadType => "Rtpmap payload type"
  | rtpmapFrequency => "Rtpmap frequency"
  | rtpmapChannels => "Rtpmap channels"
  | sctpmapPort => "Sctpmap port"
  | sctpmapChannels => "Sctpmap channels"
  | sctpPort => "Sctp-Port port"
  | ssrcId => "Ssrc id"

/-- Whether the number is a port, which has sixteen bits. -/
def isPort : Quantity → Bool
  | candidatePort | candidateRemotePort | rtcpPort | sctpmapPort | sctpPort => true
  | _ => false

/-- The least number that is out of range: a priority has sixty-four bits, every other number
thirty-two. -/
def bound : Quantity → Nat
  | candidatePriority => 0x10000000000000000
  | _ => 0x100000000

end Quantity

/-- What is wrong with the text of a number. -/
inductive NumberDefect where
  | notUnsigned
  | outOfRange
  | notPort
deriving DecidableEq, Repr

/-- The values whose number of tokens can be wrong. -/
inductive Shape where
  | candidate
  | extmap
  | fingerprint
  | fmtp
  | group
  | msid
  | rtcp
  | rtcpFb
  | rtpmap
  | rtpmapCodec
  | sctpmap
  | simulcast
  | simulcastIds
  | ssrc
deriving DecidableEq, Repr

def Shape.message : Shape → String
  | candidate => "Candidate needs to have minimum eight tokens"
  | extmap => "Extmap needs to have two tokens"
  | fingerprint => "Fingerprint needs to have two tokens"
  | fmtp => "Fmtp needs to have two tokens"
  | group => "Group attribute is missing semantics token"
  | msid => "Msid attribute is missing msid-id token"
  | rtcp => "Rtcp needs to have four tokens"
  | rtcpFb => "Rtcp-Fb needs a payload type and a feedback type"
  | rtpmap => "Rtpmap needs to have two tokens"
  | rtpmapCodec => "Rtpmap codec token can max 3 subtokens"
  | sctpmap => "Sctpmap needs to have three tokens"
  | simulcast => "Simulcast attribute is missing send/recv value"
  | simulcastIds => "Simulcast attribute is missing id list"
  | ssrc => "Ssrc attribute is missing ssrc-id value"

/-- The words that have to be one of a few. -/
inductive Keyword where
  | transport
  | candidateTyp
  | candidateType
  | tcpType
  | extmapDirection
  | groupSemantics
  | sctpmapProtocol
  | setupRole
  | simulcastDirection
deriving DecidableEq, Repr

def Keyword.message : Keyword → String
  | transport => "Unknown candidate transport value"
  | candidateTyp => "Candidate attribute token must be 'typ'"
  | candidateType => "Unknown candidate type value"
  | tcpType => "Unknown tcptype value in candidate line"
  | extmapDirection => "Unsupported direction in extmap value"
  | groupSemantics => "Unsupported group semantics"
  | sctpmapProtocol => "Unsupported sctpmap type token"
  | setupRole => "Unsupported setup value"
  | simulcastDirection => "Unsupported send/recv value in simulcast attribute"

inductive Defect where
  | unknownAttribute
  | unknownExtension
  | flagWithValue (f : Flag)
  | number (q : Quantity) (d : NumberDefect)
  | tokens (s : Shape)
  | keyword (k : Keyword)
  | network (r : Network.Refusal)
deriving DecidableEq, Repr

namespace Defect

/-- Whether the text is only unknown, and not malformed. -/
def isUnsupported : Defect → Bool
  | unknownAttribute | unknownExtension => true
  | _ => false

/-- Network words and addresses in an attribute are part of its text. -/
def errorClass : Defect → ErrorClass
  | unknownAttribute | unknownExtension => .unsupported
  | flagWithValue _ | number _ _ | tokens _ | keyword _ | network _ => .malformed

def message : Defect → String
  | unknownAttribute => "unsupported attribute value"
  | unknownExtension => "Unknown candidate extension name"
  | flagWithValue f => (Kind.flag f).title ++ " attribute is not allowed to have a value"
  | number q .notUnsigned => q.name ++ " must be an unsigned integer"
  | number q .outOfRange => q.name ++ " is out of range"
  | number q .notPort => q.name ++ " can only be a 16bit number"
  | tokens s => s.message
  | keyword k => k.message
  | network r => r.message

end Defect

/-- Reading a part of an attribute. -/
abbrev Reading (α : Type) := Except (Fault Defect) α

end Sdp
