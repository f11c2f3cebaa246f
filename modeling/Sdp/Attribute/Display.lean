import Sdp.Attribute.Basic
import Sdp.Text.Quoted

/-!
# Attributes as terms

A term spells out a value on one printable line: records with named fields, members of an
enumeration with their word, lists in parentheses, texts between quotes.
-/

namespace Sdp

/-- A value spelled out for a reader. -/
inductive Term where
  | none
  | truth (b : Bool)
  | number (n : Nat)
  | text (s : String)
  | member (type name word : String)
  | literal (type : String) (s : String)
  | list (items : List Term)
  | record (type : String) (fields : List (String × Term))

namespace Term

/-- The text of an item that starts a list, and of those behind it, each after a comma. -/
def separated : List (List Char) → List Char
  | [] => []
  | t :: rest => t ++ rest.flatMap (',' :: ' ' :: ·)

mutual
def render : Term → List Char
  | none => "None".toList
  | truth b => (if b then "True" else "False").toList
  | number n => Numeral.decimal n
  | text s => Text.quote s.toList
  | member type name word =>
    '<' :: type.toList ++ '.' :: name.toList ++ ':' :: ' ' :: Text.quote word.toList ++ ['>']
  | literal type s => type.toList ++ '(' :: Text.quote s.toList ++ [')']
  | list items =>
    match renderItems items with
    | [t] => '(' :: t ++ [',', ')']
    | ts => '(' :: separated ts ++ [')']
  | record type fields => type.toList ++ '(' :: separated (renderFields fields) ++ [')']

def renderItems : List Term → List (List Char)
  | [] => []
  | t :: rest => t.render :: renderItems rest

def renderFields : List (String × Term) → List (List Char)
  | [] => []
  | (name, t) :: rest => (name.toList ++ '=' :: t.render) :: renderFields rest
end

/-- A value that may be absent. -/
def optional {α : Type} (term : α → Term) : Option α → Term
  | .none => none
  | .some a => term a

end Term

open Term (optional)

def Family.term (f : Family) : Term :=
  .member "AddrType" f.word f.word

def Address.term (a : Address) : Term :=
  .literal (match a.family with | .ip4 => "IPv4Address" | .ip6 => "IPv6Address") (.ofList a.canonical)

def Transport.term (t : Transport) : Term :=
  .member "CandidateTransport" (match t with | udp => "UDP" | tcp => "TCP") t.word

def CandidateType.term (t : CandidateType) : Term :=
  .member "CandidateType"
    (match t with
      | host => "HOST"
      | serverReflexive => "SRFLX"
      | peerReflexive => "PRFLX"
      | relayed => "RELAY")
    t.word

def TcpType.term (t : TcpType) : Term :=
  .member "CandidateTcpType"
    (match t with
      | active => "ACTIVE"
      | passive => "PASSIVE"
      | simultaneous => "SIMULTANEOUS")
    t.word

def Direction.term (d : Direction) : Term :=
  .member "Direction"
    (match d with
      | recvonly => "RECVONLY"
      | sendonly => "SENDONLY"
      | sendrecv => "SENDRECV")
    d.word

def Semantics.term (s : Semantics) : Term :=
  .member "GroupSemantics"
    (match s with
      | lipSynchronization => "LIP_SYNCHRONIZATION"
      | flowIdentification => "FLOW_IDENTIFICATION"
      | singleReservationFlow => "SINGLE_RESERVATION_FLOW"
      | alternateNetworkAddressType => "ALTERNATE_NETWORK_ADDRESS_TYPE"
      | forwardErrorCorrection => "FORWARD_ERROR_CORRECTION"
      | decodingDependency => "DECODING_DEPENDENCY"
      | bundle => "BUNDLE")
    s.word

def SetupRole.term (r : SetupRole) : Term :=
  .member "SetupRole"
    (match r with
      | active => "ACTIVE"
      | actpass => "ACTPASS"
      | holdconn => "HOLDCONN"
      | passive => "PASSIVE")
    r.word

def Candidate.term (c : Candidate) : Term :=
  .record "Candidate"
    [("foundation", .text c.foundation),
      ("component", .number c.component),
      ("transport", c.transport.term),
      ("priority", .number c.priority),
      ("address", c.address.term),
      ("port", .number c.port),
      ("candidate_type", c.type.term),
      ("remote_address", optional Address.term c.remoteAddress),
      ("remote_port", optional .number c.remotePort),
      ("tcp_type", optional TcpType.term c.tcpType)]

def StreamId.term (s : StreamId) : Term :=
  .record "SimulcastId" [("id", .text s.id), ("paused", .truth s.paused)]

/-- The streams of one side, each a record of its alternatives. -/
def Simulcast.streamsTerm (streams : List (List StreamId)) : Term :=
  .list <| streams.map fun ids =>
    .record "SimulcastAlternatives" [("ids", .list (ids.map StreamId.term))]

namespace Attribute

/-- What the attribute carries, as a term. -/
def valueTerm : Attribute → Term
  | flag _ => .none
  | label _ s => .text s
  | candidate c => c.term
  | extmap e =>
    .record "ExtMap"
      [("id", .number e.id), ("direction", optional Direction.term e.direction), ("url", .text e.url)]
  | fingerprint f =>
    .record "Fingerprint" [("hash_algorithm", .text f.hash), ("fingerprint", .text f.value)]
  | fmtp f =>
    .record "Fmtp" [("payload_type", .number f.payloadType), ("tokens", .list (f.pieces.map .text))]
  | group g =>
    .record "Group" [("semantics", g.semantics.term), ("tags", .list (g.tags.map .text))]
  | iceOptions options => .list (options.map .text)
  | msid m => .record "Msid" [("id", .text m.id), ("appdata", optional .text m.appdata)]
  | rtcp r =>
    .record "Rtcp"
      [("port", .number r.port),
        ("net_type", .member "NetType" "INTERNET" Network.internet),
        ("addr_type", r.family.term),
        ("unicast_address", r.address.term)]
  | rtcpFb r =>
    .record "RtcpFb" [("payload_type", .number r.payloadType), ("feedback_type", .text r.feedback)]
  | rtpmap r =>
    .record "RtpMap"
      [("payload_type", .number r.payloadType),
        ("codec_name", .text r.codec),
        ("frequency", optional .number r.frequency),
        ("channels", optional .number r.channels)]
  | sctpmap s => .record "SctpMap" [("port", .number s.port), ("channels", .number s.channels)]
  | sctpPort port => .number port
  | setup role => role.term
  | simulcast s =>
    .record "Simulcast"
      [("send", Simulcast.streamsTerm s.send), ("receive", Simulcast.streamsTerm s.receive)]
  | ssrc s =>
    .record "Ssrc"
      [("id", .number s.id),
        ("attribute", optional .text s.name),
        ("value", optional .text s.value)]

/-- The attribute on one line: the title of its kind, and what it carries. -/
def display (a : Attribute) : List Char :=
  "Attribute(kind=".toList ++ a.kind.title.toList ++ ", value=".toList ++ a.valueTerm.render ++ [')']

end Attribute

end Sdp
