import Sdp.Attribute.Basic
import Sdp.Text.Blank

/-!
# Writing attributes

The canonical text of an attribute: numbers in decimal without leading zeros, words as they are
spelled in the catalogue, addresses in canonical form, and one space between tokens. Reading what
has been written gives the attribute back whenever its texts are such as reading can give.
-/

namespace Sdp

open Text (unwords)
open Numeral (decimal)

/-- A name and its value as two tokens, if there is a value. -/
def namedToken (name : String) (token : Option (List Char)) : List (List Char) :=
  token.toList.flatMap fun t => [name.toList, t]

/-- Writes a candidate; its extensions come in one order. -/
def Candidate.write (c : Candidate) : List Char :=
  unwords <|
    [c.foundation.toList, decimal c.component, c.transport.word.toList, decimal c.priority,
      c.address.canonical, decimal c.port, "typ".toList, c.type.word.toList] ++
    namedToken "raddr" (c.remoteAddress.map Address.canonical) ++
    namedToken "rport" (c.remotePort.map decimal) ++
    namedToken "tcptype" (c.tcpType.map fun t => t.word.toList)

def Extmap.write (e : Extmap) : List Char :=
  let direction := match e.direction with
    | some d => '/' :: d.word.toList
    | none => []
  unwords [decimal e.id ++ direction, e.url.toList]

def Fingerprint.write (f : Fingerprint) : List Char :=
  unwords [f.hash.toList, f.value.toList]

/-- Joins the pieces of the value, of which the payload type is the first word. -/
def Fmtp.write (f : Fmtp) : List Char :=
  [';'].intercalate (f.pieces.map String.toList)

def Group.write (g : Group) : List Char :=
  unwords (g.semantics.word.toList :: g.tags.map String.toList)

def Msid.write (m : Msid) : List Char :=
  unwords (m.id.toList :: m.appdata.toList.map String.toList)

def Rtcp.write (r : Rtcp) : List Char :=
  unwords [decimal r.port, Network.internet.toList, r.family.word.toList, r.address.canonical]

def RtcpFb.write (r : RtcpFb) : List Char :=
  decimal r.payloadType ++ ' ' :: r.feedback.toList

/-- Writes the codec, and behind slashes its numbers. Channels cannot stand without a frequency. -/
def Rtpmap.write (r : Rtpmap) : List Char :=
  let numbers := match r.frequency, r.channels with
    | none, _ => []
    | some f, none => '/' :: decimal f
    | some f, some c => '/' :: decimal f ++ '/' :: decimal c
  unwords [decimal r.payloadType, r.codec.toList ++ numbers]

def Sctpmap.write (s : Sctpmap) : List Char :=
  unwords [decimal s.port, "webrtc-datachannel".toList, decimal s.channels]

def StreamId.write (s : StreamId) : List Char :=
  if s.paused then '~' :: s.id.toList else s.id.toList

namespace Simulcast

/-- Streams with semicolons between them, and commas between the alternatives of each. -/
def writeStreams (streams : List (List StreamId)) : List Char :=
  [';'].intercalate (streams.map fun ids => [','].intercalate (ids.map StreamId.write))

/-- A side and its streams; a side without streams is left out. -/
def writeSide (word : String) (streams : List (List StreamId)) : List (List Char) :=
  if streams.isEmpty then [] else [word.toList, writeStreams streams]

def write (s : Simulcast) : List Char :=
  unwords (writeSide "send" s.send ++ writeSide "recv" s.receive)

end Simulcast

/-- Writes a source, and behind it the name and maybe the value of its property. -/
def Ssrc.write (s : Ssrc) : List Char :=
  let property := match s.name, s.value with
    | none, _ => []
    | some name, none => [name.toList]
    | some name, some value => [name.toList ++ ':' :: value.toList]
  unwords (decimal s.id :: property)

/-- The canonical text of the value of an attribute. -/
def Attribute.write : Attribute → List Char
  | flag _ => []
  | label _ value => value.toList
  | candidate c => c.write
  | extmap e => e.write
  | fingerprint f => f.write
  | fmtp f => f.write
  | group g => g.write
  | iceOptions options => unwords (options.map String.toList)
  | msid m => m.write
  | rtcp r => r.write
  | rtcpFb r => r.write
  | rtpmap r => r.write
  | sctpmap s => s.write
  | sctpPort port => decimal port
  | setup role => role.word.toList
  | simulcast s => s.write
  | ssrc s => s.write

end Sdp
