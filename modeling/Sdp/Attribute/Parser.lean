import Sdp.Attribute.Candidate

/-!
# Reading attributes

One reader per kind, `Attribute.read` for a value of a given kind, and `Attribute.ofLine` for the
text behind `a=`. The first defect from left to right decides, except that a wrong number of tokens
comes before all else.
-/

namespace Sdp

open Text (words cut cutWord matchUpper trim)

namespace Flag

/-- A flag takes no value. -/
def read (f : Flag) (value : List Char) : Reading Unit :=
  if value.isEmpty then .ok () else .error (fault (.flagWithValue f) value)

end Flag

/-- Reads `<id>[/<direction>] <url>`. -/
def Extmap.read (value : List Char) : Reading Extmap :=
  match words value with
  | [token, url] =>
    match cut '/' token with
    | none => do
      let id ← Quantity.extmapId.read token
      return { id, direction := none, url := .ofList url }
    | some (id, direction) => do
      let direction ← Keyword.extmapDirection.read Direction.all Direction.word direction
      let id ← Quantity.extmapId.read id
      return { id, direction := some direction, url := .ofList url }
  | _ => .error (fault (.tokens .extmap) value)

/-- Reads `<hash> <value>`. -/
def Fingerprint.read (value : List Char) : Reading Fingerprint :=
  match words value with
  | [hash, digest] => .ok { hash := .ofList hash, value := .ofList digest }
  | _ => .error (fault (.tokens .fingerprint) value)

/-- Reads `<payload type> <parameter>*(;<parameter>)`, where no parameter holds a blank. -/
def Fmtp.read (value : List Char) : Reading Fmtp :=
  match words value with
  | [payloadType, _] => do
    let payloadType ← Quantity.fmtpPayloadType.read payloadType
    return { payloadType, pieces := (value.splitOn ';').map .ofList }
  | _ => .error (fault (.tokens .fmtp) value)

/-- Reads `<semantics> *<tag>`. -/
def Group.read (value : List Char) : Reading Group :=
  match words value with
  | [] => .error (fault (.tokens .group) value)
  | word :: tags =>
    match matchUpper Semantics.all Semantics.word word with
    | none => .error (fault (.keyword .groupSemantics) word)
    | some semantics => .ok { semantics, tags := tags.map .ofList }

/-- Reads `<id> [<appdata>]`; further tokens are passed over. -/
def Msid.read (value : List Char) : Reading Msid :=
  match words value with
  | [] => .error (fault (.tokens .msid) value)
  | id :: rest => .ok { id := .ofList id, appdata := rest.head?.map .ofList }

/-- Reads `<port> <network> <family> <address>`. -/
def Rtcp.read (value : List Char) : Reading Rtcp :=
  match words value with
  | [port, network, family, address] => do
    let port ← Quantity.rtcpPort.read port
    widen .network (Network.readType network)
    let family ← widen .network (Network.readFamily family)
    let address ← widen .network (Network.readAddress family address)
    return { port, family, address }
  | _ => .error (fault (.tokens .rtcp) value)

/-- Reads `<payload type> <feedback>`, where the feedback goes on to the end of the value. -/
def RtcpFb.read (value : List Char) : Reading RtcpFb :=
  match cutWord value with
  | (_, []) => .error (fault (.tokens .rtcpFb) value)
  | (payloadType, feedback) => do
    let payloadType ← Quantity.rtcpFbPayloadType.read payloadType
    return { payloadType, feedback := .ofList feedback }

/-- Reads `<payload type> <codec>[/<frequency>[/<channels>]]`. -/
def Rtpmap.read (value : List Char) : Reading Rtpmap :=
  match words value with
  | [payloadType, token] => do
    let payloadType ← Quantity.rtpmapPayloadType.read payloadType
    match token.splitOn '/' with
    | [codec] =>
      return { payloadType, codec := .ofList codec, frequency := none, channels := none }
    | [codec, frequency] => do
      let frequency ← Quantity.rtpmapFrequency.read frequency
      return { payloadType, codec := .ofList codec, frequency, channels := none }
    | [codec, frequency, channels] => do
      let frequency ← Quantity.rtpmapFrequency.read frequency
      let channels ← Quantity.rtpmapChannels.read channels
      return { payloadType, codec := .ofList codec, frequency, channels }
    | _ => .error (fault (.tokens .rtpmapCodec) token)
  | _ => .error (fault (.tokens .rtpmap) value)

/-- The protocol of every association that can be mapped. -/
def Sctpmap.protocol : String := "webrtc-datachannel"

/-- Reads `<port> webrtc-datachannel <channels>`. -/
def Sctpmap.read (value : List Char) : Reading Sctpmap :=
  match words value with
  | [port, protocol, channels] => do
    let port ← Quantity.sctpmapPort.read port
    Keyword.sctpmapProtocol.expect Sctpmap.protocol protocol
    let channels ← Quantity.sctpmapChannels.read channels
    return { port, channels }
  | _ => .error (fault (.tokens .sctpmap) value)

/-- A tilde before the name of a stream says that it is paused. -/
def StreamId.ofToken : List Char → StreamId
  | '~' :: id => { id := .ofList id, paused := true }
  | id => { id := .ofList id, paused := false }

namespace Simulcast

/-- Streams with semicolons between them, each a list of alternatives with commas between them. -/
def readStreams (s : List Char) : List (List StreamId) :=
  (s.splitOn ';').map fun alternatives => (alternatives.splitOn ',').map StreamId.ofToken

/-- The two sides of a simulcast. -/
inductive Side where
  | send
  | receive
deriving DecidableEq, Repr

namespace Side

def all : List Side := [.send, .receive]

def word : Side → String
  | send => "send"
  | receive => "recv"

end Side

/-- Gives a side its streams; what it had before is forgotten. -/
def put (s : Simulcast) (side : Side) (streams : List (List StreamId)) : Simulcast :=
  match side with
  | .send => { s with send := streams }
  | .receive => { s with receive := streams }

/-- Reads pairs of a side and its streams; `value` is what a missing list is blamed on. -/
def readSides (value : List Char) (s : Simulcast) : List (List Char) → Reading Simulcast
  | [] => .ok s
  | [word] => do
    let _ ← Keyword.simulcastDirection.read Side.all Side.word word
    .error (fault (.tokens .simulcastIds) value)
  | word :: streams :: rest => do
    let side ← Keyword.simulcastDirection.read Side.all Side.word word
    readSides value (s.put side (readStreams streams)) rest

/-- Reads `(send|recv) <streams> *((send|recv) <streams>)`. -/
def read (value : List Char) : Reading Simulcast :=
  match words value with
  | [] => .error (fault (.tokens .simulcast) value)
  | tokens => readSides value { send := [], receive := [] } tokens

end Simulcast

/-- Reads `<id> [<name>[:<value>]]`; further tokens are passed over. -/
def Ssrc.read (value : List Char) : Reading Ssrc :=
  match words value with
  | [] => .error (fault (.tokens .ssrc) value)
  | id :: rest => do
    let id ← Quantity.ssrcId.read id
    match rest with
    | [] => return { id, name := none, value := none }
    | token :: _ =>
      match cut ':' token with
      | none => return { id, name := some (.ofList token), value := none }
      | some (name, text) =>
        return { id, name := some (.ofList name), value := some (.ofList text) }

namespace Attribute

/-- Reads the value of an attribute of kind `k`. Blanks around the value are the caller's. -/
def read (k : Kind) (value : List Char) : Reading Attribute :=
  match k with
  | .flag f => (f.read value).map fun _ => .flag f
  | .label l => .ok (.label l (.ofList value))
  | .candidate => (Candidate.read value).map .candidate
  | .extmap => (Extmap.read value).map .extmap
  | .fingerprint => (Fingerprint.read value).map .fingerprint
  | .fmtp => (Fmtp.read value).map .fmtp
  | .group => (Group.read value).map .group
  | .iceOptions => .ok (.iceOptions ((words value).map .ofList))
  | .msid => (Msid.read value).map .msid
  | .rtcp => (Rtcp.read value).map .rtcp
  | .rtcpFb => (RtcpFb.read value).map .rtcpFb
  | .rtpmap => (Rtpmap.read value).map .rtpmap
  | .sctpmap => (Sctpmap.read value).map .sctpmap
  | .sctpPort => (Quantity.sctpPort.read value).map .sctpPort
  | .setup => (Keyword.setupRole.read SetupRole.all SetupRole.word value).map .setup
  | .simulcast => (Simulcast.read value).map .simulcast
  | .ssrc => (Ssrc.read value).map .ssrc

/-- The keyword before the first colon, and the value behind it without the blanks around it. -/
def splitLine (line : List Char) : List Char × List Char :=
  match cut ':' line with
  | none => (line, [])
  | some (keyword, value) => (keyword, trim value)

/-- The kind that a keyword names. -/
def classify (keyword : List Char) : Reading Kind :=
  match Kind.ofKeyword? keyword with
  | some k => .ok k
  | none => .error (fault .unknownAttribute keyword)

/-- Reads the text behind `a=`. -/
def ofLine (line : List Char) : Reading Attribute := do
  let (keyword, value) := splitLine line
  read (← classify keyword) value

end Attribute

end Sdp
