import Sdp.Attribute.Grammar
import Sdp.Attribute.Parser

/-!
# Words in any letter case

The words that the parts of a line are compared with in lower case, the places of these parts, and two
changes to one of them: letters in the other case, and a character outside ASCII for one of its own.
-/

namespace Sdp

open Text (IsLowerSpelling IsWord isBlank)

inductive Vocabulary where
  | kind
  | transport
  | typ
  | candidateType
  | extension
  | tcpType
  | direction
  | protocol
  | role
  | side
deriving DecidableEq, Repr

namespace Vocabulary

def words : Vocabulary → List String
  | kind => Kind.all.map Kind.keyword
  | transport => ["udp", "tcp"]
  | typ => ["typ"]
  | candidateType => ["host", "srflx", "prflx", "relay"]
  | extension => ["raddr", "rport", "tcptype"]
  | tcpType => ["active", "passive", "so"]
  | direction => ["recvonly", "sendonly", "sendrecv"]
  | protocol => ["webrtc-datachannel"]
  | role => ["active", "actpass", "holdconn", "passive"]
  | side => ["send", "recv"]

/-- The word that the readers of attributes take a text for. -/
def take? (v : Vocabulary) (t : List Char) : Option String :=
  match v with
  | kind => (Attribute.classify t).toOption.map Kind.keyword
  | transport => (Keyword.transport.read Transport.all Transport.word t).toOption.map Transport.word
  | typ => (Keyword.candidateTyp.expect "typ" t).toOption.map fun _ => "typ"
  | candidateType =>
    (Keyword.candidateType.read CandidateType.all CandidateType.word t).toOption.map CandidateType.word
  | extension => (Candidate.Extension.ofName? t).map Candidate.Extension.word
  | tcpType => (Keyword.tcpType.read TcpType.all TcpType.word t).toOption.map TcpType.word
  | direction => (Keyword.extmapDirection.read Direction.all Direction.word t).toOption.map Direction.word
  | protocol =>
    (Keyword.sctpmapProtocol.expect Sctpmap.protocol t).toOption.map fun _ => Sctpmap.protocol
  | role => (Keyword.setupRole.read SetupRole.all SetupRole.word t).toOption.map SetupRole.word
  | side =>
    (Keyword.simulcastDirection.read Simulcast.Side.all Simulcast.Side.word t).toOption.map
      Simulcast.Side.word

end Vocabulary

/-- A token of the value, with these tokens in front of it and behind it, is compared with the
vocabulary. -/
inductive Kind.Expects : Kind → List (List Char) → List (List Char) → Vocabulary → Prop where
  | transport {front back} (h : front.length = 2) : Expects .candidate front back .transport
  | typ {front back} (h : front.length = 6) : Expects .candidate front back .typ
  | candidateType {front back} (h : front.length = 7) : Expects .candidate front back .candidateType
  | extension {front back} (h : 8 ≤ front.length) (heven : front.length % 2 = 0) (hback : back ≠ []) :
      Expects .candidate front back .extension
  | tcpType {front name back} (h : 8 ≤ front.length) (heven : front.length % 2 = 0)
      (hname : Candidate.Extension.tcpType.IsNamed name) : Expects .candidate (front ++ [name]) back .tcpType
  | protocol {port back} : Expects .sctpmap [port] back .protocol
  | role : Expects .setup [] [] .role
  | side {front back} (heven : front.length % 2 = 0) : Expects .simulcast front back .side

namespace Vocabulary

/-- In the line `before ++ w ++ after` the part `w` is compared with the vocabulary. -/
inductive StandsAt : Vocabulary → List Char → List Char → List Char → Prop where
  | kind {w after} (hw : ':' ∉ w) (hafter : ∀ c ∈ after.head?, c = ':') : StandsAt .kind [] w after
  | token {v} {k : Kind} {keyword front w back} (hkeyword : IsLowerSpelling k.keyword.toList keyword)
      (hw : IsWord w) (hfront : ∀ c ∈ front.getLast?, isBlank c) (hback : ∀ c ∈ back.head?, isBlank c)
      (h : k.Expects (Text.words front) (Text.words back) v) : StandsAt v (keyword ++ ':' :: front) w back
  | direction {keyword front id w back} (hkeyword : IsLowerSpelling Kind.extmap.keyword.toList keyword)
      (hfront : ∀ c ∈ front, isBlank c) (hid : ∀ c ∈ id, c ≠ '/' ∧ isBlank c = false)
      (hw : ∀ c ∈ w, isBlank c = false) (hback : ∀ c ∈ back.head?, isBlank c) :
      StandsAt .direction (keyword ++ ':' :: (front ++ id ++ ['/'])) w back

end Vocabulary

/-- The ASCII letters of a part of a line change their case. -/
inductive Recased : List Char → List Char → Prop where
  | mk {v before w w' after} (h : Vocabulary.StandsAt v before w after)
      (hcase : w'.map Char.toLower = w.map Char.toLower) :
      Recased (before ++ w ++ after) (before ++ w' ++ after)

/-- A character outside ASCII takes the place of one character of a part of a line. -/
inductive Defaced : List Char → List Char → Prop where
  | mk {v before w c d w' after} (h : Vocabulary.StandsAt v before (w ++ c :: w') after)
      (hd : 0x80 ≤ d.toNat) : Defaced (before ++ (w ++ c :: w') ++ after) (before ++ (w ++ d :: w') ++ after)

end Sdp
