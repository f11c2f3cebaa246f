import Sdp.Attribute.Unnamed

/-!
# Text that is kept

What an attribute keeps of its value, told without a reader: each text is a stretch of the value between
blanks or marks, as it stands there.
-/

namespace Sdp

open Candidate (IsNumber IsWordOf)
open Text (IsGap IsTrimmed IsWord isBlank words)

/-- The first token of a header extension, and the number and the direction that it stands for. -/
inductive Extmap.Token : List Char → Nat → Option Direction → Prop where
  | plain {id n} (h : '/' ∉ id) (hid : IsNumber 0x100000000 id n) : Token id n none
  | directed {id direction n d} (h : '/' ∉ id) (hid : IsNumber 0x100000000 id n)
      (hd : IsWordOf Direction.word direction d) : Token (id ++ '/' :: direction) n (some d)

def Extmap.Keeps (value : List Char) (e : Extmap) : Prop :=
  ∃ token, words value = [token, e.url.toList] ∧ Token token e.id e.direction

/-- Two words; the number is the first of them, and the pieces make up the whole value. -/
structure Fmtp.Keeps (value : List Char) (f : Fmtp) : Prop where
  payloadType : ∃ token parameters, words value = [token, parameters] ∧
    IsNumber 0x100000000 token f.payloadType
  pieces : [';'].intercalate (f.pieces.map String.toList) = value
  unmarked : ∀ piece ∈ f.pieces, ';' ∉ piece.toList

/-- The feedback starts at the second word and goes on to the very end of the value. -/
def RtcpFb.Keeps (value : List Char) (r : RtcpFb) : Prop :=
  ∃ front token gap, value = front ++ token ++ gap ++ r.feedback.toList ∧ IsGap front ∧ IsWord token ∧
    IsNumber 0x100000000 token r.payloadType ∧ gap ≠ [] ∧ IsGap gap ∧
    ∃ c rest, r.feedback.toList = c :: rest ∧ isBlank c = false

/-- The codec holds no slash, and every number stands behind one. -/
def Rtpmap.Keeps (value : List Char) (r : Rtpmap) : Prop :=
  ∃ payloadType numbers,
    words value = [payloadType, r.codec.toList ++ numbers.flatMap ('/' :: ·)] ∧
    IsNumber 0x100000000 payloadType r.payloadType ∧ '/' ∉ r.codec.toList ∧
    Numbers numbers r.frequency r.channels

def Ssrc.Keeps (value : List Char) (s : Ssrc) : Prop :=
  ∃ id rest, words value = id :: rest ∧ IsNumber 0x100000000 id s.id ∧
    Property rest.head? s.name s.value

/-- The texts of an attribute are those of its value. An attribute that is not listed has no text. -/
def Attribute.Keeps (value : List Char) : Attribute → Prop
  | .label _ text => text.toList = value
  | .candidate c => (words value).head? = some c.foundation.toList
  | .extmap e => e.Keeps value
  | .fingerprint f => words value = [f.hash.toList, f.value.toList]
  | .fmtp f => f.Keeps value
  | .group g => ∃ word, words value = word :: g.tags.map String.toList
  | .iceOptions options => words value = options.map String.toList
  | .msid m => ∃ rest, words value = m.id.toList :: rest ∧ rest.head? = m.appdata.map String.toList
  | .rtcpFb r => r.Keeps value
  | .rtpmap r => r.Keeps value
  | .simulcast s => ∀ side, Simulcast.HoldsLast side (words value) (s.streams side)
  | .ssrc s => s.Keeps value
  | _ => True

/-- A keyword, a colon, and a value with blanks around it. -/
structure Attribute.Divides (line keyword value : List Char) : Prop where
  unmarked : ':' ∉ keyword
  trimmed : IsTrimmed value
  text : ∃ front back, IsGap front ∧ IsGap back ∧ line = keyword ++ ':' :: (front ++ value ++ back)

end Sdp
