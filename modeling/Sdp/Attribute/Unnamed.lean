import Sdp.Attribute.Listing

/-!
# Names that are left out

Codecs, properties and streams have names, which end at a mark. Nothing may stand in front of the mark,
and then the name is empty.
-/

namespace Sdp

open Candidate (IsNumber)
open Simulcast (InTurns IsLastList)

/-- The pieces behind the name of a codec, and the frequency and the channels that they stand for. -/
inductive Rtpmap.Numbers : List (List Char) → Option Nat → Option Nat → Prop where
  | none : Numbers [] none none
  | frequency {v f} (hf : IsNumber 0x100000000 v f) : Numbers [v] (some f) none
  | channels {v w f c} (hf : IsNumber 0x100000000 v f) (hc : IsNumber 0x100000000 w c) :
      Numbers [v, w] (some f) (some c)

/-- The second token of a property, and the name and the value that it stands for. -/
inductive Ssrc.Property : Option (List Char) → Option String → Option String → Prop where
  | none : Property none none none
  | name {name} (h : ':' ∉ name) : Property (some name) (some (.ofList name)) none
  | value {name text} (h : ':' ∉ name) :
      Property (some (name ++ ':' :: text)) (some (.ofList name)) (some (.ofList text))

/-- An alternative of the list is empty, or a tilde and nothing else. -/
def Simulcast.HasEmptyAlternative (list : List Char) : Prop :=
  ∃ alternatives ∈ list.splitOn ';', ∃ w ∈ alternatives.splitOn ',', w = [] ∨ w = ['~']

namespace Attribute

/-- The name of the codec, of the property or of a stream is empty. -/
def HasEmptyName : Attribute → Prop
  | .rtpmap r => r.codec = ""
  | .ssrc s => s.name = some ""
  | .simulcast s => ∃ side, ∃ ids ∈ s.streams side, ∃ id ∈ ids, id.id = ""
  | _ => False

/-- The tokens of a value that is in order but for a name. -/
inductive LeavesOutName : Kind → List (List Char) → Prop where
  | codec {payloadType numbers n f c} (hpayloadType : IsNumber 0x100000000 payloadType n)
      (hnumbers : Rtpmap.Numbers numbers (some f) c) :
      LeavesOutName .rtpmap [payloadType, '/' :: ['/'].intercalate numbers]
  | property {id text rest n} (hid : IsNumber 0x100000000 id n) :
      LeavesOutName .ssrc (id :: (':' :: text) :: rest)
  | stream {tokens side list} (hturns : InTurns tokens) (hlast : IsLastList side tokens list)
      (hempty : Simulcast.HasEmptyAlternative list) : LeavesOutName .simulcast tokens

end Attribute

end Sdp
