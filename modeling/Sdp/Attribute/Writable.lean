import Sdp.Attribute.Printer
import Sdp.Attribute.WellFormed

/-!
# Attributes that can be written

Of the well-formed values a few have no text of their own: a codec without a name or a number, a
property without a name or a value, a stream that looks paused, a side that looks empty, and
parameters that do not go with their payload type. All others are what their canonical text says.
-/

namespace Sdp

open Text (isBlank)
open Numeral (decimal)

/-- The first piece is the payload type and the first parameter, and the other pieces are the other
parameters. One parameter alone is not empty. -/
structure Fmtp.Writable (f : Fmtp) : Prop where
  payloadType : f.payloadType < 0x100000000
  pieces : ∃ first rest, f.pieces = .ofList (decimal f.payloadType ++ ' ' :: first) :: rest.map .ofList ∧
    first :: rest ≠ [[]] ∧ ∀ parameter ∈ first :: rest, ∀ c ∈ parameter, c ≠ ';' ∧ isBlank c = false

structure Rtpmap.Writable (r : Rtpmap) : Prop extends r.WellFormed where
  codec_ne_empty : r.frequency = none → r.codec ≠ ""

structure Simulcast.Writable (s : Simulcast) : Prop extends s.WellFormed where
  streams : ∀ side ∈ [s.send, s.receive], side ≠ [[⟨"", false⟩]]
  unmarked : ∀ ids ∈ s.send ++ s.receive, ∀ id ∈ ids, id.paused = false → id.id.toList.head? ≠ some '~'

structure Ssrc.Writable (s : Ssrc) : Prop extends s.WellFormed where
  name_ne_empty : s.value = none → s.name ≠ some ""

def Attribute.Writable : Attribute → Prop
  | .fmtp f => f.Writable
  | .rtpmap r => r.Writable
  | .simulcast s => s.Writable
  | .ssrc s => s.Writable
  | a => a.WellFormed

end Sdp
