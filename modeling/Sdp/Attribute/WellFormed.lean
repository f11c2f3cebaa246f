import Sdp.Attribute.Basic
import Sdp.Text.Blank

/-!
# Well-formed attributes

What every attribute carries by its kind, and what holds of a value that has been read.
-/

namespace Sdp

open Text (IsWord isBlank)

/-! ## Values by kind -/

/-- What an attribute of a kind carries; a flag carries nothing. -/
def Kind.Value : Kind → Type
  | .flag _ => Unit
  | .label _ => String
  | .candidate => Candidate
  | .extmap => Extmap
  | .fingerprint => Fingerprint
  | .fmtp => Fmtp
  | .group => Group
  | .iceOptions => List String
  | .msid => Msid
  | .rtcp => Rtcp
  | .rtcpFb => RtcpFb
  | .rtpmap => Rtpmap
  | .sctpmap => Sctpmap
  | .sctpPort => Nat
  | .setup => SetupRole
  | .simulcast => Simulcast
  | .ssrc => Ssrc

/-- The attribute of kind `k` that carries a value. -/
def Attribute.ofValue : (k : Kind) → k.Value → Attribute
  | .flag f, _ => .flag f
  | .label l, value => .label l value
  | .candidate, value => .candidate value
  | .extmap, value => .extmap value
  | .fingerprint, value => .fingerprint value
  | .fmtp, value => .fmtp value
  | .group, value => .group value
  | .iceOptions, options => .iceOptions options
  | .msid, value => .msid value
  | .rtcp, value => .rtcp value
  | .rtcpFb, value => .rtcpFb value
  | .rtpmap, value => .rtpmap value
  | .sctpmap, value => .sctpmap value
  | .sctpPort, port => .sctpPort port
  | .setup, role => .setup role
  | .simulcast, value => .simulcast value
  | .ssrc, value => .ssrc value

theorem Attribute.exists_eq_ofValue (a : Attribute) : ∃ value : a.kind.Value, a = .ofValue a.kind value := by
  cases a with
  | flag f => exact ⟨(), rfl⟩
  | label l value => exact ⟨value, rfl⟩
  | _ value => exact ⟨value, rfl⟩

/-! ## Well-formed values -/

/-- The text is one word. -/
def OneWord (t : String) : Prop := IsWord t.toList

/-- The text of the address names no zone. -/
def Address.NoZone (a : Address) : Prop := '%' ∉ a.canonical

structure Candidate.WellFormed (c : Candidate) : Prop where
  foundation : OneWord c.foundation
  component : c.component < 0x100000000
  priority : c.priority < 0x10000000000000000
  address : c.address.NoZone
  port : c.port < 0x10000
  remoteAddress : ∀ a ∈ c.remoteAddress, a.NoZone
  remotePort : ∀ p ∈ c.remotePort, p < 0x10000

structure Extmap.WellFormed (e : Extmap) : Prop where
  id : e.id < 0x100000000
  url : OneWord e.url

structure Fingerprint.WellFormed (f : Fingerprint) : Prop where
  hash : OneWord f.hash
  value : OneWord f.value

structure Fmtp.WellFormed (f : Fmtp) : Prop where
  payloadType : f.payloadType < 0x100000000
  pieces_ne_nil : f.pieces ≠ []
  pieces : ∀ t ∈ f.pieces, ';' ∉ t.toList

structure Group.WellFormed (g : Group) : Prop where
  tags : ∀ t ∈ g.tags, OneWord t

structure Msid.WellFormed (m : Msid) : Prop where
  id : OneWord m.id
  appdata : ∀ t ∈ m.appdata, OneWord t

structure Rtcp.WellFormed (r : Rtcp) : Prop where
  port : r.port < 0x10000
  family : r.address.family = r.family
  address : r.address.NoZone

structure RtcpFb.WellFormed (r : RtcpFb) : Prop where
  payloadType : r.payloadType < 0x100000000
  feedback : ∃ c rest, r.feedback.toList = c :: rest ∧ isBlank c = false

structure Rtpmap.WellFormed (r : Rtpmap) : Prop where
  payloadType : r.payloadType < 0x100000000
  codec : ∀ c ∈ r.codec.toList, c ≠ '/' ∧ isBlank c = false
  frequency : ∀ n ∈ r.frequency, n < 0x100000000
  channels : ∀ n ∈ r.channels, n < 0x100000000
  frequency_of_channels : r.channels.isSome → r.frequency.isSome

structure Sctpmap.WellFormed (s : Sctpmap) : Prop where
  port : s.port < 0x10000
  channels : s.channels < 0x100000000

/-- The name of a stream can stand in a list of streams. -/
def StreamId.WellFormed (s : StreamId) : Prop :=
  ∀ c ∈ s.id.toList, c ≠ ',' ∧ c ≠ ';' ∧ isBlank c = false

structure Simulcast.WellFormed (s : Simulcast) : Prop where
  side : s.send ≠ [] ∨ s.receive ≠ []
  alternatives : ∀ ids ∈ s.send ++ s.receive, ids ≠ [] ∧ ∀ id ∈ ids, id.WellFormed

structure Ssrc.WellFormed (s : Ssrc) : Prop where
  id : s.id < 0x100000000
  name : ∀ t ∈ s.name, ∀ c ∈ t.toList, c ≠ ':' ∧ isBlank c = false
  value : ∀ t ∈ s.value, ∀ c ∈ t.toList, isBlank c = false
  name_of_value : s.value.isSome → s.name.isSome

def Attribute.WellFormed : Attribute → Prop
  | .flag _ => True
  | .label _ _ => True
  | .candidate c => c.WellFormed
  | .extmap e => e.WellFormed
  | .fingerprint f => f.WellFormed
  | .fmtp f => f.WellFormed
  | .group g => g.WellFormed
  | .iceOptions options => ∀ t ∈ options, OneWord t
  | .msid m => m.WellFormed
  | .rtcp r => r.WellFormed
  | .rtcpFb r => r.WellFormed
  | .rtpmap r => r.WellFormed
  | .sctpmap s => s.WellFormed
  | .sctpPort port => port < 0x10000
  | .setup _ => True
  | .simulcast s => s.WellFormed
  | .ssrc s => s.WellFormed

end Sdp
