import Sdp.Session.Basic

/-!
# Events of a reading

What the reader of a description tells the log.
-/

namespace Sdp.Session

inductive Event where
  | skipped (line : Nat) (e : Fault Defect)
  | rejected (line : Nat) (e : Fault Defect)
  | parsed (media attributes warnings : Nat)
deriving DecidableEq, Repr

/-- The named values of an event about a fault. -/
def faultFields (line : Nat) (e : Fault Defect) : Fields :=
  [("line_number", .int line), ("offending_text", .text e.text), ("error", .text e.cause.message)]

def Event.entry : Event → Log.Event
  | skipped line e => ⟨.warning, "sdp_attribute_skipped", faultFields line e⟩
  | rejected line e => ⟨.debug, "sdp_attribute_rejected", faultFields line e⟩
  | parsed media attributes warnings =>
    ⟨.debug, "sdp_parsed",
      [("media_count", .int media), ("session_attributes", .int attributes),
        ("warnings", .int warnings)]⟩

end Sdp.Session
