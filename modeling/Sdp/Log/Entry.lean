import Sdp.Log.Event
import Sdp.Log.Order

/-!
# Entries

What a log line holds, told by name: which fields can be written, and what a record says about an event.
-/

namespace Sdp.Log

/-- The names that a call takes for itself, or that are rewritten before a line is laid out. -/
def reservedNames : List String :=
  ["self", "method_name", "event", "stack", "stack_info", "exc_info", "exception"]

/-- Fields that can be handed over as they are. -/
structure Loggable (fields : Fields) : Prop where
  distinct : fields.Distinct
  unreserved : ∀ field ∈ fields, field.1 ∉ reservedNames
  plain : ∀ field ∈ fields, field.2.Plain

/-- The leading names that are there go first in their order, and all others follow by code points. -/
def InOrder (names : List String) : Prop :=
  ∃ front back, names = front ++ back ∧ front.Sublist leadingNames ∧
    back.Pairwise (· < ·) ∧ ∀ name ∈ back, name ∉ leadingNames

/-- The fields hold the time, the level and the name of the event, under every other name what the event has
there or else the context, and nothing more. -/
structure Tells (stamp : String) (context : Fields) (e : Event) (fields : Fields) : Prop where
  distinct : fields.Distinct
  order : InOrder fields.names
  time : fields.get? "timestamp" = some (.text stamp)
  level : fields.get? "level" = some (.text e.level.word)
  event : fields.get? "event" = some (.text e.name)
  others : ∀ name, name ≠ "timestamp" → name ≠ "level" → name ≠ "event" →
    fields.get? name = (e.fields.get? name).or (context.get? name)

end Sdp.Log
