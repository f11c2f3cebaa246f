import Sdp.Data.Value

/-!
# Order of fields

The fields of a log line stand in one order, whatever order they come in: some names go first, and
all others follow by code points.
-/

namespace Sdp.Log

/-- The names that go first. -/
def leadingNames : List String :=
  ["timestamp", "level", "event", "line_number", "kind", "keyword", "offending_text", "media_type"]

/-- The fields with the leading names. -/
def leading (fields : Fields) : Fields :=
  leadingNames.filterMap fun name => (fields.get? name).map fun v => (name, v)

/-- The fields with other names, by name. -/
def trailing (fields : Fields) : Fields :=
  (fields.filter fun (name, _) => name ∉ leadingNames).mergeSort fun a b => a.1 ≤ b.1

def arrange (fields : Fields) : Fields :=
  leading fields ++ trailing fields

end Sdp.Log
