import Sdp.Data.Value

/-!
# Documents

A document is a mapping from names, and mappings may stand under its names. One mapping may stand in several
places, also the document in itself: what is put into it in one place is there in all of them.
-/

namespace Sdp

/-- What stands under a name: a value that stands nowhere else, the mapping with some number among those that
stand in several places, or the document as a whole. -/
inductive Node where
  | own (v : Value)
  | shared (i : Nat)
  | whole

structure Document where
  nodes : Named Node := []
  shared : Nat → Fields := fun _ => []

namespace Document

/-- A node as it looks from inside of a mapping, where nobody looks further into a mapping. -/
def outline : Node → Value
  | .own v => v
  | .shared _ | .whole => .record []

/-- What stands at a node. -/
def value (d : Document) : Node → Value
  | .own v => v
  | .shared i => .record (d.shared i)
  | .whole => .record (d.nodes.map fun (name, node) => (name, outline node))

/-- All that stands in the document. -/
def fields (d : Document) : Fields :=
  d.nodes.map fun (name, node) => (name, d.value node)

/-- A document in which no mapping stands twice. -/
def ofFields (fields : Fields) : Document where
  nodes := fields.map fun (name, v) => (name, .own v)

/-- Puts a value into the mapping under a name, wherever else that mapping stands. It is made if nothing is
there, and what is there and no mapping stays as it is. -/
def put (d : Document) (name key : String) (v : Value) : Document :=
  match d.nodes.get? name with
  | none => { d with nodes := d.nodes.put name (.own (.record [(key, v)])) }
  | some (.own (.record fields)) => { d with nodes := d.nodes.put name (.own (.record (Named.put fields key v))) }
  | some (.own _) => d
  | some (.shared i) => { d with shared := fun j => if j = i then (d.shared i).put key v else d.shared j }
  | some .whole => { d with nodes := d.nodes.put key (.own v) }

/-- What stands under these names stands under one of them only, and the document under none. -/
structure Apart (d : Document) (names : List String) : Prop where
  whole : ∀ name ∈ names, d.nodes.get? name ≠ some .whole
  shared : ∀ name ∈ names, ∀ other ∈ names, ∀ i, d.nodes.get? name = some (.shared i) →
    d.nodes.get? other = some (.shared i) → name = other

end Document

/-- What a text holds: nothing, a mapping, or something else. -/
inductive Content where
  | nothing
  | mapping (d : Document)
  | other

def Content.ofValue : Value → Content
  | .null => nothing
  | .record fields => mapping (.ofFields fields)
  | _ => other

end Sdp
