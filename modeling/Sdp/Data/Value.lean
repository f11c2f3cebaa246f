import Sdp.Numeral.Binary64

/-!
# Values

Data without a fixed shape, as it stands in settings files and in log entries. The fields of a
record keep their order.
-/

namespace Sdp

inductive Value where
  | null
  | bool (b : Bool)
  | int (n : Int)
  | real (x : Numeral.Binary64)
  | text (s : String)
  | date (s : String)
  | list (items : List Value)
  | record (fields : List (String × Value))
deriving Repr

/-- The value holds no real number and no date. -/
inductive Value.Plain : Value → Prop where
  | null : Plain .null
  | bool (b : Bool) : Plain (.bool b)
  | int (n : Int) : Plain (.int n)
  | text (s : String) : Plain (.text s)
  | list {items} (h : ∀ v ∈ items, Plain v) : Plain (.list items)
  | record {fields : List (String × Value)} (h : ∀ field ∈ fields, Plain field.2) : Plain (.record fields)

/-- No integer in the value has more than 4300 digits. -/
inductive Value.Short : Value → Prop where
  | null : Short .null
  | bool (b : Bool) : Short (.bool b)
  | int {n : Int} (h : n.natAbs < Nat.pow 10 4300) : Short (.int n)
  | real (x : Numeral.Binary64) : Short (.real x)
  | text (s : String) : Short (.text s)
  | date (s : String) : Short (.date s)
  | list {items} (h : ∀ v ∈ items, Short v) : Short (.list items)
  | record {fields : List (String × Value)} (h : ∀ field ∈ fields, Short field.2) : Short (.record fields)

/-- Things in order by name, each name once. -/
abbrev Named (α : Type) := List (String × α)

namespace Named

variable {α : Type}

def get? (things : Named α) (name : String) : Option α :=
  things.lookup name

def names (things : Named α) : List String :=
  things.map Prod.fst

/-- No name stands twice. -/
def Distinct (things : Named α) : Prop :=
  things.names.Nodup

instance (things : Named α) : Decidable things.Distinct :=
  inferInstanceAs (Decidable (List.Nodup _))

/-- Gives `name` to `a`: in its place if it is there, at the end if it is not. -/
def put (things : Named α) (name : String) (a : α) : Named α :=
  match things with
  | [] => [(name, a)]
  | (n, b) :: rest => if n = name then (name, a) :: rest else (n, b) :: put rest name a

/-- The things overwritten by others. -/
def merge (things others : Named α) : Named α :=
  others.foldl (fun all (name, a) => all.put name a) things

end Named

/-- Named values. -/
abbrev Fields := Named Value

end Sdp
