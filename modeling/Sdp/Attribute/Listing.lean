import Sdp.Attribute.Grammar
import Sdp.Attribute.Parser
import Sdp.Attribute.Printer
import Sdp.Attribute.WellFormed

/-!
# Lists of streams

What the tokens of a simulcast say, told without a reader: sides and lists take turns, the last list of
a side counts, and a list stands for the streams that are written like it.
-/

namespace Sdp.Simulcast

open Candidate (IsOneOf)

/-- The streams are written as `w`, and no mark of a list is taken for a part of a name. -/
structure Lists (w : List Char) (streams : List (List StreamId)) : Prop where
  written : writeStreams streams = w
  ne_nil : streams ≠ []
  alternatives : ∀ ids ∈ streams, ids ≠ [] ∧ ∀ id ∈ ids, id.WellFormed
  unmarked : ∀ ids ∈ streams, ∀ id ∈ ids, id.paused = false → id.id.toList.head? ≠ some '~'

/-- Every other token is a side, and a list stands behind each of them. -/
structure InTurns (tokens : List (List Char)) : Prop where
  even : tokens.length % 2 = 0
  sides : ∀ i w, tokens[2 * i]? = some w → IsOneOf ["send", "recv"] w

def Side.IsNamed (side : Side) (w : List Char) : Prop :=
  Text.IsLowerSpelling side.word.toList w

/-- The streams of a side. -/
def streams (s : Simulcast) : Side → List (List StreamId)
  | .send => s.send
  | .receive => s.receive

/-- The list behind the last token that names the side. -/
def IsLastList (side : Side) (tokens : List (List Char)) (w : List Char) : Prop :=
  ∃ i name, tokens[2 * i]? = some name ∧ side.IsNamed name ∧ tokens[2 * i + 1]? = some w ∧
    ∀ j > i, ∀ other, tokens[2 * j]? = some other → ¬ side.IsNamed other

def IsUnnamed (side : Side) (tokens : List (List Char)) : Prop :=
  ∀ i name, tokens[2 * i]? = some name → ¬ side.IsNamed name

/-- What the last list of a side stands for, or no streams if no token names the side. -/
inductive HoldsLast (side : Side) (tokens : List (List Char)) : List (List StreamId) → Prop where
  | list {w streams} (last : IsLastList side tokens w) (h : Lists w streams) : HoldsLast side tokens streams
  | none (h : IsUnnamed side tokens) : HoldsLast side tokens []

end Sdp.Simulcast
