import Sdp.Session.Line
import Sdp.Session.Sanitise
import Sdp.Text.Spelling

/-!
# Reading a line again

Which pair of a candidate is left out before the rest is read again, told by its place among the
tokens, and how often a lenient reader reads a line in all.
-/

namespace Sdp

open Text (unwords words)

namespace Candidate

/-- What stands in front of the first colon is `candidate` in any letter case. -/
def IsLine (line : List Char) : Prop :=
  Text.IsLowerSpelling "candidate".toList (Attribute.splitLine line).1

/-- The tokens of the value on a line. -/
def tokensOf (line : List Char) : List (List Char) :=
  words (Attribute.splitLine line).2

/-- The place of a pair among the tokens. -/
def place (i : Nat) : Nat :=
  mandatoryTokens + 2 * i

/-- The pair with that number is complete and has exactly that name. -/
def HasName (tokens : List (List Char)) (name : List Char) (i : Nat) : Prop :=
  tokens[place i]? = some name ∧ place i + 1 < tokens.length

/-- It is the first pair with exactly that name. -/
def HasNameFirst (tokens : List (List Char)) (name : List Char) (i : Nat) : Prop :=
  HasName tokens name i ∧ ∀ j < i, ¬ HasName tokens name j

/-- The tokens without a pair. -/
def withoutPair (tokens : List (List Char)) (i : Nat) : List (List Char) :=
  tokens.take (place i) ++ tokens.drop (place i + 2)

/-- What stands in front of the pair can be read, and with the pair behind it, it is refused. -/
def StopsAt (tokens : List (List Char)) (i : Nat) (e : Fault Defect) : Prop :=
  (read (unwords (tokens.take (place i)))).isOk ∧ read (unwords (tokens.take (place i + 2))) = .error e

end Candidate

/-- Reading a line as often as a lenient reader does, with the number of times and what comes of it. -/
inductive LineReading.Reads : List Char → Nat → LineReading → Prop where
  | attr {line a} (h : Attribute.ofLine line = .ok a) : Reads line 1 { item := .ok (.attr a) }
  | refused {line e} (h : Attribute.ofLine line = .error e) (known : e.cause.isUnsupported = false) :
      Reads line 1 { item := .error (e.map .defect) }
  | skipped {line e} (h : Attribute.ofLine line = .error e) (unknown : e.cause.isUnsupported)
      (nothing : Candidate.withoutExtension? line e.text.toList = none) :
      Reads line 1 { skipped := [e], item := .ok .nothing }
  | again {line e shorter n r} (h : Attribute.ofLine line = .error e) (unknown : e.cause.isUnsupported)
      (left : Candidate.withoutExtension? line e.text.toList = some shorter) (rest : Reads shorter n r) :
      Reads line (n + 1) { r with skipped := e :: r.skipped }

end Sdp
