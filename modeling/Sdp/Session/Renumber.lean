import Sdp.Session.Meaning
import Sdp.Session.Parser

/-!
# Lines to pass over, and the numbers of lines

A line that is put into a description moves the lines after it. Where the line is one to pass over,
this is all that a reading shows of it.
-/

namespace Sdp

open Text (trim)

/-- A line to pass over: without the blanks around it, it is empty, has no equals sign, or has something
else in front of its first equals sign than the letter of a field. -/
inductive Ignorable (line : List Char) : Prop where
  | blank (h : trim line = [])
  | plain (h : '=' ∉ trim line)
  | other {field value : List Char} (h : trim line = field ++ '=' :: value) (first : '=' ∉ field)
      (other : ∀ letter ∈ fieldLetters, field ≠ [letter])

/-- The number of line `n` after a line has been put in as line `k`. -/
def shiftFrom (k n : Nat) : Nat :=
  if n < k then n else n + 1

def Warning.renumber (f : Nat → Nat) (w : Warning) : Warning :=
  { w with line := f w.line }

def Failure.renumber (f : Nat → Nat) (e : Failure) : Failure :=
  { e with line := e.line.map f }

namespace Session

/-- Only the warnings of a session have numbers. -/
def renumber (f : Nat → Nat) (s : Session) : Session :=
  { s with warnings := s.warnings.map (Warning.renumber f) }

def Event.renumber (f : Nat → Nat) : Event → Event
  | skipped line e => .skipped (f line) e
  | rejected line e => .rejected (f line) e
  | parsed media attributes warnings => .parsed media attributes warnings

/-- A reading in which line `n` is line `f n`. -/
def renumberReading (f : Nat → Nat) :
    List Event × Except Failure Session → List Event × Except Failure Session
  | (events, .ok s) => (events.map (Event.renumber f), .ok (s.renumber f))
  | (events, .error e) => (events.map (Event.renumber f), .error (e.renumber f))

end Session

end Sdp
