import Sdp.Command.Run
import Sdp.Log.Written

/-!
# What comes of a run

A run that has loaded its settings reads the text of a description and makes a summary of it, or says
why it cannot. This is told without the steps of the run.
-/

namespace Sdp.Command

/-- What stands at the path of the description when it is read. -/
def Surroundings.found (around : Surroundings) (setup : Log.Setup) (file : String) : Entry :=
  Entry.after around.look setup.sink.path? (.ofString file)

/-- Why no text can be read where this stands. -/
def unreadable? : Entry → Option Unreadable
  | .missing => some .missing
  | .directory => some .directory
  | .blocked => some .blocked
  | .file _ => none

/-- The text of a description. -/
inductive Surroundings.Holds (around : Surroundings) (setup : Log.Setup) (file : String) :
    List Char → Prop where
  | input (h : file = "-") : Holds around setup file around.input
  | file {bytes : ByteArray} {text : String} (h : file ≠ "-")
      (found : around.found setup file = .file bytes) (decoded : String.fromUTF8? bytes = some text) :
      Holds around setup file text.toList

/-- What is logged of a description that is refused: where it is, on which line, what stands there and what is
wrong with it. -/
def refusalEvent (file : String) (f : Failure) : Log.Event :=
  ⟨.error, "sdp_parse_failed",
    [("path", .text file), ("line_number", f.line.elim .null fun n => .int n),
      ("offending_text", .text f.fault.text), ("error", .text f.fault.cause.message)]⟩

/-- What is logged of a description that cannot be read. -/
def unreadableEvent (file : String) (u : Unreadable) : Log.Event :=
  ⟨.error, "sdp_read_failed", [("path", .text file), ("error", .text (u.message (.ofString file)))]⟩

/-- A failure to read or to understand a description. -/
def IsFailure (e : Log.Event) : Prop :=
  e.name = "sdp_read_failed" ∨ e.name = "sdp_parse_failed"

instance : DecidablePred IsFailure := fun e =>
  inferInstanceAs (Decidable (e.name = "sdp_read_failed" ∨ e.name = "sdp_parse_failed"))

/-- The status of a run with settings `s`, the events that it tells its log, and its results. -/
inductive Outcome (around : Surroundings) (s : Settings) (file : String) :
    Nat → List Log.Event → List String → Prop where
  | summarised {text : List Char} {events : List Session.Event} {session : Session}
      (h : around.Holds s.logging.setup file text)
      (read : Session.read s.parser text = (events, .ok session)) :
      Outcome around s file 0 (events.map Session.Event.entry) (session.overview.map .ofList)
  | refused {text : List Char} {events : List Session.Event} {f : Failure}
      (h : around.Holds s.logging.setup file text)
      (read : Session.read s.parser text = (events, .error f)) :
      Outcome around s file 2 (events.map Session.Event.entry ++ [refusalEvent file f]) []
  | unreadable {u : Unreadable} (h : file ≠ "-")
      (found : unreadable? (around.found s.logging.setup file) = some u) :
      Outcome around s file 2 [unreadableEvent file u] []

end Sdp.Command
