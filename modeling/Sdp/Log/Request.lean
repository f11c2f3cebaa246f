import Sdp.Log.Router
import Sdp.Settings.Validation

/-!
# Requests

What is asked of a log, one thing after another: to be set up by names or by settings, to bind a logger to a
context, or to write an event. A logger without a context of its own finds the setup that is in force whenever
it is used, and so does one that is bound for a single event.
-/

namespace Sdp.Log

/-- What a request finds around the log. -/
structure Moment where
  look : Path → Entry
  layout : Layout

inductive Request where
  | named (level format output : String) (path : Option String)
  | settings (fields : Fields)
  | bind (context : Fields)
  | write (context : Fields) (e : Event)
  | writeBound (i : Nat) (e : Event)

/-- What becomes of a request. A written event may be a line on the standard output, or too long an integer may
be in the way. -/
inductive Reply where
  | done
  | refused (e : Refusal)
  | invalid (issues : List Settings.Issue)
  | shown (line : Option String)
  | tooLong

namespace Router

/-- Puts a setup in force, unless its file cannot be opened. -/
def install (r : Router) (look : Path → Entry) (s : Setup) : Router × Reply :=
  match r.configure look s with
  | .ok r => (r, .done)
  | .error e => (r, .refused e)

/-- Writes an event through a logger. -/
def writeBy (r : Router) (logger : Logger) (layout : Layout) (e : Event) : Router × Reply :=
  if e.level.severity < logger.setup.threshold.severity then (r, .shown none)
  else
    match line? layout logger.setup.format logger.context e with
    | none => (r, .tooLong)
    | some l =>
      let (r, shown) := r.put logger.setup.sink l
      (r, .shown shown)

/-- The logger that a request writes through, and the event that it writes. -/
def call? (r : Router) : Request → Option (Logger × Event)
  | .write context e => some (⟨r.setup, context⟩, e)
  | .writeBound i e => r.loggers[i]?.map fun logger => (logger, e)
  | _ => none

def serve (r : Router) (now : Moment) (q : Request) : Router × Reply :=
  match q with
  | .named level format output path => r.install now.look (.named level format output path)
  | .settings fields =>
    match Settings.readLogging fields with
    | .ok s => r.install now.look s.setup
    | .error issues => (r, .invalid issues)
  | .bind context => ({ r with loggers := r.loggers ++ [⟨r.setup, context⟩] }, .done)
  | .write _ _ | .writeBound _ _ =>
    match r.call? q with
    | some (logger, e) => r.writeBy logger now.layout e
    | none => (r, .shown none)

end Router

end Sdp.Log
