import Sdp.Log.Request
import Sdp.Log.Written

/-!
# Histories of a log

What has been asked of a log so far, and what follows from that alone: the setup in force, the setup of each
logger that has been bound, and the lines that each file has.
-/

namespace Sdp.Log

/-- The setup that is asked for; none by settings that are invalid. -/
def Request.setup? : Request → Option Setup
  | .named level format output path => some (.named level format output path)
  | .settings fields => (Settings.readLogging fields).toOption.map (·.setup)
  | .bind _ | .write _ _ | .writeBound _ _ => none

/-- The file that lines go to, if they go to one. -/
def Setup.file? (s : Setup) : Option Path :=
  s.sink.path?.map Path.resolve

/-- Requests and when they were made, the first one first. -/
abbrev History := List (Moment × Request)

namespace History

/-- Whatever is set up writes JSON, and its file can be opened then. -/
def Admissible (h : History) : Prop :=
  ∀ now q s, (now, q) ∈ h → q.setup? = some s → s.format = .json ∧ s.Writable now.look

/-- The last setup that was asked for. -/
def inForce (h : History) : Option Setup :=
  (h.filterMap (·.2.setup?)).getLast?

/-- What requests gave one after another, each after those before it. -/
def collect {α : Type} (h : History) (give : History → Moment × Request → Option α) : List α :=
  h.zipIdx.filterMap fun (m, i) => give (h.take i) m

/-- The context that a logger is bound to, and the setup that it keeps. -/
def bound? (h : History) : Request → Option (Option Setup × Fields)
  | .bind context => some (h.inForce, context)
  | _ => none

/-- The loggers that have been bound. -/
def loggers (h : History) : List (Option Setup × Fields) :=
  h.collect fun before m => before.bound? m.2

/-- The logger that a request writes through, and the event that it writes. The setup is the one in force, or
the one that was when the logger was bound. -/
def call? (h : History) : Request → Option (Logger × Event)
  | .write context e => h.inForce.map fun s => (⟨s, context⟩, e)
  | .writeBound i e => h.loggers[i]?.bind fun b => b.1.map fun s => (⟨s, b.2⟩, e)
  | _ => none

/-- The line of a request that writes an event, if the event reaches the threshold. -/
def line? (h : History) (now : Moment) (q : Request) : Option String :=
  (h.call? q).bind fun c =>
    if c.1.setup.threshold.severity ≤ c.2.level.severity then
      Log.line? now.layout c.1.setup.format c.1.context c.2
    else none

/-- The line of a request, if it goes to the file. -/
def lineIn? (h : History) (p : Path) (now : Moment) (q : Request) : Option String :=
  if (h.call? q).bind (·.1.setup.file?) = some p then h.line? now q else none

/-- The lines of all events that were to be written to the file, in order. -/
def lines (h : History) (p : Path) : List String :=
  h.collect fun before m => before.lineIn? p m.1 m.2

/-- Some setup had lines go to the file. -/
def Opened (h : History) (p : Path) : Prop :=
  ∃ now q s, (now, q) ∈ h ∧ q.setup? = some s ∧ s.file? = some p

end History

namespace Router

/-- A log that served some requests in order. -/
def after (h : History) : Router :=
  h.foldl (fun r (now, q) => (r.serve now q).1) {}

/-- One file has one more line at its end, and nothing else is different. -/
structure Grows (p : Path) (l : String) (r r' : Router) : Prop where
  setup : r'.setup = r.setup
  loggers : r'.loggers = r.loggers
  opened : ∃ ls, (p, ls) ∈ r.files
  files : ∀ q ls', (q, ls') ∈ r'.files ↔
    ∃ ls, (q, ls) ∈ r.files ∧ ls' = if q = p then ls ++ [l] else ls

/-- A line goes to the place of a setup and to no other. -/
inductive Writes (s : Setup) (l : String) (r : Router) : Router × Reply → Prop where
  | shown (stdout : s.file? = none) : Writes s l r (r, .shown (some l))
  | filed {p r'} (file : s.file? = some p) (grows : Grows p l r r') : Writes s l r (r', .shown none)

end Router

end Sdp.Log
