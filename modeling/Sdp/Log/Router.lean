import Sdp.Data.Json.Printer
import Sdp.Log.Order
import Sdp.Log.Setup
import Sdp.Path

/-!
# Routing

Every event that reaches the threshold of a setup becomes one line in the place of that setup. Files only grow.
-/

namespace Sdp.Log

/-- What lines need besides events: the time, and what the text format makes of the fields of a record. -/
structure Layout where
  stamp : String
  console : Fields → String

/-- All that a line says: the context overwritten by the fields of the event, and by its name, its
level and the time. -/
def record (stamp : String) (context : Fields) (e : Event) : Fields :=
  arrange <| ((((context.merge e.fields).put "event" (.text e.name)).put "level"
    (.text e.level.word)).put "timestamp" (.text stamp))

/-- The line of an event whose integers can be written. -/
def line (layout : Layout) (format : Format) (context : Fields) (e : Event) : String :=
  let fields := record layout.stamp context e
  match format with
  | .json => .ofList (Json.layOut (.record fields))
  | .text => layout.console fields

/-- The line of any event. There is none if one of its integers cannot be written, in neither format. -/
def line? (layout : Layout) (format : Format) (context : Fields) (e : Event) : Option String :=
  let fields := record layout.stamp context e
  match format with
  | .json => (Json.print (.record fields)).map .ofList
  | .text => if Json.fits (.record fields) then some (layout.console fields) else none

/-- The path of the file that lines go to, if they go to one. -/
def Sink.path? : Sink → Option Path
  | .stdout => none
  | .file path => some (.ofString path)

/-- Why a log file cannot be opened. -/
inductive Refusal where
  | directory
  | parentFile
  | blocked
deriving DecidableEq, Repr

/-- A context, and the setup that goes with it. -/
structure Logger where
  setup : Setup
  context : Fields := []

/-- The setup in force, the lines in every file that has been opened, and the loggers that have been bound to
a context. Those keep the setup that they have been bound under. -/
structure Router where
  setup : Setup := ⟨.debug, .text, .stdout⟩
  files : List (Path × List String) := []
  loggers : List Logger := []

namespace Router

/-- Whether a log file can be opened for more lines, its directory being made if it is missing. -/
def admits (look : Path → Entry) (p : Path) : Except Refusal Unit :=
  match look p.parent, look p with
  | .file _, _ => .error .parentFile
  | .blocked, _ => .error .blocked
  | _, .directory => .error .directory
  | _, _ => .ok ()

/-- Adds an empty file, unless it is there. -/
def touch (files : List (Path × List String)) (p : Path) : List (Path × List String) :=
  match files with
  | [] => [(p, [])]
  | (q, ls) :: rest => if q = p then (q, ls) :: rest else (q, ls) :: touch rest p

/-- Adds a line at the end of a file. -/
def append (files : List (Path × List String)) (p : Path) (l : String) :
    List (Path × List String) :=
  files.map fun (q, ls) => if q = p then (q, ls ++ [l]) else (q, ls)

/-- The file that a path leads to. -/
def target (path : String) : Path :=
  (Path.ofString path).resolve

/-- Puts a setup in force. Its file is opened even if nothing is written to it. -/
def configure (r : Router) (look : Path → Entry) (s : Setup) : Except Refusal Router :=
  match s.sink with
  | .stdout => .ok { r with setup := s }
  | .file path => do
    admits look (target path)
    return { r with setup := s, files := touch r.files (target path) }

/-- Puts a line in a place: the router after that, and the line if the place is the standard output. -/
def put (r : Router) (sink : Sink) (l : String) : Router × Option String :=
  match sink with
  | .stdout => (r, some l)
  | .file path => ({ r with files := append r.files (target path) l }, none)

/-- Writes an event of the program itself. Its integers count what has been read, and so they can be written. -/
def write (r : Router) (layout : Layout) (e : Event) : Router × Option String :=
  if e.level.severity < r.setup.threshold.severity then (r, none)
  else r.put r.setup.sink (line layout r.setup.format [] e)

/-- Writes events one after another. -/
def writeAll (r : Router) (layout : Layout) : List Event → Router × List String
  | [] => (r, [])
  | e :: rest =>
    let (r, l) := r.write layout e
    let (r, ls) := writeAll r layout rest
    (r, l.toList ++ ls)

/-- The files opened so far, and their text. -/
def contents (r : Router) : List (Path × ByteArray) :=
  r.files.map fun (p, ls) => (p, (ls.foldl (fun text l => text ++ l ++ "\n") "").toUTF8)

end Router

end Sdp.Log
