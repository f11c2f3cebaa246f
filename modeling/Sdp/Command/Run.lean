import Sdp.Command.Options
import Sdp.Log.Router
import Sdp.Session.Parser
import Sdp.Session.Summary
import Sdp.Settings.Change
import Sdp.Settings.Loading

/-!
# Running a command line

A run loads the settings, reads a description, logs what happens on the way and writes a summary.
It ends with 0, with 1 if the settings cannot be loaded, or with 2 if the description cannot be read
or is refused.
-/

namespace Sdp.Command

/-- What a run finds around it. -/
structure Surroundings where
  environment : Settings.Environment
  look : Path → Entry
  input : List Char
  layout : Log.Layout
  defaultConfig : String := Settings.defaultPath
  markup : Settings.Markup := Yaml.read

/-- Why a run breaks off without an exit status of its own. -/
inductive Breakdown where
  | encoding
  | path
  | log (r : Log.Refusal)
deriving DecidableEq, Repr

/-- How a run ends: with a status, with a status before anything has been done, or not in order. -/
inductive Ending where
  | status (code : Nat)
  | immediate (code : Nat)
  | breakdown (b : Breakdown)
deriving DecidableEq, Repr

/-- All that a run leaves behind. Events before logging is set up are kept apart. -/
structure Transcript where
  early : List Log.Event := []
  stdout : List String := []
  stderr : List String := []
  files : List (Path × List String) := []
  ending : Ending

/-- The program's name and version. -/
def version : String := "sdpattr 0.1.0"

def usage : List String :=
  ["usage: sdpattr [-h] [-c CONFIG] [--mode MODE] [--log-level LEVEL] [--version] sdp_file"]

/-- The settings with what the command line overrides. -/
def override (s : Settings) (o : Options) : Settings where
  parser := { s.parser with mode := o.mode.getD s.parser.mode }
  logging := { s.logging with level := o.level.getD s.logging.level }

/-- Why a description cannot be read. -/
inductive Unreadable where
  | missing
  | directory
  | blocked
deriving DecidableEq, Repr

def Unreadable.message (u : Unreadable) (p : Path) : String :=
  let reason := match u with
    | missing => "[Errno 2] No such file or directory: "
    | directory => "[Errno 21] Is a directory: "
    | blocked => "[Errno 20] Not a directory: "
  .ofList (reason.toList ++ Text.quote p.text.toList)

/-- The text of a description: that of a file, or for a dash the standard input. The log file has been
opened before. -/
def source (around : Surroundings) (opened : Option Path) (file : String) :
    Except Breakdown (Except Unreadable (List Char)) :=
  if file = "-" then .ok (.ok around.input)
  else if '\x00' ∈ file.toList then .error .path
  else
    match Entry.after around.look opened (.ofString file) with
    | .missing => .ok (.error .missing)
    | .directory => .ok (.error .directory)
    | .blocked => .ok (.error .blocked)
    | .file bytes =>
      match String.fromUTF8? bytes with
      | some text => .ok (.ok (Text.unifyReturns text.toList))
      | none => .error .encoding

def readFailed (file : String) (u : Unreadable) : Log.Event :=
  ⟨.error, "sdp_read_failed",
    [("path", .text file), ("error", .text (u.message (.ofString file)))]⟩

def parseFailed (file : String) (f : Failure) : Log.Event :=
  ⟨.error, "sdp_parse_failed",
    [("path", .text file),
      ("line_number", match f.line with | some n => .int n | none => .null),
      ("offending_text", .text f.fault.text),
      ("error", .text f.fault.cause.message)]⟩

/-- Reads and summarises the text of a description, once logging is set up. -/
def digest (around : Surroundings) (r : Log.Router) (policy : Policy) (file : String)
    (text : List Char) : Transcript :=
  let (events, result) := Session.parse policy text
  match result with
  | .ok parsed =>
    let (r, lines) := r.writeAll around.layout (events.map Session.Event.entry)
    { stdout := lines ++ parsed.session.overview.map .ofList, files := r.files, ending := .status 0 }
  | .error f =>
    let (r, lines) :=
      r.writeAll around.layout (events.map Session.Event.entry ++ [parseFailed file f])
    { stdout := lines, stderr := [.ofList ("error: ".toList ++ f.report)], files := r.files,
      ending := .status 2 }

/-- The run after the settings have been loaded. -/
def proceed (around : Surroundings) (s : Settings) (file : String) : Transcript :=
  match ({} : Log.Router).configure around.look s.logging.setup with
  | .error e => { ending := .breakdown (.log e) }
  | .ok r =>
    match source around s.logging.setup.sink.path? file with
    | .error b => { files := r.files, ending := .breakdown b }
    | .ok (.error u) =>
      let (r, lines) := r.writeAll around.layout [readFailed file u]
      { stdout := lines, files := r.files, ending := .status 2 }
    | .ok (.ok text) => digest around r s.parser file text

/-- Runs a command line. -/
def run (around : Surroundings) (arguments : List String) : Transcript :=
  match read arguments with
  | .error _ => { stderr := usage, ending := .immediate 2 }
  | .ok .help => { stdout := usage, ending := .immediate 0 }
  | .ok .version => { stdout := [version], ending := .immediate 0 }
  | .ok (.run o) =>
    let path := Settings.filePath o.config around.environment around.defaultConfig
    let entry := around.look (.ofString path)
    let (early, loaded) := Settings.load around.markup path entry around.environment
    match loaded with
    | .error e => { early, stderr := ["설정 로드 실패: " ++ e.message], ending := .status 1 }
    | .ok s => { proceed around (override s o) o.file with early }

end Sdp.Command
