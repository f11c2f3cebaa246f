import Sdp.Command.Run
import Std.Time.Format

/-!
# The program

What a run asks of the world is looked up beforehand, and what it leaves behind is written
afterwards; the run itself is `Command.run`.
-/

namespace Sdp.Command

/-- The paths that a run looks at, as far as they follow from what is known already. -/
def places (around : Surroundings) (arguments : List String) : List Path :=
  match read arguments with
  | .ok (.run o) =>
    let name := Settings.filePath o.config around.environment around.defaultConfig
    let config := Path.ofString name
    let loaded := Settings.load around.markup name (around.look config) around.environment
    let log := match loaded.2 with
      | .ok s =>
        match s.logging.setup.sink with
        | .file path => [Log.Router.target path, (Log.Router.target path).parent]
        | .stdout => []
      | .error _ => []
    config :: Path.ofString o.file :: (Path.ofString o.file).stages ++ log
  | _ => []

/-- What stands at a path. -/
def entryAt (p : Path) : IO Entry := do
  if '\x00' ∈ p.text.toList then return .missing
  try
    return .file (← IO.FS.readBinFile p.text)
  catch
    | .noFileOrDirectory .. => return .missing
    | .inappropriateType _ 21 _ => return .directory
    | .inappropriateType .. => return .blocked
    | e => throw e

/-- What stands at the places of a run. The place of the log follows from the settings, so there
are two rounds. -/
def survey (around : Surroundings) (arguments : List String) : IO (Path → Entry) := do
  let mut known : List (Path × Entry) := []
  for _ in [0, 1] do
    let look := fun p => (known.lookup p).getD .missing
    let mut found := known
    for p in places { around with look } arguments do
      if (found.lookup p).isNone then found := (p, ← entryAt p) :: found
    known := found
  let entries := known
  return fun p => (entries.lookup p).getD .missing

/-- The variables of the process, in order. -/
def environment : IO Settings.Environment := do
  let bytes ← try IO.FS.readBinFile "/proc/self/environ" catch _ => pure .empty
  let texts := (bytes.toList.splitOn 0).filterMap fun b => String.fromUTF8? ⟨b.toArray⟩
  return .ofList <| texts.filterMap fun text =>
    (Text.cut '=' text.toList).map fun (name, value) => (.ofList name, .ofList value)

/-- What the fields of a record say on a console: time, level, event and whatever else there is. -/
def consoleLine (fields : Fields) : String :=
  let word := fun name => match fields.get? name with
    | some (.text s) => s
    | _ => ""
  let others := fields.filter fun field => field.1 ∉ ["timestamp", "level", "event"]
  " ".intercalate <|
    [word "timestamp", "[" ++ word "level" ++ "]", word "event"] ++
      others.map fun (name, v) => name ++ "=" ++ .ofList (Json.layOut v)

/-- The time, to the microsecond, and lines for a console. -/
def layout : IO Log.Layout := do
  let now := Std.Time.PlainDateTime.ofWallTime ((← Std.Time.Timestamp.now).toWallTime .zero)
  return { stamp := now.format "uuuu-MM-dd'T'HH:mm:ss.SSSSSS'Z'", console := consoleLine }

/-- The standard input, if it is asked for. -/
def input (arguments : List String) : IO (List Char) := do
  match read arguments with
  | .ok (.run o) =>
    if o.file = "-" then return Text.unifyReturns (← (← IO.getStdin).readToEnd).toList
    else return []
  | _ => return []

def Breakdown.message : Breakdown → String
  | encoding => "invalid UTF-8"
  | path => "embedded null byte"
  | log .directory => "the log file is a directory"
  | log .parentFile => "the directory of the log file is a file"
  | log .blocked => "the directory of the log file cannot be made"

/-- Writes what a run leaves behind: its exit status. -/
def deliver (layout : Log.Layout) (t : Transcript) : IO UInt32 := do
  for (p, ls) in t.files do
    IO.FS.createDirAll p.parent.text
    IO.FS.withFile p.text .append fun h => do
      for l in ls do
        h.putStrLn l
  for l in (({} : Log.Router).writeAll layout t.early).2 ++ t.stdout do
    IO.println l
  for l in t.stderr do
    IO.eprintln l
  match t.ending with
  | .status code | .immediate code => return .ofNat code
  | .breakdown b =>
    IO.eprintln b.message
    return 1

end Sdp.Command

def main (arguments : List String) : IO UInt32 := do
  let layout ← Sdp.Command.layout
  let environment ← Sdp.Command.environment
  let input ← Sdp.Command.input arguments
  let around : Sdp.Command.Surroundings :=
    { environment, look := fun _ => .missing, input, layout }
  let look ← Sdp.Command.survey around arguments
  Sdp.Command.deliver layout (Sdp.Command.run { around with look } arguments)
