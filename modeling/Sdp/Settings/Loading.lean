import Sdp.Path
import Sdp.Settings.Environment
import Sdp.Yaml.Document

/-!
# Loading settings

Settings are read from a file and overridden by the environment. The file is the one asked for, or
the one that a variable names, or the default.
-/

namespace Sdp.Settings

/-- The file that is read if none is named. -/
def defaultPath : String := "config/config.yaml"

/-- Why settings cannot be loaded. -/
inductive Failure where
  | missing (path : String)
  | directory (path : String)
  | notDirectory (path : String)
  | encoding
  | markup (flaw : Yaml.Flaw)
  | notMapping (path : String)
  | invalid (issues : List Issue)

/-- The number of issues, with its noun. -/
def countIssues (issues : List Issue) : List Char :=
  Numeral.decimal issues.length ++
    (if issues.length = 1 then " validation error" else " validation errors").toList

def Failure.message : Failure → String
  | missing path =>
    "설정 파일을 찾을 수 없습니다: " ++ path ++
      "\nconfig/config.example.yaml을 복사하여 config/config.yaml을 생성하세요."
  | directory path => .ofList ("[Errno 21] Is a directory: ".toList ++ Text.quote path.toList)
  | notDirectory path => .ofList ("[Errno 20] Not a directory: ".toList ++ Text.quote path.toList)
  | encoding => "invalid UTF-8"
  | markup .grammar => "invalid YAML"
  | markup .key => "keywords must be strings"
  | notMapping path => "설정 파일 최상위는 매핑이어야 합니다: " ++ path
  | invalid issues => .ofList (countIssues issues ++ " for Config".toList)

/-- The path of the settings file; empty names count as none. -/
def filePath (asked : Option String) (env : Environment) (default : String) : String :=
  ((asked.filter (!·.isEmpty)) <|> ((env.lookup pathVariable).filter (!·.isEmpty))).getD default

/-- A way to read the text of a settings file. -/
abbrev Markup := List Char → Except Yaml.Flaw Content

/-- The sections in a file. A file that says nothing has none. -/
def readSections (markup : Markup) (path : String) : Entry → Except Failure Document
  | .missing | .blocked => .error (.missing path)
  | .directory => .error (.directory path)
  | .file bytes =>
    if Path.endsInSlash path then .error (.notDirectory path)
    else
      match String.fromUTF8? bytes with
      | none => .error .encoding
      | some text =>
        match markup text.toList with
        | .error flaw => .error (.markup flaw)
        | .ok .nothing => .ok {}
        | .ok (.mapping d) => .ok d
        | .ok .other => .error (.notMapping path)

/-- The location of an issue, with points between the names. -/
def Issue.path (i : Issue) : String :=
  ".".intercalate i.location

def failedEvent (path : String) (issues : List Issue) : Log.Event :=
  ⟨.error, "config_validation_failed",
    [("path", .text path), ("fields", .list (issues.map fun i => .text i.path))]⟩

def loadedEvent (path : String) (s : Settings) : Log.Event :=
  ⟨.debug, "config_loaded",
    [("path", .text path), ("mode", .text s.parser.mode.word),
      ("max_warnings", .int s.parser.maxWarnings)]⟩

/-- Loads settings from the file at `path`, of which `entry` is what stands there. -/
def load (markup : Markup) (path : String) (entry : Entry) (env : Environment) :
    List Log.Event × Except Failure Settings :=
  match readSections markup path entry with
  | .error e => ([], .error e)
  | .ok d =>
    match ofSections (override d env).fields with
    | .error issues => ([failedEvent path issues], .error (.invalid issues))
    | .ok s => ([loadedEvent path s], .ok s)

end Sdp.Settings
