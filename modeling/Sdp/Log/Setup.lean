import Sdp.Log.Event
import Sdp.Text.Casing

/-!
# Log setups

A setup says which events are written, how, and where to.
-/

namespace Sdp.Log

/-- How a line is laid out. -/
inductive Format where
  | json
  | text
deriving DecidableEq, Repr

namespace Format

def all : List Format := [.json, .text]

def word : Format → String
  | json => "json"
  | text => "text"

end Format

/-- The kinds of places that lines go to. -/
inductive Output where
  | stdout
  | file
deriving DecidableEq, Repr

namespace Output

def all : List Output := [.stdout, .file]

def word : Output → String
  | stdout => "stdout"
  | file => "file"

end Output

/-- Where lines go: the standard output, or the file at a path. -/
inductive Sink where
  | stdout
  | file (path : String)
deriving DecidableEq, Repr

/-- The file that is written to if none is named. -/
def defaultFile : String := "logs/sdpattr.log"

structure Setup where
  threshold : Level
  format : Format
  sink : Sink
deriving DecidableEq, Repr

/-- The place for an output, where an empty file name counts as none. -/
def Sink.of (output : Output) (path : Option String) : Sink :=
  match output with
  | .stdout => .stdout
  | .file => .file ((path.filter (!·.isEmpty)).getD defaultFile)

/-- The level of a name in any letter case; an unknown name stands for the level of information. -/
def Level.named (s : String) : Level :=
  (Text.matchUpper all keyword s.toList).getD .info

/-- The setup of some names: unknown formats are text, unknown outputs the standard output. -/
def Setup.named (level format output : String) (path : Option String) : Setup where
  threshold := .named level
  format := if format = Format.json.word then .json else .text
  sink := .of (if output = Output.file.word then .file else .stdout) path

end Sdp.Log
