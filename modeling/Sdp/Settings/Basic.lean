import Sdp.Log.Setup
import Sdp.Session.Basic

/-!
# Settings

What a user can set: the policy of the reader, and where and how events are logged.
-/

namespace Sdp

namespace Mode

def all : List Mode := [.strict, .lenient]

def word : Mode → String
  | strict => "strict"
  | lenient => "lenient"

end Mode

/-- The largest number of warnings that may be asked for. -/
def Policy.warningLimit : Nat := 10000

structure LogSettings where
  level : Log.Level := .info
  format : Log.Format := .json
  output : Log.Output := .stdout
  filePath : Option String := none
deriving DecidableEq, Repr

structure Settings where
  parser : Policy := {}
  logging : LogSettings := {}
deriving DecidableEq, Repr

def LogSettings.setup (s : LogSettings) : Log.Setup where
  threshold := s.level
  format := s.format
  sink := .of s.output s.filePath

end Sdp
