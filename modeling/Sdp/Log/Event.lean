import Sdp.Data.Value

/-!
# Log events

An event has a level, a name and named values.
-/

namespace Sdp.Log

inductive Level where
  | debug
  | info
  | warning
  | error
  | critical
deriving DecidableEq, Repr

namespace Level

def all : List Level := [.debug, .info, .warning, .error, .critical]

/-- The name used in settings and on the command line. -/
def keyword : Level → String
  | debug => "DEBUG"
  | info => "INFO"
  | warning => "WARNING"
  | error => "ERROR"
  | critical => "CRITICAL"

/-- The name written in log lines. -/
def word : Level → String
  | debug => "debug"
  | info => "info"
  | warning => "warning"
  | error => "error"
  | critical => "critical"

def severity : Level → Nat
  | debug => 10
  | info => 20
  | warning => 30
  | error => 40
  | critical => 50

end Level

structure Event where
  level : Level
  name : String
  fields : Fields := []

/-- The event of a call about an exception: an error, marked as such unless the caller has seen to that. -/
def Event.exception (name : String) (fields : Fields) : Event where
  level := .error
  name := name
  fields := if (fields.get? "exc_info").isSome then fields else fields ++ [("exc_info", .bool true)]

end Sdp.Log
