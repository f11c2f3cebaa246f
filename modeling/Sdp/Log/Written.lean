import Sdp.Log.Router

/-!
# What is written

The lines that a setup makes of some events, and where they stand.
-/

namespace Sdp.Log.Setup

/-- The events that reach the threshold. -/
def written (s : Setup) (events : List Event) : List Event :=
  events.filter fun e => s.threshold.severity ≤ e.level.severity

def lines (s : Setup) (layout : Layout) (events : List Event) : List String :=
  (s.written events).map (line layout s.format [])

/-- The lines on the standard output. -/
def shown (s : Setup) (layout : Layout) (events : List Event) : List String :=
  match s.sink with
  | .stdout => s.lines layout events
  | .file _ => []

/-- The files with lines, of which there is at most one. -/
def filed (s : Setup) (layout : Layout) (events : List Event) : List (Path × List String) :=
  match s.sink with
  | .stdout => []
  | .file path => [(Router.target path, s.lines layout events)]

/-- The path that lines go to is a relative one, and a file there can be opened for more lines. -/
def Writable (s : Setup) (look : Path → Entry) : Prop :=
  ∀ path, s.sink = .file path → path.toList.head? ≠ some '/' ∧ '\x00' ∉ path.toList ∧
    Router.admits look (Router.target path) = .ok ()

end Sdp.Log.Setup
