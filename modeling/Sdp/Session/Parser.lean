import Sdp.Session.Event
import Sdp.Session.Line
import Sdp.Text.Line

/-!
# Reading descriptions

A description is read line by line up to the first line that is refused. What a line says goes to
the session, or to the last media description that has been opened.
-/

namespace Sdp.Session

/-- Changes the last media description; a session without any stays as it is. -/
def updateLast (f : Media → Media) : List Media → List Media
  | [] => []
  | [m] => [f m]
  | m :: rest => m :: updateLast f rest

/-- Adds what a line says. -/
def add (s : Session) : Item → Session
  | .nothing => s
  | .version value => { s with version := value }
  | .origin value => { s with origin := some value }
  | .name value => { s with name := value }
  | .timing value => { s with timing := value }
  | .media m => { s with media := s.media ++ [m] }
  | .connection address =>
    if s.media.isEmpty then { s with connection := some address }
    else { s with media := updateLast (fun m => { m with connection := some address }) s.media }
  | .attr a =>
    if s.media.isEmpty then { s with attributes := s.attributes ++ [a] }
    else
      { s with media := updateLast (fun m => { m with attributes := m.attributes ++ [a] }) s.media }

/-- Records faults on a line as warnings, as far as there is room for them. -/
def warn (s : Session) (limit line : Nat) (faults : List (Fault Defect)) : Session :=
  { s with
    warnings := s.warnings ++ (faults.map (Warning.mk line)).take (limit - s.warnings.length) }

/-- The events of a line that is refused: only attributes are reported. -/
def rejection (line : Nat) : Fault Problem → List Event
  | ⟨.defect d, text⟩ => [.rejected line ⟨d, text⟩]
  | _ => []

/-- The event at the end of a description. -/
def summary (s : Session) : Event :=
  .parsed s.media.length s.attributes.length s.warnings.length

/-- Reads the lines from number `n` on into a session. -/
def readLines (policy : Policy) (s : Session) (n : Nat) :
    List (List Char) → List Event × Except Failure Session
  | [] => ([s.summary], .ok s)
  | line :: rest =>
    let r := LineReading.ofLine policy.mode line
    let skipped := r.skipped.map (Event.skipped n)
    match r.item with
    | .error e => (skipped ++ rejection n e, .error ⟨e, some n⟩)
    | .ok item =>
      let (events, result) :=
        readLines policy ((s.warn policy.maxWarnings n r.skipped).add item) (n + 1) rest
      (skipped ++ events, result)

/-- Reads a description: the events on the way, and the session or what ended the reading. -/
def read (policy : Policy) (text : List Char) : List Event × Except Failure Session :=
  if (Text.trim text).isEmpty then ([], .error ⟨⟨.blank, ""⟩, none⟩)
  else readLines policy {} 1 (Text.lines text)

/-- A session together with the text that it has been read from. -/
structure Parsed where
  session : Session
  raw : String

/-- Reads a description and keeps its text. -/
def parse (policy : Policy) (text : List Char) : List Event × Except Failure Parsed :=
  let (events, result) := read policy text
  (events, result.map fun session => { session, raw := .ofList text })

end Sdp.Session
