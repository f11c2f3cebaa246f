import Sdp.Settings.Validation

/-!
# Changing settings

A loaded configuration changes as something is assigned to one of its names or as the command line overrides a
setting. A change that is refused leaves all as it was, except that an override of the mode comes first and
stays.
-/

namespace Sdp.Settings

/-- What is assigned to a name: data, or a section that has been made before, with what it holds by then. -/
inductive Assigned where
  | data (v : Value)
  | policy (p : Policy)
  | logging (l : LogSettings)

namespace Assigned

/-- The policy that is assigned. One that has been made before is taken without another look at it. -/
def readPolicy : Assigned → Validated Policy
  | data v => ofRecord Settings.readPolicy v
  | policy p => .ok p
  | logging _ => .error [⟨[], .notRecord⟩]

/-- The settings of the log that are assigned. -/
def readLogging : Assigned → Validated LogSettings
  | data v => ofRecord Settings.readLogging v
  | policy _ => .error [⟨[], .notRecord⟩]
  | logging l => .ok l

end Assigned

/-- A name for notes of one's own, which are no settings. -/
def isPrivate (name : String) : Bool :=
  name.toList.head? = some '_'

/-- Assigns to a name. A section is replaced, and settings that are absent in data get their defaults. -/
def assign (s : Settings) (name : String) (v : Assigned) : Validated Settings :=
  if name = "parser" then (under name v.readPolicy).map fun p => { s with parser := p }
  else if name = "logging" then (under name v.readLogging).map fun l => { s with logging := l }
  else if isPrivate name then .ok s
  else .error [⟨[name], .unknownSection⟩]

/-- What overrides a setting that has the value `current`: nothing if no word is given or an empty
one, or else the meaning of the word. None if the word has no meaning. -/
def overridden? {α : Type} (all : List α) (word : α → String) (current : α) :
    Option String → Option α
  | none => some current
  | some w => if w.isEmpty then some current else all.find? fun a => word a == w

/-- Overrides mode and level by words: the settings after that, and whether both words were known.
The mode is overridden before the level is looked at. -/
def overrideWords (s : Settings) (mode level : Option String) : Settings × Bool :=
  match overridden? Mode.all Mode.word s.parser.mode mode with
  | none => (s, false)
  | some mode =>
    let s := { s with parser := { s.parser with mode } }
    match overridden? Log.Level.all Log.Level.keyword s.logging.level level with
    | none => (s, false)
    | some level => ({ s with logging := { s.logging with level } }, true)

end Sdp.Settings
