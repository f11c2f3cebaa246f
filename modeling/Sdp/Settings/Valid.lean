import Sdp.Settings.Change
import Sdp.Settings.Setting

/-!
# Settings under changes

A loaded configuration is changed step by step. A step that is refused is over at the point where it
is refused: an assignment has stored nothing by then, and an override may have stored a mode.
-/

namespace Sdp

/-- What the setting may be. -/
def Setting.Allows : (x : Setting) → x.Meaning → Prop
  | .mode, a => a ∈ Mode.all
  | .maxWarnings, a => a ≤ Policy.warningLimit
  | .level, a => a ∈ Log.Level.all
  | .format, a => a ∈ Log.Format.all
  | .output, a => a ∈ Log.Output.all
  | .filePath, _ => True

instance : (x : Setting) → (a : x.Meaning) → Decidable (x.Allows a)
  | .mode, a => inferInstanceAs (Decidable (a ∈ Mode.all))
  | .maxWarnings, a => inferInstanceAs (Decidable (a ≤ Policy.warningLimit))
  | .level, a => inferInstanceAs (Decidable (a ∈ Log.Level.all))
  | .format, a => inferInstanceAs (Decidable (a ∈ Log.Format.all))
  | .output, a => inferInstanceAs (Decidable (a ∈ Log.Output.all))
  | .filePath, _ => inferInstanceAs (Decidable True)

namespace Settings

/-- Every setting is something that it may be. -/
def Valid (s : Settings) : Prop :=
  ∀ x : Setting, x.Allows (s.get x)

inductive Change where
  | assign (name : String) (v : Assigned)
  | override (mode level : Option String)

/-- A name of the runtime: one between two underscores on either side, or the name of its own assignment. -/
def IsReserved (name : String) : Prop :=
  ("__".toList <+: name.toList ∧ "__".toList <:+ name.toList) ∨ name = "_setattr_handler"

/-- A section that has been made before holds nothing but what its settings may be. -/
def Assigned.Sound : Assigned → Prop
  | .data _ => True
  | .policy p => Valid { parser := p }
  | .logging l => Valid { logging := l }

def Change.Sound : Change → Prop
  | .assign name v => ¬ IsReserved name ∧ v.Sound
  | .override _ _ => True

/-- The settings after a step, whether it was refused or not. -/
def after (s : Settings) : Change → Settings
  | .assign name v => (s.assign name v).toOption.getD s
  | .override mode level => (s.overrideWords mode level).1

/-- The section `name` has been replaced by one with these fields, and no other has. -/
def Replaced (s : Settings) (name : String) (fields : Fields) (s' : Settings) : Prop :=
  name ∈ sectionNames ∧
    ∀ x : Setting, (x.home = name → x.Takes (fields.get? x.key) (s'.get x)) ∧
      (x.home ≠ name → s'.get x = s.get x)

/-- An assignment is accepted and makes the settings `s'`. -/
inductive Accepts (s : Settings) : String → Assigned → Settings → Prop where
  | data {name fields s'} (h : s.Replaced name fields s') : Accepts s name (.data (.record fields)) s'
  | policy (p : Policy) : Accepts s "parser" (.policy p) { s with parser := p }
  | logging (l : LogSettings) : Accepts s "logging" (.logging l) { s with logging := l }
  | note {name} (v : Assigned) (h : isPrivate name) : Accepts s name v s

end Settings

end Sdp
