import Sdp.Settings.Setting
import Sdp.Text.Spelling

/-!
# Settings from two sources

A setting may be given by a variable or in a file. A text in a file is taken as it stands; one in a variable
only if it stands for nothing else.
-/

namespace Sdp

open Settings (Environment)

/-- The last variable for the setting has the text `p`. -/
def Setting.IsGiven (x : Setting) (env : Environment) (p : String) : Prop :=
  ∃ front name back, env = front ++ (name, p) :: back ∧ x.IsNamedBy name ∧
    ∀ later ∈ back, ¬ x.IsNamedBy later.1

/-- The variables without those for the setting. -/
def Setting.withoutVariables (x : Setting) (env : Environment) : Environment :=
  env.filter fun assigned => !decide (x.IsNamedBy assigned.1)

namespace Settings

/-- The words for truth values. -/
def truthWords : List String := ["true", "yes", "false", "no"]

/-- No truth value in any letter case, no integer and no real number. -/
structure StandsForItself (p : String) : Prop where
  word : ∀ w ∈ truthWords, ¬ Text.IsLowerSpelling w.toList p.toList
  integer : Numeral.readInteger? p.toList = none
  real : Numeral.readReal? p.toList = none

/-- The sections are records of their own; the one setting is `v` in them, and every other is what it was. -/
structure Restated (x : Setting) (v : Value) (d d' : Document) : Prop where
  apart : d'.Apart sectionNames
  records : ∀ name ∈ sectionNames, ¬ Misshapen d'.fields name
  self : (fieldsOf d'.fields x.home).get? x.key = some v
  others : ∀ y ≠ x, (fieldsOf d'.fields y.home).get? y.key = (fieldsOf d.fields y.home).get? y.key

/-- Sections and variables with which the settings can be loaded, whatever the setting `x` is given. No
mapping stands in both sections. -/
structure ValidBut (x : Setting) (d : Document) (env : Environment) : Prop where
  apart : d.Apart sectionNames
  records : ∀ name ∈ sectionNames, ¬ Misshapen d.fields name
  others : ∀ y ≠ x, ∀ v, y.raw? d.fields env = some v → (y.check v).isOk

end Settings

end Sdp
