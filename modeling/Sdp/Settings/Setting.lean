import Sdp.Settings.Loading

/-!
# Single settings

The six settings, each with its place, its rule and its default, and what each is given: by the last
variable that is named for it, or else by the file.
-/

namespace Sdp

open Settings Text

inductive Setting where
  | mode
  | maxWarnings
  | level
  | format
  | output
  | filePath
deriving DecidableEq, Repr

namespace Setting

/-- The section that the setting stands in. -/
def home : Setting → String
  | mode | maxWarnings => "parser"
  | level | format | output | filePath => "logging"

/-- Its name there. -/
def key : Setting → String
  | mode => "mode"
  | maxWarnings => "max_warnings"
  | level => "level"
  | format => "format"
  | output => "output"
  | filePath => "file_path"

/-- What its values mean. -/
abbrev Meaning : Setting → Type
  | mode => Mode
  | maxWarnings => Nat
  | level => Log.Level
  | format => Log.Format
  | output => Log.Output
  | filePath => Option String

/-- The rule for its values. -/
def check : (x : Setting) → Check x.Meaning
  | mode => checkWord Mode.all Mode.word
  | maxWarnings => checkWarnings
  | level => checkWord Log.Level.all Log.Level.keyword
  | format => checkWord Log.Format.all Log.Format.word
  | output => checkOutput
  | filePath => checkPath

end Setting

def Settings.get (s : Settings) : (x : Setting) → x.Meaning
  | .mode => s.parser.mode
  | .maxWarnings => s.parser.maxWarnings
  | .level => s.logging.level
  | .format => s.logging.format
  | .output => s.logging.output
  | .filePath => s.logging.filePath

namespace Setting

/-- What it is if nothing is given. -/
def default (x : Setting) : x.Meaning :=
  ({} : Settings).get x

/-- A variable is named for the setting: behind the prefix its name is section, underscore and key in
lower case. The variable that names the file is for none. -/
def IsNamedBy (x : Setting) (name : String) : Prop :=
  name ≠ pathVariable ∧
    ∃ rest, name.toList = variablePrefix ++ rest ∧ lower rest = x.home.toList ++ '_' :: x.key.toList

instance (x : Setting) (name : String) : Decidable (x.IsNamedBy name) :=
  decidable_of_iff
    (name ≠ pathVariable ∧ variablePrefix <+: name.toList ∧
      lower (name.toList.drop variablePrefix.length) = x.home.toList ++ '_' :: x.key.toList)
    (and_congr_right fun _ =>
      ⟨fun ⟨⟨rest, hname⟩, h⟩ => ⟨rest, hname.symm, by simpa [← hname] using h⟩,
        fun ⟨rest, hname, h⟩ => ⟨⟨rest, hname.symm⟩, by simpa [hname] using h⟩⟩)

/-- What the last variable for the setting stands for, if there is one. -/
def given? (x : Setting) (env : Environment) : Option Value :=
  ((env.filter fun assigned => x.IsNamedBy assigned.1).getLast?).map fun assigned =>
    valueOf assigned.2.toList

end Setting

namespace Settings

/-- A section is there and is no record. -/
def Misshapen (sections : Fields) (name : String) : Prop :=
  ∃ v, sections.get? name = some v ∧ ∀ fields, v ≠ .record fields

/-- The fields of a section; none if it is not there or no record. -/
def fieldsOf (sections : Fields) (name : String) : Fields :=
  match sections.get? name with
  | some (.record fields) => fields
  | _ => []

end Settings

namespace Setting

/-- What the setting is given, before its rule is asked: the environment comes before the file. -/
def raw? (x : Setting) (sections : Fields) (env : Environment) : Option Value :=
  x.given? env <|> (fieldsOf sections x.home).get? x.key

/-- The setting has the value `a` if it is given `raw`. -/
def Takes (x : Setting) (raw : Option Value) (a : x.Meaning) : Prop :=
  match raw with
  | none => a = x.default
  | some v => x.check v = .ok a

end Setting

end Sdp
