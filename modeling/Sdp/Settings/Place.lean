import Sdp.Settings.Setting

/-!
# Places that can be invalid

What can be wrong with some sections, told without reading them: a section is no record, or a setting has a
value that it does not accept.
-/

namespace Sdp

open Settings

/-- The setting accepts the value. A number of warnings is an integer by the rules for integers. -/
def Setting.Accepts : Setting → Value → Prop
  | .mode, v => ∃ mode : Mode, v = .text mode.word
  | .maxWarnings, v => ∃ n : Int, checkInt v = .ok n ∧ 0 ≤ n ∧ n ≤ Policy.warningLimit
  | .level, v => ∃ level : Log.Level, v = .text level.keyword
  | .format, v => ∃ format : Log.Format, v = .text format.word
  | .output, v => ∃ output : Log.Output, v = .text output.word
  | .filePath, v => v = .null ∨ ∃ path, v = .text path

theorem Settings.isOk_checkWord_iff {α : Type} {all : List α} {word : α → String} (hall : ∀ a, a ∈ all)
    (v : Value) : (checkWord all word v).isOk ↔ ∃ a, v = .text (word a) := by
  cases v with
  | text s =>
      rw [checkWord]
      cases hfind : all.find? fun a => word a == s with
      | some a =>
          have ha : word a = s := by simpa using List.find?_some hfind
          exact iff_of_true rfl ⟨a, by rw [ha]⟩
      | none =>
          refine iff_of_false nofun fun ⟨a, ha⟩ => ?_
          cases ha
          simpa using List.find?_eq_none.mp hfind a (hall a)
  | _ => exact iff_of_false nofun nofun

theorem Settings.isOk_checkWarnings_iff (v : Value) :
    (checkWarnings v).isOk ↔ ∃ n : Int, checkInt v = .ok n ∧ 0 ≤ n ∧ n ≤ Policy.warningLimit := by
  rw [checkWarnings]
  cases checkInt v with
  | error violation => exact iff_of_false nofun nofun
  | ok n =>
      simp only [Except.bind, Except.ok.injEq, exists_eq_left']
      split
      · next h => exact iff_of_false nofun fun hn => absurd hn.1 (Int.not_le.mpr h)
      · next h =>
          split
          · next hlarge => exact iff_of_false nofun fun hn => absurd hn.2 (Int.not_le.mpr hlarge)
          · next hlarge => exact iff_of_true rfl ⟨Int.not_lt.mp h, Int.not_lt.mp hlarge⟩

/-- The rule for a setting takes just the values that the setting accepts. -/
theorem Setting.isOk_check_iff (x : Setting) (v : Value) : (x.check v).isOk ↔ x.Accepts v := by
  cases x with
  | mode => exact isOk_checkWord_iff (by rintro ⟨⟩ <;> decide) v
  | maxWarnings => exact isOk_checkWarnings_iff v
  | level => exact isOk_checkWord_iff (by rintro ⟨⟩ <;> decide) v
  | format => exact isOk_checkWord_iff (by rintro ⟨⟩ <;> decide) v
  | output =>
      have hall : ∀ a : Log.Output, a ∈ Log.Output.all := by rintro ⟨⟩ <;> decide
      rw [Accepts, ← isOk_checkWord_iff hall v]
      cases v with
      | text s =>
          rw [check, checkOutput, checkWord]
          cases Log.Output.all.find? fun a => a.word == s <;> rfl
      | _ => exact Iff.rfl
  | filePath => cases v <;> simp [check, checkPath, Accepts, Except.isOk, Except.toBool]

instance (x : Setting) (v : Value) : Decidable (x.Accepts v) :=
  decidable_of_iff _ (x.isOk_check_iff v)

namespace Settings

instance (v : Value) : Decidable (∀ fields, v ≠ .record fields) :=
  match v with
  | .record fields => isFalse fun h => h fields rfl
  | .null | .bool _ | .int _ | .real _ | .text _ | .date _ | .list _ => isTrue nofun

instance (sections : Fields) (name : String) : Decidable (Misshapen sections name) :=
  inferInstanceAs (Decidable (∃ v, v ∈ sections.get? name ∧ ∀ fields, v ≠ .record fields))

/-- A section as a whole, or one setting. -/
inductive Place where
  | whole (name : String)
  | single (x : Setting)
deriving DecidableEq, Repr

namespace Place

/-- The sections in their order, and behind each its settings in the order of declaration. -/
def all : List Place :=
  [.whole "parser", .single .mode, .single .maxWarnings,
    .whole "logging", .single .level, .single .format, .single .output, .single .filePath]

def location : Place → List String
  | whole name => [name]
  | single x => [x.home, x.key]

/-- A section is no record; a setting stands in one and has a value that it does not accept. -/
def IsInvalid (sections : Fields) : Place → Prop
  | whole name => Misshapen sections name
  | single x => ∃ v, v ∈ (fieldsOf sections x.home).get? x.key ∧ ¬ x.Accepts v

instance (sections : Fields) : DecidablePred (IsInvalid sections)
  | whole name => inferInstanceAs (Decidable (Misshapen sections name))
  | single x => inferInstanceAs (Decidable (∃ v, v ∈ (fieldsOf sections x.home).get? x.key ∧ ¬ x.Accepts v))

end Place

end Settings

end Sdp
