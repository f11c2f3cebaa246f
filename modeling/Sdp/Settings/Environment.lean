import Sdp.Data.Document
import Sdp.Numeral.Literal
import Sdp.Settings.Validation
import Sdp.Text.Split

/-!
# Environment

A variable `SDPATTR_<SECTION>_<KEY>` gives a setting; section and key may be in any letter case.
Its value is taken for a truth value, an integer or a real number if it reads as one.
-/

namespace Sdp.Settings

open Text (lower cut)

/-- Variables in order, each name once. -/
abbrev Environment := List (String × String)

namespace Environment

/-- Gives a variable a value: in its place if it is there, at the end if it is not. -/
def set (env : Environment) (name value : String) : Environment :=
  match env with
  | [] => [(name, value)]
  | (n, v) :: rest => if n = name then (name, value) :: rest else (n, v) :: set rest name value

def ofList (assignments : List (String × String)) : Environment :=
  assignments.foldl (fun env (name, value) => env.set name value) []

end Environment

/-- What the names of the variables start with. -/
def variablePrefix : List Char := "SDPATTR_".toList

/-- The variable that names the settings file, and gives no setting. -/
def pathVariable : String := "SDPATTR_CONFIG_PATH"

/-- The sections that variables can give settings of. -/
def sectionNames : List String := ["parser", "logging"]

/-- Section and key of the setting that a variable gives, if it gives one. -/
def settingOf? (name : String) : Option (String × String) :=
  if name = pathVariable ∨ !variablePrefix.isPrefixOf name.toList then none
  else
    (cut '_' (lower (name.toList.drop variablePrefix.length))).bind fun (s, key) =>
      if .ofList s ∈ sectionNames ∧ !key.isEmpty then some (.ofList s, .ofList key) else none

/-- What the text of a variable stands for. -/
def valueOf (s : List Char) : Value :=
  if lower s ∈ ["true".toList, "yes".toList] then .bool true
  else if lower s ∈ ["false".toList, "no".toList] then .bool false
  else
    match Numeral.readInteger? s, Numeral.readReal? s with
    | some n, _ => .int n
    | none, some x => .real x
    | none, none => .text (.ofList s)

/-- The document overridden by the variables, one after another. -/
def override (d : Document) (env : Environment) : Document :=
  env.foldl
    (fun d (name, value) =>
      match settingOf? name with
      | some (s, key) => d.put s key (valueOf value.toList)
      | none => d)
    d

end Sdp.Settings
