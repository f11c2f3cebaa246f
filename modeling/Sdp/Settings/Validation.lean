import Sdp.Data.Value
import Sdp.Settings.Basic
import Sdp.Text.Blank
import Sdp.Text.Quoted

/-!
# Validation

Every setting has a rule for the values it takes. All settings are looked at, and every one that
breaks its rule is reported, in the order of declaration. Unknown names are passed over, and a
setting that is absent has its default.
-/

namespace Sdp.Settings

/-- What can be wrong with a value. -/
inductive Violation where
  | notRecord
  | unknownWord
  | notNumber
  | notNumeral
  | tooLong
  | fractional
  | notFinite
  | negative
  | tooLarge
  | notText
  | unknownOutput (given : String)
  | unknownSection
deriving DecidableEq, Repr

namespace Violation

/-- The words for a value that is none of two. -/
def detail? : Violation → Option String
  | unknownOutput given =>
    some <| .ofList <|
      "Value error, output must be 'stdout' or 'file' (got ".toList ++ Text.quote given.toList ++ [')']
  | _ => none

end Violation

/-- What is wrong with a value, and where it stands. -/
structure Issue where
  location : List String
  violation : Violation
deriving DecidableEq, Repr

/-- Reads a setting from a value, or says what is wrong with that. -/
abbrev Check (α : Type) := Value → Except Violation α

/-! ## Integers -/

/-- Most characters of an integer that is given as text; a minus sign counts. -/
def maxLength : Nat := 4300

/-- Blanks that may stand around a number. -/
def isPadding (c : Char) : Bool :=
  Text.isBlank c && !(0x1C ≤ c.toNat && c.toNat ≤ 0x1F)

/-- A minus sign at the front, if there is one, and the rest. -/
def cutMinus : List Char → Bool × List Char
  | '-' :: rest => (true, rest)
  | rest => (false, rest)

/-- An integer without a plus sign and without zeros in front. The length of its digits is looked at
before anything that stands behind them. -/
def readExact (s : List Char) : Except Violation Int :=
  let (negative, digits) := cutMinus s
  let run := digits.takeWhile fun c => (Numeral.decimalDigit? c).isSome
  if digits.head? = some '0' ∧ digits.length > 1 then .error .notNumeral
  else if run.length + negative.toNat > maxLength then .error .tooLong
  else
    match Numeral.readDecimal? digits with
    | none => .error .notNumeral
    | some n => .ok (if negative then -(n : Int) else n)

/-- Drops zeros in front of a number, and underscores among them; `last` is the character just
dropped. A minus sign may follow them. A zero before a point stays, and so does the last character
of all. -/
def dropZeros? (last : Char) : List Char → Option (List Char)
  | [] => some [last]
  | c :: rest =>
    if c = '0' ∨ c = '_' then dropZeros? c rest
    else if ('1' ≤ c ∧ c ≤ '9') ∨ c = '-' then some (c :: rest)
    else if c = '.' then some (last :: c :: rest)
    else none

/-- Drops zeros in front of a number that starts with a digit. -/
def trimZeros? : List Char → Option (List Char)
  | [] => none
  | c :: rest =>
    if c = '0' then dropZeros? c rest
    else if '1' ≤ c ∧ c ≤ '9' then some (c :: rest)
    else none

/-- Drops a point and the zeros behind it, if there are any and nothing else is behind it. -/
def dropFraction (s : List Char) : List Char :=
  let fraction := (s.dropWhile (· ≠ '.')).drop 1
  if !fraction.isEmpty && fraction.all (· = '0') then s.takeWhile (· ≠ '.') else s

/-- Drops underscores, unless one is at an end or next to another. -/
def dropUnderscores (s : List Char) : List Char :=
  if (s.splitOn '_').all fun part => !part.isEmpty then s.filter (· ≠ '_') else s

/-- The number in a text with blanks around it, a plus sign, zeros in front, a fraction of zeros or
underscores. Zeros are dropped behind a minus sign as well. -/
def tidy? (s : List Char) : Option (List Char) :=
  let s := ((s.dropWhile isPadding).reverse.dropWhile isPadding).reverse
  let unsigned := match s with
    | '+' :: '-' :: _ => none
    | '+' :: rest => some rest
    | rest => some rest
  let trimmed := unsigned.bind fun s =>
    let (negative, digits) := cutMinus s
    (trimZeros? digits).map fun digits => if negative then '-' :: digits else digits
  trimmed.map fun s => dropUnderscores (dropFraction s)

/-- An integer given as text. -/
def readTidy (s : List Char) : Except Violation Int :=
  match readExact s with
  | .error .notNumeral =>
    match tidy? s with
    | some t => readExact t
    | none => .error .notNumeral
  | result => result

/-- The integer that a number is, if it has no fraction and fits sixty-four bits. -/
def ofReal (x : Numeral.Binary64) : Except Violation Int :=
  match x.view with
  | .nan => .error .notFinite
  | .infinite _ => .error .notFinite
  | .finite negative m q =>
    let num := m * Numeral.scale 2 q
    let den := Numeral.scale 2 (-q)
    let n := num / den
    if n * den ≠ num then .error .fractional
    else if 0x8000000000000000 ≤ n then .error .tooLong
    else .ok (if negative then -(n : Int) else n)

def checkInt : Check Int
  | .bool b => .ok (if b then 1 else 0)
  | .int n => .ok n
  | .real x => ofReal x
  | .text s => readTidy s.toList
  | _ => .error .notNumber

/-! ## Settings -/

/-- A number of warnings up to the limit. -/
def checkWarnings : Check Nat := fun v =>
  (checkInt v).bind fun n =>
    if n < 0 then .error .negative
    else if (Policy.warningLimit : Int) < n then .error .tooLarge
    else .ok n.toNat

/-- One of a few words, exactly as it is spelled. -/
def checkWord {α : Type} (all : List α) (word : α → String) : Check α
  | .text s =>
    match all.find? fun a => word a == s with
    | some a => .ok a
    | none => .error .unknownWord
  | _ => .error .unknownWord

def checkOutput : Check Log.Output
  | .text s =>
    match Log.Output.all.find? fun a => a.word == s with
    | some a => .ok a
    | none => .error (.unknownOutput s)
  | _ => .error .notText

def checkPath : Check (Option String)
  | .null => .ok none
  | .text s => .ok (some s)
  | _ => .error .notText

/-- The setting `name` among `fields`, or its default. -/
def setting {α : Type} (fields : Fields) (name : String) (default : α) (read : Check α) :
    Except Violation α :=
  match fields.get? name with
  | none => .ok default
  | some v => read v

/-- The issue of a setting, if it has one. -/
def issue {α : Type} (name : String) : Except Violation α → List Issue
  | .ok _ => []
  | .error violation => [⟨[name], violation⟩]

/-- A section of settings, or all its issues. -/
abbrev Validated (α : Type) := Except (List Issue) α

/-- A section has to be a record; `read` reads its fields. -/
def ofRecord {α : Type} (read : Fields → Validated α) : Value → Validated α
  | .record fields => read fields
  | _ => .error [⟨[], .notRecord⟩]

def readPolicy (fields : Fields) : Validated Policy :=
  let mode := setting fields "mode" .lenient (checkWord Mode.all Mode.word)
  let maxWarnings := setting fields "max_warnings" 100 checkWarnings
  match mode, maxWarnings with
  | .ok mode, .ok maxWarnings => .ok { mode, maxWarnings }
  | _, _ => .error (issue "mode" mode ++ issue "max_warnings" maxWarnings)

def readLogging (fields : Fields) : Validated LogSettings :=
  let level := setting fields "level" .info (checkWord Log.Level.all Log.Level.keyword)
  let format := setting fields "format" .json (checkWord Log.Format.all Log.Format.word)
  let output := setting fields "output" .stdout checkOutput
  let filePath := setting fields "file_path" none checkPath
  match level, format, output, filePath with
  | .ok level, .ok format, .ok output, .ok filePath => .ok { level, format, output, filePath }
  | _, _, _, _ =>
    .error (issue "level" level ++ issue "format" format ++ issue "output" output ++
      issue "file_path" filePath)

/-- Puts the issues of a section under its name. -/
def under {α : Type} (name : String) (v : Validated α) : Validated α :=
  v.mapError fun issues => issues.map fun i => { i with location := name :: i.location }

/-- The section `name`, or its default. -/
def readSection {α : Type} (sections : Fields) (name : String) (default : α)
    (read : Fields → Validated α) : Validated α :=
  match sections.get? name with
  | none => .ok default
  | some v => under name (ofRecord read v)

/-- The issues of a section, if it has any. -/
def issues {α : Type} : Validated α → List Issue
  | .ok _ => []
  | .error is => is

/-- The settings in some sections, or all their issues. -/
def ofSections (sections : Fields) : Validated Settings :=
  let parser := readSection sections "parser" {} readPolicy
  let logging := readSection sections "logging" {} readLogging
  match parser, logging with
  | .ok parser, .ok logging => .ok { parser, logging }
  | _, _ => .error (issues parser ++ issues logging)

end Sdp.Settings
