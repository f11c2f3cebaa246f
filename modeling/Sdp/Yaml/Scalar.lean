import Sdp.Data.Value
import Sdp.Numeral.Literal

/-!
# Scalars

What a scalar without quotes stands for: nothing, a truth value, a number, a date, or else its own
text. Numbers may have underscores, a base, or parts to the base of sixty.
-/

namespace Sdp.Yaml

open Numeral (Binary64 cutSign ofDigits decimalDigit? hexDigit?)

def nullWords : List String := ["", "~", "null", "Null", "NULL"]

def trueWords : List String :=
  ["yes", "Yes", "YES", "true", "True", "TRUE", "on", "On", "ON"]

def falseWords : List String :=
  ["no", "No", "NO", "false", "False", "FALSE", "off", "Off", "OFF"]

/-- A truth value spelled as a word. -/
def readBool? (s : List Char) : Option Bool :=
  if .ofList s ∈ trueWords then some true
  else if .ofList s ∈ falseWords then some false
  else none

/-- The value of digits below `base`, of which there is at least one character; underscores are
passed over. -/
def readBase? (base : Nat) (s : List Char) : Option Nat :=
  if s.isEmpty then none
  else
    ((s.filter (· ≠ '_')).mapM fun c => (hexDigit? c).filter (· < base)).map (ofDigits base)

/-- Digits that start with a digit, with underscores among them. -/
def readPlain? (s : List Char) : Option Nat :=
  match s with
  | '_' :: _ => none
  | s => readBase? 10 s

/-- A part to the base of sixty: one digit, or two of which the first is below six. -/
def readSixtieth? : List Char → Option Nat
  | [a] => decimalDigit? a
  | [a, b] => do
    let a ← (decimalDigit? a).filter (· < 6)
    return a * 10 + (← decimalDigit? b)
  | _ => none

/-- Two or more parts to the base of sixty with colons between them. -/
def readSexagesimal? (s : List Char) : Option Nat :=
  match s.splitOn ':' with
  | first :: second :: rest => do
    let first ← readPlain? first
    let parts ← (second :: rest).mapM readSixtieth?
    return ofDigits 60 (first :: parts)
  | _ => none

/-- An integer without its sign. A zero in front makes it octal. -/
def readNatural? (s : List Char) : Option Nat :=
  match s with
  | '0' :: 'b' :: rest => readBase? 2 rest
  | '0' :: 'x' :: rest => readBase? 16 rest
  | ['0'] => some 0
  | '0' :: rest => readBase? 8 rest
  | s => readPlain? s <|> readSexagesimal? s

def readInteger? (s : List Char) : Option Int :=
  let (negative, rest) := cutSign s
  (readNatural? rest).map fun n => if negative then -(n : Int) else n

/-- The exponent of a number with a point: nothing, or the letter e, a sign and digits. -/
def readExponent? : List Char → Option Int
  | [] => some 0
  | e :: sign :: digits =>
    if (e = 'e' ∨ e = 'E') ∧ (sign = '-' ∨ sign = '+') then
      (Numeral.readDecimal? digits).map fun n => if sign = '-' then -(n : Int) else n
    else none
  | _ => none

/-- Whether a character may stand among the digits of a fraction. -/
def isFractionChar (c : Char) : Bool :=
  c = '_' || (decimalDigit? c).isSome

/-- The value of `whole` and the fraction that `rest` starts with. -/
def readFraction? (negative : Bool) (whole : Nat) (rest : List Char) : Option Binary64 :=
  let fraction := (rest.takeWhile isFractionChar).filterMap decimalDigit?
  (readExponent? (rest.dropWhile isFractionChar)).map fun e =>
    .ofDecimal negative (fraction.foldl (fun value d => value * 10 + d) whole) (e - fraction.length)

/-- A real number, which always has a point. -/
def readReal? (s : List Char) : Option Binary64 :=
  let (negative, rest) := cutSign s
  if .ofList rest ∈ [".inf", ".Inf", ".INF"] then some (.infinity negative)
  else if .ofList s ∈ [".nan", ".NaN", ".NAN"] then some .nan
  else
    let whole := rest.takeWhile (· ≠ '.')
    match rest.dropWhile (· ≠ '.') with
    | [] => none
    | _ :: fraction =>
      match whole, fraction with
      | [], '_' :: _ => none
      | [], [] => none
      | [], fraction => if s = rest then readFraction? false 0 fraction else none
      | whole, fraction =>
        match readPlain? whole, readSexagesimal? whole with
        | some n, _ => readFraction? negative n fraction
        | none, some n =>
          if fraction.all isFractionChar then readFraction? negative n fraction else none
        | none, none => none

/-- Whether `s` is made of as many digits as `widths` allows. -/
def hasDigits (widths : List Nat) (s : List Char) : Bool :=
  s.length ∈ widths && s.all fun c => (decimalDigit? c).isSome

/-- A time of day, with a fraction of a second and a zone behind it if need be. -/
def isTime (s : List Char) : Bool :=
  match s.splitOn ':' with
  | hour :: minute :: rest =>
    let rest := [':'].intercalate rest
    let (second, rest) := (rest.take 2, rest.drop 2)
    let rest := match rest with
      | '.' :: rest => rest.dropWhile fun c => (decimalDigit? c).isSome
      | rest => rest
    let zone := rest.dropWhile fun c => c = ' ' || c = '\t'
    hasDigits [1, 2] hour && hasDigits [2] minute && hasDigits [2] second &&
      match zone with
      | [] => rest.isEmpty
      | ['Z'] => true
      | sign :: offset =>
        (sign = '-' || sign = '+') &&
          match offset.splitOn ':' with
          | [h] => hasDigits [1, 2] h
          | [h, m] => hasDigits [1, 2] h && hasDigits [2] m
          | _ => false
  | _ => false

/-- A date alone, or a date and a time with the letter t or blanks between them. -/
def isDate (s : List Char) : Bool :=
  match s.splitOn '-' with
  | year :: month :: rest =>
    let rest := ['-'].intercalate rest
    let day := rest.takeWhile fun c => (decimalDigit? c).isSome
    let afterDay := rest.dropWhile fun c => (decimalDigit? c).isSome
    hasDigits [4] year &&
      match afterDay with
      | [] => hasDigits [2] month && hasDigits [2] day
      | c :: time =>
        hasDigits [1, 2] month && hasDigits [1, 2] day &&
          if c = 't' || c = 'T' then isTime time
          else (c = ' ' || c = '\t') && isTime (time.dropWhile fun c => c = ' ' || c = '\t')
  | _ => false

/-- What a scalar without quotes stands for. -/
def resolve (s : List Char) : Value :=
  if .ofList s ∈ nullWords then .null
  else
    match readBool? s, readReal? s, readInteger? s with
    | some b, _, _ => .bool b
    | none, some x, _ => .real x
    | none, none, some n => .int n
    | none, none, none => if isDate s then .date (.ofList s) else .text (.ofList s)

end Sdp.Yaml
