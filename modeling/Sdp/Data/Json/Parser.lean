import Sdp.Data.Value
import Sdp.Numeral.Literal

/-!
# Reading JSON

Each reader takes what it reads off the front of a text and returns the rest. After every item of a
list or a record the rest has to be shorter than before, so reading comes to an end.
-/

namespace Sdp.Json

open Numeral (hexDigit? decimalDigit? ofDigits cutDigits cutSign readDecimal?)

/-- A blank between the parts of a value. -/
def isSpace (c : Char) : Bool :=
  c == ' ' || c == '\t' || c == '\n' || c == '\r'

def skipSpace (s : List Char) : List Char :=
  s.dropWhile isSpace

theorem length_skipSpace_le (s : List Char) : (skipSpace s).length ≤ s.length := by
  induction s with
  | nil => simp [skipSpace]
  | cons c rest ih =>
    simp only [skipSpace, List.dropWhile_cons] at ih ⊢
    split
    · exact Nat.le_succ_of_le ih
    · simp

/-- The number in four hexadecimal digits. -/
def unit? (a b c d : Char) : Option Nat :=
  ([a, b, c, d].mapM hexDigit?).map (ofDigits 16)

/-- The character of two units of sixteen bits, the first of which opens a pair. -/
def pairChar (high low : Nat) : Char :=
  .ofNat (0x10000 + (high - 0xD800) * 0x400 + (low - 0xDC00))

/-- The character that a letter behind a backslash stands for. -/
def unescape? : Char → Option Char
  | '"' => some '"'
  | '\\' => some '\\'
  | '/' => some '/'
  | 'n' => some '\n'
  | 'r' => some '\r'
  | 't' => some '\t'
  | 'b' => some '\x08'
  | 'f' => some '\x0C'
  | _ => none

/-- The text up to the closing quote. -/
def readText? : List Char → Option (List Char × List Char)
  | [] => none
  | '"' :: rest => some ([], rest)
  | '\\' :: 'u' :: a :: b :: c :: d :: rest => do
    let high ← unit? a b c d
    if 0xD800 ≤ high ∧ high < 0xDC00 then
      match rest with
      | '\\' :: 'u' :: e :: f :: g :: h :: rest =>
        let low ← unit? e f g h
        if 0xDC00 ≤ low ∧ low < 0xE000 then
          (readText? rest).map fun (s, rest) => (pairChar high low :: s, rest)
        else none
      | _ => none
    else if high.isValidChar then
      (readText? rest).map fun (s, rest) => (Char.ofNat high :: s, rest)
    else none
  | '\\' :: c :: rest => do
    let c ← unescape? c
    (readText? rest).map fun (s, rest) => (c :: s, rest)
  | c :: rest =>
    if c.toNat < 0x20 then none else (readText? rest).map fun (s, rest) => (c :: s, rest)

/-- The exponent of a number, if there is one, and the rest. -/
def readExponent? : List Char → Option (Option Int × List Char)
  | c :: rest =>
    if c = 'e' ∨ c = 'E' then
      let (negative, rest) := cutSign rest
      match cutDigits rest with
      | ([], _) => none
      | (ds, rest) =>
        let n : Int := ofDigits 10 ds
        some (some (if negative then -n else n), rest)
    else some (none, c :: rest)
  | [] => some (none, [])

/-- A number without its sign. It is an integer unless it has a fraction or an exponent. -/
def readMagnitude? (negative : Bool) (s : List Char) : Option (Value × List Char) :=
  let (whole, rest) := cutDigits s
  if whole.isEmpty ∨ whole.head? = some 0 ∧ whole.length > 1 then none
  else
    let n := ofDigits 10 whole
    match rest with
    | '.' :: rest =>
      match cutDigits rest with
      | ([], _) => none
      | (fraction, rest) =>
        (readExponent? rest).map fun (e, rest) =>
          (.real (.ofDecimal negative (ofDigits 10 (whole ++ fraction))
            (e.getD 0 - fraction.length)), rest)
    | rest =>
      (readExponent? rest).map fun (e, rest) =>
        match e with
        | some e => (.real (.ofDecimal negative n e), rest)
        | none => (.int (if negative then -(n : Int) else n), rest)

/-- The literals, each with its value. -/
def literals : List (List Char × Value) :=
  [("null".toList, .null), ("true".toList, .bool true), ("false".toList, .bool false),
    ("NaN".toList, .real .nan), ("Infinity".toList, .real (.infinity false)),
    ("-Infinity".toList, .real (.infinity true))]

/-- A literal or a number. -/
def readScalar? (s : List Char) : Option (Value × List Char) :=
  match literals.find? fun (word, _) => word.isPrefixOf s with
  | some (word, v) => some (v, s.drop word.length)
  | none =>
    match s with
    | '-' :: rest => readMagnitude? true rest
    | s => readMagnitude? false s

mutual
/-- Reads one value. -/
def readValue? (s : List Char) : Option (Value × List Char) :=
  match _h : skipSpace s with
  | '"' :: rest => (readText? rest).map fun (t, rest) => (.text (.ofList t), rest)
  | '[' :: rest =>
    match skipSpace rest with
    | ']' :: rest => some (.list [], rest)
    | _ => (readItems? rest).map fun (items, rest) => (.list items, rest)
  | '{' :: rest =>
    match skipSpace rest with
    | '}' :: rest => some (.record [], rest)
    | _ => (readFields? rest).map fun (fields, rest) => (.record fields, rest)
  | s => readScalar? s
termination_by (s.length, 0)
decreasing_by
  all_goals
    have := length_skipSpace_le s
    simp only [_h, List.length_cons] at this
    exact Prod.Lex.left _ _ (by omega)

/-- Reads the items of a list up to its end. -/
def readItems? (s : List Char) : Option (List Value × List Char) :=
  match readValue? s with
  | none => none
  | some (v, rest) =>
    match _h : skipSpace rest with
    | ']' :: rest => some ([v], rest)
    | ',' :: tail =>
      if _hlt : rest.length ≤ s.length then
        (readItems? tail).map fun (vs, rest) => (v :: vs, rest)
      else none
    | _ => none
termination_by (s.length, 1)
decreasing_by
  · exact Prod.Lex.right _ (by omega)
  · have := length_skipSpace_le rest
    simp only [_h, List.length_cons] at this
    exact Prod.Lex.left _ _ (by omega)

/-- Reads the fields of a record up to its end. -/
def readFields? (s : List Char) : Option (List (String × Value) × List Char) :=
  match _hn : skipSpace s with
  | '"' :: text =>
    match readText? text with
    | none => none
    | some (name, afterName) =>
      match _hc : skipSpace afterName with
      | ':' :: body =>
        if _hb : afterName.length ≤ s.length then
          match readValue? body with
          | none => none
          | some (v, rest) =>
            match _h : skipSpace rest with
            | '}' :: rest => some ([(.ofList name, v)], rest)
            | ',' :: tail =>
              if _hlt : rest.length ≤ s.length then
                (readFields? tail).map fun (fs, rest) => ((.ofList name, v) :: fs, rest)
              else none
            | _ => none
        else none
      | _ => none
  | _ => none
termination_by (s.length, 1)
decreasing_by
  · have := length_skipSpace_le afterName
    simp only [_hc, List.length_cons] at this
    exact Prod.Lex.left _ _ (by omega)
  · have := length_skipSpace_le rest
    simp only [_h, List.length_cons] at this
    exact Prod.Lex.left _ _ (by omega)
end

/-- Reads a text that holds one value and nothing else but blanks. -/
def read? (s : List Char) : Option Value :=
  (readValue? s).bind fun (v, rest) => if (skipSpace rest).isEmpty then some v else none

end Sdp.Json
