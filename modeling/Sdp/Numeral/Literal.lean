import Sdp.Numeral.Binary64
import Sdp.Text.Blank
import Sdp.Text.Casing
import Sdp.Text.Digit

/-!
# Numbers as people write them

Integers and real numbers with blanks around them, a sign, decimal digits of any script, and single
underscores between digits.
-/

namespace Sdp.Numeral

open Text (isBlank digitValue? lower)

/-- A decimal digit of any script as an ASCII digit, a blank outside ASCII as a space, and any other
character outside ASCII as a question mark, which no number holds. -/
def plainChar (c : Char) : Char :=
  if c.toNat < 0x7F then c
  else if isBlank c then ' '
  else
    match digitValue? c with
    | some d => digitChar d
    | none => '?'

/-- The blanks that may stand around a number, once the number is plain. -/
def isPadding (c : Char) : Bool :=
  c == ' ' || (0x09 ≤ c.toNat && c.toNat ≤ 0x0D)

/-- The number itself: plain characters without the blanks around it. -/
def plain (s : List Char) : List Char :=
  let s := (s.map plainChar).dropWhile isPadding
  (s.reverse.dropWhile isPadding).reverse

/-- Splits off a sign; true is minus. -/
def cutSign : List Char → Bool × List Char
  | '-' :: rest => (true, rest)
  | '+' :: rest => (false, rest)
  | s => (false, s)

/-- One or more digits, with at most one underscore between two of them. -/
def groupedDigits? : List Char → Option (List Nat)
  | [] => none
  | [c] => (decimalDigit? c).map ([·])
  | c :: '_' :: rest => do return (← decimalDigit? c) :: (← groupedDigits? rest)
  | c :: rest => do return (← decimalDigit? c) :: (← groupedDigits? rest)

/-- The most digits that an integer may have. -/
def maxIntegerDigits : Nat := 4300

/-- An integer: a sign and grouped digits, not too many. -/
def readInteger? (s : List Char) : Option Int :=
  let (negative, rest) := cutSign (plain s)
  (groupedDigits? rest).bind fun ds =>
    if ds.length ≤ maxIntegerDigits then
      some (if negative then -(ofDigits 10 ds : Int) else ofDigits 10 ds)
    else none

/-- Drops underscores, each of which has to stand between two digits; `afterDigit` says whether a
digit has just been passed. -/
def dropUnderscores? (afterDigit : Bool) : List Char → Option (List Char)
  | [] => some []
  | '_' :: d :: rest =>
    if afterDigit && (decimalDigit? d).isSome then (dropUnderscores? true rest).map (d :: ·)
    else none
  | ['_'] => none
  | c :: rest => (dropUnderscores? (decimalDigit? c).isSome rest).map (c :: ·)

/-- Digits at the front of a text, and the rest. -/
def cutDigits (s : List Char) : List Nat × List Char :=
  ((s.takeWhile fun c => (decimalDigit? c).isSome).filterMap decimalDigit?,
    s.dropWhile fun c => (decimalDigit? c).isSome)

/-- An exponent: nothing, or the letter e, a sign and digits. -/
def readExponent? : List Char → Option Int
  | [] => some 0
  | c :: rest =>
    if c = 'e' ∨ c = 'E' then
      let (negative, rest) := cutSign rest
      (readDecimal? rest).map fun n => if negative then -(n : Int) else n
    else none

/-- Digits with a point among them, at its start or at its end, and an exponent. -/
def readScientific? (negative : Bool) (s : List Char) : Option Binary64 :=
  let (whole, rest) := cutDigits s
  let (fraction, rest) :=
    match rest with
    | '.' :: rest => cutDigits rest
    | rest => ([], rest)
  if whole.isEmpty && fraction.isEmpty then none
  else
    (readExponent? rest).map fun e =>
      .ofDecimal negative (ofDigits 10 (whole ++ fraction)) (e - fraction.length)

/-- A real number behind its sign: digits, an infinity or no number at all. -/
def readMagnitude? (negative : Bool) (s : List Char) : Option Binary64 :=
  let word := lower s
  if word = "inf".toList ∨ word = "infinity".toList then some (.infinity negative)
  else if word = "nan".toList then some .nan
  else readScientific? negative s

/-- A real number: a sign and a magnitude. -/
def readReal? (s : List Char) : Option Binary64 :=
  (dropUnderscores? false (plain s)).bind fun s =>
    let (negative, rest) := cutSign s
    readMagnitude? negative rest

end Sdp.Numeral
