import Sdp.Text.Printable
import Sdp.Numeral.Digits

/-!
# Quoted text

A text between quotes on one line, printable throughout: the quote in use, the backslash and every
unprintable character are written as escapes. `unquote` reads what `quote` writes.
-/

namespace Sdp.Text

open Numeral (hexFixed hexDigit? ofDigits)

/-- Single quotes, unless the text holds a single quote and no double quote. -/
def quoteMark (s : List Char) : Char :=
  if '\'' ∈ s ∧ '"' ∉ s then '"' else '\''

/-- A character as it stands between two `mark`s. -/
def quoteChar (mark c : Char) : List Char :=
  if c = mark ∨ c = '\\' then ['\\', c]
  else if c = '\n' then ['\\', 'n']
  else if c = '\r' then ['\\', 'r']
  else if c = '\t' then ['\\', 't']
  else if isPrintable c then [c]
  else if c.toNat < 0x100 then '\\' :: 'x' :: hexFixed 2 c.toNat
  else if c.toNat < 0x10000 then '\\' :: 'u' :: hexFixed 4 c.toNat
  else '\\' :: 'U' :: hexFixed 8 c.toNat

def quote (s : List Char) : List Char :=
  let mark := quoteMark s
  mark :: s.flatMap (quoteChar mark) ++ [mark]

/-- The character whose code point is written in hexadecimal digits. -/
def charOfHex? (ds : List Char) : Option Char :=
  (ds.mapM hexDigit?).bind fun ds =>
    let n := ofDigits 16 ds
    if n.isValidChar then some (Char.ofNat n) else none

/-- The text up to a closing `mark`, which has to be the last character. -/
def unquoteTail (mark : Char) : List Char → Option (List Char)
  | [] => none
  | '\\' :: 'x' :: a :: b :: rest => do
    return (← charOfHex? [a, b]) :: (← unquoteTail mark rest)
  | '\\' :: 'u' :: a :: b :: c :: d :: rest => do
    return (← charOfHex? [a, b, c, d]) :: (← unquoteTail mark rest)
  | '\\' :: 'U' :: a :: b :: c :: d :: e :: f :: g :: h :: rest => do
    return (← charOfHex? [a, b, c, d, e, f, g, h]) :: (← unquoteTail mark rest)
  | '\\' :: 'n' :: rest => (unquoteTail mark rest).map ('\n' :: ·)
  | '\\' :: 'r' :: rest => (unquoteTail mark rest).map ('\r' :: ·)
  | '\\' :: 't' :: rest => (unquoteTail mark rest).map ('\t' :: ·)
  | '\\' :: c :: rest => (unquoteTail mark rest).map (c :: ·)
  | c :: rest =>
    if c = mark then (if rest.isEmpty then some [] else none)
    else (unquoteTail mark rest).map (c :: ·)

/-- Reads a quoted text back. -/
def unquote : List Char → Option (List Char)
  | mark :: rest => if mark = '\'' ∨ mark = '"' then unquoteTail mark rest else none
  | [] => none

end Sdp.Text
