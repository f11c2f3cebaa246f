import Sdp.Session.Summary
import Sdp.Text.Line
import Sdp.Text.Split

/-!
# What a summary shows

The lines of a summary as a reader finds them: what each of them is about, and the text that a warning was
given for.
-/

namespace Sdp

namespace Text

/-- Nothing in the text ends a line. -/
def IsUnbroken (s : List Char) : Prop :=
  ∀ c ∈ s, isLineEnd c = false

/-- Texts one after another, each with a line feed behind it. -/
def printed (ls : List (List Char)) : List Char :=
  ls.flatMap (· ++ ['\n'])

/-- What stands behind the first `n` marks. -/
def behind? (mark : Char) : Nat → List Char → Option (List Char)
  | 0, s => some s
  | n + 1, s => (cut mark s).bind fun (_, after) => behind? mark n after

end Text

namespace Warning

/-- The text that a line about a warning quotes behind its third colon; if there is none, it is empty. -/
def shownText? (line : List Char) : Option (List Char) :=
  match Text.behind? ':' 3 line with
  | none => some []
  | some rest => Text.unquote (rest.drop 1)

/-- The number of the line, what is wrong and the quoted text, if any. -/
structure IsShown (w : Warning) (line : List Char) : Prop where
  text : line = "warning: line ".toList ++ Numeral.decimal w.line ++ ": ".toList ++
    w.fault.cause.message.toList ++
    if w.fault.text = "" then [] else ": ".toList ++ Text.quote w.fault.text.toList
  printable : ∀ c ∈ line, Text.isPrintable c
  recovered : shownText? line = some w.fault.text.toList

end Warning

/-- A line for the session, one for each media description and one for each warning, in this order. -/
structure Session.IsShown (s : Session) (lines : List (List Char)) : Prop where
  length : lines.length = 1 + s.media.length + s.warnings.length
  session : lines[0]? = some ("session: ".toList ++ titles s.attributes)
  media : ∀ i m, s.media[i]? = some m → lines[1 + i]? = some m.headline
  warnings : ∀ i w, s.warnings[i]? = some w →
    ∃ line, lines[1 + s.media.length + i]? = some line ∧ w.IsShown line
  unbroken : ∀ line ∈ lines, Text.IsUnbroken line

end Sdp
