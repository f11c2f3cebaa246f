import Sdp.Text.Casing

/-!
# Spellings of a word

A word of ASCII capitals can be spelled in either case of its letters, and where texts are compared
in upper case a few characters outside ASCII pass for letters.
-/

namespace Sdp.Text

/-- The text is ASCII, and the word up to the case of ASCII letters. -/
def IsAsciiSpelling (word s : List Char) : Prop :=
  isAscii s ∧ s.map Char.toUpper = word

instance (word s : List Char) : Decidable (IsAsciiSpelling word s) :=
  inferInstanceAs (Decidable (_ ∧ _))

/-- The same of a word of small letters. -/
def IsLowerSpelling (word s : List Char) : Prop :=
  isAscii s ∧ s.map Char.toLower = word

instance (word s : List Char) : Decidable (IsLowerSpelling word s) :=
  inferInstanceAs (Decidable (_ ∧ _))

/-- The ASCII letters that a character passes for: a dotless i for an i, a long s for an s, and the
ligature of f and i for both. -/
def lookalike : Char → List Char
  | '\u0131' => ['I']
  | '\u017F' => ['S']
  | '\uFB01' => ['F', 'I']
  | c => [c]

/-- The text would be a spelling of the word if it were written in the letters that it passes for. -/
def PassesFor (word s : List Char) : Prop :=
  IsAsciiSpelling word (s.flatMap lookalike)

instance (word s : List Char) : Decidable (PassesFor word s) :=
  inferInstanceAs (Decidable (IsAsciiSpelling _ _))

end Sdp.Text
