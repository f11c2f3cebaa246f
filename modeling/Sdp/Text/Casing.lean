/-!
# Letter case

Upper-case and lower-case forms, exact wherever a form holds an ASCII character. A character whose
form lies wholly outside ASCII stands for itself, so comparing a form with an ASCII word is exact
for every text.
-/

namespace Sdp.Text

/-- The lower-case form of a character. Outside ASCII only the Kelvin sign and the capital I with a
dot have one that meets ASCII; the dot stays as a second character. -/
def lowerChar : Char → List Char
  | '\u212A' => ['k']
  | '\u0130' => ['i', '\u0307']
  | c => [c.toLower]

/-- The upper-case form of a character. Outside ASCII only the characters named here have one that
meets ASCII. -/
def upperChar : Char → List Char
  | '\u00DF' => ['S', 'S']
  | '\u0131' => ['I']
  | '\u0149' => ['\u02BC', 'N']
  | '\u017F' => ['S']
  | '\u01F0' => ['J', '\u030C']
  | '\u1E96' => ['H', '\u0331']
  | '\u1E97' => ['T', '\u0308']
  | '\u1E98' => ['W', '\u030A']
  | '\u1E99' => ['Y', '\u030A']
  | '\u1E9A' => ['A', '\u02BE']
  | '\uFB00' => ['F', 'F']
  | '\uFB01' => ['F', 'I']
  | '\uFB02' => ['F', 'L']
  | '\uFB03' => ['F', 'F', 'I']
  | '\uFB04' => ['F', 'F', 'L']
  | '\uFB05' => ['S', 'T']
  | '\uFB06' => ['S', 'T']
  | c => [c.toUpper]

def lower (s : List Char) : List Char :=
  s.flatMap lowerChar

def upper (s : List Char) : List Char :=
  s.flatMap upperChar

/-- Whether all characters are ASCII. -/
def isAscii (s : List Char) : Bool :=
  s.all (·.toNat < 0x80)

/-- The first candidate whose word is `s` in lower case. -/
def matchLower {α : Type} (candidates : List α) (word : α → String) (s : List Char) : Option α :=
  candidates.find? fun a => (word a).toList == lower s

/-- The first candidate whose word is `s` in upper case. -/
def matchUpper {α : Type} (candidates : List α) (word : α → String) (s : List Char) : Option α :=
  candidates.find? fun a => (word a).toList == upper s

/-- A word with its first letter in upper case. -/
def capitalise : List Char → List Char
  | [] => []
  | c :: rest => c.toUpper :: rest

/-- Each hyphenated part with its first letter in upper case. -/
def titled (s : List Char) : List Char :=
  ['-'].intercalate ((s.splitOn '-').map capitalise)

end Sdp.Text
