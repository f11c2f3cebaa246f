import Sdp.Text.Line

/-!
# Respelled texts

Line ends can be written in several ways, and blanks may stand at the edges of a line. A text that is
respelled has other line ends or other blanks there, with as many line ends as before.
-/

namespace Sdp.Text

/-- One end of a line, as it can be written. -/
inductive LineEnd : List Char → Prop where
  | single {c : Char} (h : isLineEnd c) : LineEnd [c]
  | returnFeed : LineEnd ['\r', '\n']

/-- A carriage return and a line feed meet where one text goes over into another. -/
def Meet (s t : List Char) : Prop :=
  s.getLast? = some '\r' ∧ t.head? = some '\n'

instance (s t : List Char) : Decidable (Meet s t) :=
  inferInstanceAs (Decidable (_ ∧ _))

/-- Blanks that do not end a line. -/
abbrev Inline (b : List Char) : Prop :=
  ∀ c ∈ b, isBlank c ∧ isLineEnd c = false

/-- One line end is written as another, or the blanks at one edge of one line change, without making
or breaking a pair of carriage return and line feed. -/
inductive Respelling : List Char → List Char → Prop where
  | lineEnd {before after e e' : List Char} (old : LineEnd e) (new : LineEnd e')
      (apart : ¬ Meet before e ∧ ¬ Meet e after) (apart' : ¬ Meet before e' ∧ ¬ Meet e' after) :
      Respelling (before ++ e ++ after) (before ++ e' ++ after)
  | margin {before after b b' : List Char} (old : Inline b) (new : Inline b')
      (edge : (∀ c ∈ before.getLast?, isLineEnd c) ∨ ∀ c ∈ after.head?, isLineEnd c)
      (apart : ¬ Meet before (b ++ after)) (apart' : ¬ Meet before (b' ++ after)) :
      Respelling (before ++ b ++ after) (before ++ b' ++ after)

end Sdp.Text
