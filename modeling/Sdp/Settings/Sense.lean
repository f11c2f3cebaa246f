import Sdp.Data.Value
import Sdp.Numeral.Written

/-!
# What the text of a variable stands for

Four kinds of values one after another: a truth value, an integer, a real number, and the text itself for
whatever is none of these.
-/

namespace Sdp.Settings

/-- The words for a truth value. -/
def wordsFor : Bool → List String
  | true => ["true", "yes"]
  | false => ["false", "no"]

/-- A word for the truth value in any case of its letters, and no blank with it. -/
def IsTruth (b : Bool) (s : List Char) : Prop :=
  ∃ w ∈ wordsFor b, Text.IsLowerSpelling w.toList s

instance (b : Bool) (s : List Char) : Decidable (IsTruth b s) :=
  inferInstanceAs (Decidable (∃ w ∈ _, _))

inductive StandsFor (s : List Char) : Value → Prop where
  | truth {b : Bool} (h : IsTruth b s) : StandsFor s (.bool b)
  | integer {n : Int} (htruth : ∀ b, ¬ IsTruth b s) (h : Numeral.IsInteger n s) : StandsFor s (.int n)
  | real {x : Numeral.Binary64} (htruth : ∀ b, ¬ IsTruth b s) (hinteger : ∀ n, ¬ Numeral.IsInteger n s)
      (h : Numeral.IsReal x s) : StandsFor s (.real x)
  | text (htruth : ∀ b, ¬ IsTruth b s) (hinteger : ∀ n, ¬ Numeral.IsInteger n s)
      (hreal : ∀ x, ¬ Numeral.IsReal x s) : StandsFor s (.text (.ofList s))

end Sdp.Settings
