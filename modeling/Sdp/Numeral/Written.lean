import Sdp.Numeral.Literal
import Sdp.Text.Spelling

/-!
# What written numbers look like

Integers and real numbers, told without a reader: blanks around them, a sign, and digits of any script with
single underscores between them.
-/

namespace Sdp.Numeral

open Text (isBlank digitValue?)

/-! ## Parts -/

/-- Blanks that may stand around a number: all but the four information separators. -/
def IsMargin (s : List Char) : Prop :=
  ∀ c ∈ s, isBlank c ∧ ¬ (0x1C ≤ c.toNat ∧ c.toNat ≤ 0x1F)

/-- A sign or none; true is minus. -/
inductive IsSign : Bool → List Char → Prop where
  | none : IsSign false []
  | plus : IsSign false ['+']
  | minus : IsSign true ['-']

/-- The number or its negation. -/
def signed (negative : Bool) (n : Nat) : Int :=
  if negative then -(n : Int) else n

/-- One or more digits with the values `ds`, and at most one underscore between two of them. -/
inductive IsGrouped : List Nat → List Char → Prop where
  | one {c : Char} {d : Nat} (hc : digitValue? c = some d) : IsGrouped [d] [c]
  | next {c : Char} {d : Nat} {ds : List Nat} {t : List Char} (hc : digitValue? c = some d)
      (ht : IsGrouped ds t) : IsGrouped (d :: ds) (c :: t)
  | apart {c : Char} {d : Nat} {ds : List Nat} {t : List Char} (hc : digitValue? c = some d)
      (ht : IsGrouped ds t) : IsGrouped (d :: ds) (c :: '_' :: t)

/-- Grouped digits or nothing. -/
def IsDigitPart (ds : List Nat) (t : List Char) : Prop :=
  ds = [] ∧ t = [] ∨ IsGrouped ds t

/-- A sign and then what `P` tells, with blanks around. -/
inductive Framed (P : Bool → List Char → Prop) : List Char → Prop where
  | intro {negative : Bool} {front sign body back : List Char} (hfront : IsMargin front)
      (hsign : IsSign negative sign) (hbody : P negative body) (hback : IsMargin back) :
      Framed P (front ++ (sign ++ body) ++ back)

/-! ## Integers -/

/-- The integer `n` in no more digits than an integer may have. -/
def IsInteger (n : Int) : List Char → Prop :=
  Framed fun negative body =>
    ∃ ds, IsGrouped ds body ∧ ds.length ≤ maxIntegerDigits ∧ signed negative (ofDigits 10 ds) = n

/-! ## Real numbers -/

/-- Digits before a point and behind it. The point may be missing if nothing is behind it, and there is a
digit on one side at least. -/
inductive IsMantissa : List Nat → List Nat → List Char → Prop where
  | whole {ds : List Nat} {t : List Char} (ht : IsGrouped ds t) : IsMantissa ds [] t
  | pointed {ds : List Nat} {t : List Char} (ht : IsGrouped ds t) : IsMantissa ds [] (t ++ ['.'])
  | fraction {ds fs : List Nat} {t u : List Char} (ht : IsDigitPart ds t) (hu : IsGrouped fs u) :
      IsMantissa ds fs (t ++ '.' :: u)

/-- Nothing, or the letter e, a sign and digits. -/
inductive IsExponent : Int → List Char → Prop where
  | none : IsExponent 0 []
  | some {m : Char} {negative : Bool} {sign : List Char} {ds : List Nat} {t : List Char}
      (hm : m = 'e' ∨ m = 'E') (hsign : IsSign negative sign) (ht : IsGrouped ds t) :
      IsExponent (signed negative (ofDigits 10 ds)) (m :: (sign ++ t))

/-- A real number behind its sign: an infinity, no number at all, or the number nearest to a decimal. -/
inductive IsMagnitude (negative : Bool) : Binary64 → List Char → Prop where
  | infinity {w : String} {t : List Char} (hw : w ∈ ["inf", "infinity"])
      (ht : Text.IsLowerSpelling w.toList t) : IsMagnitude negative (.infinity negative) t
  | nan {t : List Char} (ht : Text.IsLowerSpelling "nan".toList t) : IsMagnitude negative .nan t
  | decimal {ds fs : List Nat} {e : Int} {t u : List Char} (ht : IsMantissa ds fs t)
      (hu : IsExponent e u) :
      IsMagnitude negative (.ofDecimal negative (ofDigits 10 (ds ++ fs)) (e - fs.length)) (t ++ u)

/-- The real number `x`. -/
def IsReal (x : Binary64) : List Char → Prop :=
  Framed fun negative body => IsMagnitude negative x body

end Sdp.Numeral
