import Sdp.Numeral.Binary64

/-!
# Shortest decimal text

A floating-point number is written with the fewest digits that read back as the same number, of
two such the nearer one, and of two equally near the even one.
-/

namespace Sdp.Numeral.Binary64

/-- Compares `a * 10 ^ i` with `b * 2 ^ j`. -/
def compareScaled (a : Nat) (i : Int) (b : Nat) (j : Int) : Ordering :=
  compare (a * scale 10 i * scale 2 (-j)) (b * scale 2 j * scale 10 (-i))

/-- Whether `d * 10 ^ g` lies among the reals that round to `m * 2 ^ q`. The gap below a power of
two is half the gap above it. -/
def readsBack (m : Nat) (q : Int) (d : Nat) (g : Int) : Bool :=
  let low := if m = hiddenBit ∧ q > -1074 then 4 * m - 1 else 4 * m - 2
  let atLow := compareScaled d g low (q - 2)
  let atHigh := compareScaled d g (4 * m + 2) (q - 2)
  (atLow == .gt || atLow == .eq && m % 2 == 0) && (atHigh == .lt || atHigh == .eq && m % 2 == 0)

/-- Of the two neighbours of `m * 2 ^ q` on the grid of `10 ^ g`, the one to write, if any. -/
def onGrid? (m : Nat) (q g : Int) : Option Nat :=
  let d := m * scale 2 q * scale 10 (-g) / (scale 2 (-q) * scale 10 g)
  let below := readsBack m q d g
  let above := readsBack m q (d + 1) g
  if below && above then
    match compareScaled (2 * d + 1) g (2 * m) q with
    | .gt => some d
    | .lt => some (d + 1)
    | .eq => some (if d % 2 = 0 then d else d + 1)
  else if below then some d
  else if above then some (d + 1)
  else none

/-- The digits of `d * 10 ^ g` without zeros at the end, and the place of the point; no digits if there
is no such number. -/
def withoutZeros (point : Int) : Option (Nat × Int) → List Nat × Int
  | none => ([], point)
  | some (d, g) =>
    let ds := digits 10 d
    ((ds.reverse.dropWhile (· == 0)).reverse, g + ds.length)

/-- The digits of a positive number, and the place of the point: `0.d₁d₂… * 10 ^ point`. -/
def shortest (m : Nat) (q : Int) : List Nat × Int :=
  let scaled := m * scale 2 q * scale 10 340 / scale 2 (-q)
  let point : Int := (digits 10 scaled).length - 340
  withoutZeros point <| (List.range' 1 17).findSome? fun (n : Nat) =>
    (onGrid? m q (point - n)).map fun d => (d, point - n)

/-- Digits are placed around the point when it stands between the fifth place before them and the
sixteenth; otherwise one digit stands before the point and an exponent of two or more digits
follows. -/
def layout (ds : List Nat) (point : Int) : List Char :=
  let text := ds.map digitChar
  if -4 < point ∧ point ≤ 16 then
    if point ≤ 0 then '0' :: '.' :: List.replicate (-point).toNat '0' ++ text
    else if text.length ≤ point.toNat then
      text ++ List.replicate (point.toNat - text.length) '0' ++ ['.', '0']
    else text.take point.toNat ++ '.' :: text.drop point.toNat
  else
    let mantissa := text.take 1 ++ (if text.length > 1 then '.' :: text.drop 1 else [])
    let exponent := decimal (point - 1).natAbs
    mantissa ++ 'e' :: (if point ≤ 0 then '-' else '+') ::
      (if exponent.length < 2 then '0' :: exponent else exponent)

/-- The text of a number. -/
def text (x : Binary64) : List Char :=
  match x.view with
  | .nan => "NaN".toList
  | .infinite negative => (if negative then ['-'] else []) ++ "Infinity".toList
  | .finite negative m q =>
    (if negative then ['-'] else []) ++
      if m = 0 then "0.0".toList
      else
        let (ds, point) := shortest m q
        layout ds point

end Sdp.Numeral.Binary64
