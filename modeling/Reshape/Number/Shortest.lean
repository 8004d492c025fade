import Reshape.Number.Decimal
import Reshape.Text.Letters

/-!
# Texts of doubles

`Binary64.shortest` is the decimal with the fewest digits that reads back as a given
finite double, the nearest to it of those, and on a tie the greater one in magnitude. The
decimals that read back fill the interval between the two midpoints to the neighbouring
doubles, ends included for an even significand (`readsBack`) ; for each number of digits
the two decimals on either side of the double are tried.

`Binary64.text` writes a double in a `FloatLayout`, and `Binary64.read?` reads one.
-/

namespace Reshape

namespace Binary64

/-! ## The shortest decimal -/

/-- Compares `a · 10 ^ p` with `b · 2 ^ e`. -/
def compareScaled (a : Nat) (p : Int) (b : Nat) (e : Int) : Ordering :=
  compare (a * Nat.pow 10 p.toNat * Nat.pow 2 (-e).toNat)
    (b * Nat.pow 2 e.toNat * Nat.pow 10 (-p).toNat)

/-- `a · 10 ^ p` rounds to the magnitude of `x`. The interval that does is measured in
quarters of the last place of `x` ; below a power of two the doubles lie twice as dense. -/
def readsBack (x : Binary64) (a : Nat) (p : Int) : Bool :=
  let m := x.significand
  let even := m % 2 == 0
  let below := if x.fractionField = 0 ∧ 1 < x.exponentField then 1 else 2
  let low := compareScaled a p (4 * m - below) (x.power - 2)
  let high := compareScaled a p (4 * m + 2) (x.power - 2)
  (low == .gt || (even && low == .eq)) && (high == .lt || (even && high == .eq))

/-- The greatest `e` with `10 ^ e ≤ num / den`, for positive `num` and `den`. -/
def floorLog10 (num den : Nat) : Int :=
  if den ≤ num then ((natText (num / den)).length : Int) - 1
  else
    let k := (natText (den / num)).length
    if den ≤ num * Nat.pow 10 (k - 1) then 1 - (k : Int) else -(k : Int)

/-- The decimal of `count` digits, the first in place `e`, that reads back as `x` and is
nearest to `x`, if there is one. -/
def withDigits? (x : Binary64) (e : Int) (count : Nat) : Option Decimal :=
  let p := e - count + 1
  let num := x.significand * Nat.pow 2 x.power.toNat * Nat.pow 10 (-p).toNat
  let den := Nat.pow 2 (-x.power).toNat * Nat.pow 10 p.toNat
  let f := num / den
  match x.readsBack f p, x.readsBack (f + 1) p with
  | true, true => if 2 * (num % den) < den then some ⟨f, p⟩ else some ⟨f + 1, p⟩
  | true, false => some ⟨f, p⟩
  | false, true => some ⟨f + 1, p⟩
  | false, false => none

/-- The decimal of fewest digits that reads back as the magnitude of a finite `x`, the
nearest of those. Seventeen digits are always enough. -/
def shortest (x : Binary64) : Decimal :=
  if x.isZero then ⟨0, 0⟩
  else
    let e := floorLog10 (x.significand * Nat.pow 2 x.power.toNat) (Nat.pow 2 (-x.power).toNat)
    ((List.range 17).findSome? fun i => x.withDigits? e (i + 1)).getD ⟨x.significand, 0⟩

/-! ## Writing and reading -/

/-- How doubles are written. -/
structure FloatLayout where
  /-- What stands after the digits of a whole number. -/
  whole : List Char
  /-- The powers of ten, as a half-open range, whose multiples are written with the point
  in its place ; all of them if there is no range. -/
  positionalRange : Option (Int × Int)

/-- The digits with the point in its place. -/
def plainLayout : FloatLayout := ⟨[], none⟩

/-- A double shows by its point that it is none of the integers, and numbers below `10 ^ -4`
or from `10 ^ 16` on are written with a power of ten. -/
def markedLayout : FloatLayout := ⟨['.', '0'], some (-4, 16)⟩

/-- The text of a nonnegative finite number. -/
def magnitudeText (layout : FloatLayout) (x : Binary64) : List Char :=
  let d := x.shortest
  if d.coefficient = 0 then '0' :: layout.whole
  else
    match layout.positionalRange with
    | none => d.positional layout.whole
    | some (low, high) =>
      if low ≤ d.point - 1 ∧ d.point - 1 < high then d.positional layout.whole
      else d.scientific

/-- The text of a double. NaN is written without a sign. -/
def text (layout : FloatLayout) (x : Binary64) : String :=
  if x.isNaN then "NaN"
  else
    let magnitude := if x.isFinite then x.magnitudeText layout else ['i', 'n', 'f']
    String.ofList (if x.negative then '-' :: magnitude else magnitude)

/-- The double that a text writes : a decimal, `inf`, `infinity` or `nan` in letters of
either case, after an optional sign. -/
def read? (cs : List Char) : Option Binary64 :=
  let (negative, body) := splitSign cs
  match Decimal.read? body with
  | some d => some (d.toBinary64 negative)
  | none =>
    let name := String.ofList body
    if Text.sameLetters name "inf" || Text.sameLetters name "infinity" then
      some (infinity negative)
    else if Text.sameLetters name "nan" then some nan
    else none

end Binary64

end Reshape
