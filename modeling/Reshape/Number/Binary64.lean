/-!
# Double-precision numbers

A `Binary64` is the 64 bits of an IEEE 754 double : a sign bit, eleven exponent bits and
52 fraction bits. A finite one has the magnitude `significand · 2 ^ power`, both exact.

Two numbers compare equal by `agrees`, which is symmetric and transitive
(`agrees_comm`, `agrees_trans`) and reflexive but on NaN (`agrees_self_iff`) ; the two
zeros agree. `ofRatio` rounds a quotient of natural numbers to the nearest number, a tie
to the one with an even significand, and `truncated?` is the way back to the integers.
-/

namespace Reshape

/-- A double, as its bits. -/
structure Binary64 where
  bits : UInt64
  deriving DecidableEq, Inhabited

namespace Binary64

/-! ## Fields -/

/-- The sign bit is set. -/
def negative (x : Binary64) : Bool := Nat.pow 2 63 ≤ x.bits.toNat

/-- The eleven exponent bits. -/
def exponentField (x : Binary64) : Nat := x.bits.toNat / Nat.pow 2 52 % Nat.pow 2 11

/-- The 52 fraction bits. -/
def fractionField (x : Binary64) : Nat := x.bits.toNat % Nat.pow 2 52

/-- All bits of the exponent are set, and some of the fraction. -/
def isNaN (x : Binary64) : Bool := x.exponentField == 2047 && x.fractionField != 0

/-- Neither infinite nor a NaN. -/
def isFinite (x : Binary64) : Bool := x.exponentField != 2047

/-- Zero, of either sign. -/
def isZero (x : Binary64) : Bool := x.exponentField == 0 && x.fractionField == 0

/-- A finite number has the magnitude `significand · 2 ^ power`. -/
def significand (x : Binary64) : Nat :=
  if x.exponentField = 0 then x.fractionField else Nat.pow 2 52 + x.fractionField

/-- The power of two by which the significand counts. -/
def power (x : Binary64) : Int :=
  if x.exponentField = 0 then -1074 else (x.exponentField : Int) - 1075

/-- The number with this sign whose other 63 bits read `magnitude`. -/
def ofMagnitude (negative : Bool) (magnitude : Nat) : Binary64 :=
  ⟨UInt64.ofNat ((if negative then Nat.pow 2 63 else 0) + magnitude)⟩

def zero : Binary64 := ⟨0⟩

def infinity (negative : Bool) : Binary64 := ofMagnitude negative (2047 * Nat.pow 2 52)

def nan : Binary64 := ofMagnitude false (2047 * Nat.pow 2 52 + Nat.pow 2 51)

/-! ## Comparison -/

/-- The numbers are equal : neither is NaN, and they have the same bits or are both zero. -/
def agrees (x y : Binary64) : Bool :=
  !x.isNaN && !y.isNaN && (x == y || (x.isZero && y.isZero))

theorem agrees_comm (x y : Binary64) : x.agrees y = y.agrees x := by
  rw [agrees, agrees, BEq.comm (a := x), Bool.and_comm x.isZero, Bool.and_comm (!x.isNaN)]

theorem agrees_trans {x y z : Binary64} (hxy : x.agrees y = true) (hyz : y.agrees z = true) :
    x.agrees z = true := by
  simp only [agrees, Bool.and_eq_true, Bool.or_eq_true, beq_iff_eq] at *
  obtain ⟨⟨hx, -⟩, hxy⟩ := hxy
  obtain ⟨⟨-, hz⟩, hyz⟩ := hyz
  refine ⟨⟨hx, hz⟩, ?_⟩
  rcases hxy with rfl | ⟨hx0, hy0⟩
  · exact hyz
  · rcases hyz with rfl | ⟨-, hz0⟩
    · exact Or.inr ⟨hx0, hy0⟩
    · exact Or.inr ⟨hx0, hz0⟩

theorem agrees_self_iff {x : Binary64} : x.agrees x = true ↔ x.isNaN = false := by
  simp [agrees]

/-! ## Rounding -/

/-- The natural number nearest to `num / den` ; of two, the even one. -/
def roundHalfEven (num den : Nat) : Nat :=
  let q := num / den
  match compare (2 * (num % den)) den with
  | .lt => q
  | .gt => q + 1
  | .eq => q + q % 2

/-- The greatest `e` with `2 ^ e ≤ num / den`, for positive `num` and `den`. -/
def floorLog2 (num den : Nat) : Int :=
  let e : Int := (num.log2 : Int) - den.log2
  if num * Nat.pow 2 (-e).toNat < den * Nat.pow 2 e.toNat then e - 1 else e

/-- The number nearest to `num / den` with this sign ; of two, the one with the even
significand. Half a unit above the greatest finite number it is infinite. -/
def ofRatio (negative : Bool) (num den : Nat) : Binary64 :=
  if num = 0 then ofMagnitude negative 0
  else
    let q := max (floorLog2 num den - 52) (-1074)
    let m := roundHalfEven (num * Nat.pow 2 (-q).toNat) (den * Nat.pow 2 q.toNat)
    let magnitude := (q + 1074).toNat * Nat.pow 2 52 + m
    if 2047 * Nat.pow 2 52 ≤ magnitude then infinity negative else ofMagnitude negative magnitude

/-- The number nearest to an integer. -/
def ofInt (n : Int) : Binary64 :=
  ofRatio (n < 0) n.natAbs 1

/-- The integer part, for a finite number whose integer part is a 64-bit integer. -/
def truncated? (x : Binary64) : Option Int64 :=
  if x.isFinite then
    let magnitude : Int :=
      (x.significand * Nat.pow 2 x.power.toNat / Nat.pow 2 (-x.power).toNat : Nat)
    let n := if x.negative then -magnitude else magnitude
    if -Int.pow 2 63 ≤ n ∧ n < Int.pow 2 63 then some (Int64.ofInt n) else none
  else none

end Binary64

end Reshape
