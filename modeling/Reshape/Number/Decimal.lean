import Reshape.Number.Binary64

/-!
# Decimal numbers

Decimal digits of natural numbers and integers, and the numbers `coefficient · 10 ^ exponent`
(`Decimal`). Digits read back (`readNat?_natText`, `readInt?_intText`). `Decimal.toBinary64`
rounds to the nearest double ; `Decimal.positional` and `Decimal.scientific` are the two
ways to write a decimal.
-/

namespace Reshape

/-! ## Integers -/

/-- The digits of `n`, without leading zeros. -/
def natText (n : Nat) : List Char := Nat.toDigits 10 n

/-- The digits of `n`, after a minus sign if `n` is negative. -/
def intText (n : Int) : List Char :=
  if n < 0 then '-' :: natText n.natAbs else natText n.natAbs

/-- The number that a nonempty text of digits writes. -/
def readNat? (cs : List Char) : Option Nat :=
  if cs ≠ [] ∧ cs.all Char.isDigit then some (Nat.ofDigitChars 10 cs 0) else none

/-- A sign in front of a number, and the rest. No sign is a plus sign. -/
def splitSign : List Char → Bool × List Char
  | '-' :: cs => (true, cs)
  | '+' :: cs => (false, cs)
  | cs => (false, cs)

/-- The integer that digits after an optional sign write. -/
def readInt? (cs : List Char) : Option Int :=
  (readNat? (splitSign cs).2).map fun (n : Nat) =>
    if (splitSign cs).1 then -(n : Int) else (n : Int)

/-- The 64-bit integer that digits after an optional sign write. -/
def readInt64? (cs : List Char) : Option Int64 :=
  (readInt? cs).bind fun n =>
    if -Int.pow 2 63 ≤ n ∧ n < Int.pow 2 63 then some (Int64.ofInt n) else none

theorem isDigit_of_mem_natText {n : Nat} {c : Char} (h : c ∈ natText n) : c.isDigit = true :=
  Nat.isDigit_of_mem_toDigits (by decide) (by decide) h

theorem readNat?_natText (n : Nat) : readNat? (natText n) = some n := by
  have hd : (natText n).all Char.isDigit = true :=
    List.all_eq_true.mpr fun c hc => isDigit_of_mem_natText hc
  rw [readNat?, if_pos ⟨Nat.toDigits_ne_nil, hd⟩, natText, Nat.ofDigitChars_ten_toDigits]

theorem splitSign_natText (n : Nat) : splitSign (natText n) = (false, natText n) := by
  have hd := @isDigit_of_mem_natText n
  revert hd
  generalize natText n = cs
  intro hd
  match cs with
  | [] => rfl
  | c :: cs =>
    have hc := hd (List.mem_cons_self (a := c) (l := cs))
    unfold splitSign
    split
    · rename_i h; injection h with h; subst h; simp at hc
    · rename_i h; injection h with h; subst h; simp at hc
    · rfl

theorem readInt?_intText (n : Int) : readInt? (intText n) = some n := by
  unfold readInt? intText
  split
  · rw [show splitSign ('-' :: natText n.natAbs) = (true, natText n.natAbs) from rfl,
      readNat?_natText, Option.map_some, if_pos rfl]
    congr 1
    omega
  · rw [splitSign_natText, readNat?_natText, Option.map_some, if_neg Bool.false_ne_true]
    congr 1
    omega

theorem readInt64?_intText (n : Int64) : readInt64? (intText n.toInt) = some n := by
  have h1 := n.le_toInt
  have h2 := n.toInt_lt
  rw [readInt64?, readInt?_intText, Option.bind_some, if_pos ⟨h1, h2⟩, Int64.ofInt_toInt]

/-! ## Decimals -/

/-- The number `coefficient · 10 ^ exponent`. -/
structure Decimal where
  coefficient : Nat
  exponent : Int
  deriving DecidableEq, Inhabited

namespace Decimal

/-- The place of the decimal point, counted from the first digit of the coefficient. -/
def point (d : Decimal) : Int :=
  d.exponent + (natText d.coefficient).length

/-- The digits of the coefficient without the zeros at the end. -/
def digits (d : Decimal) : List Char :=
  ((natText d.coefficient).reverse.dropWhile (· == '0')).reverse

/-- The double nearest to the decimal. From `10 ^ 311` on that is infinite, and below
`10 ^ -330` it is zero, so no greater powers of ten are taken. The coefficient is below
`10 ^ (log2 / 3 + 1)`, for eight is below ten. -/
def toBinary64 (negative : Bool) (d : Decimal) : Binary64 :=
  if d.coefficient = 0 ∨ d.exponent + d.coefficient.log2 / 3 + 1 < -330 then
    Binary64.ofMagnitude negative 0
  else if 310 < d.exponent then Binary64.infinity negative
  else Binary64.ofRatio negative (d.coefficient * Nat.pow 10 d.exponent.toNat)
    (Nat.pow 10 (-d.exponent).toNat)

/-- Digits with the point in its place, and `whole` after the digits of a whole number. -/
def positional (whole : List Char) (d : Decimal) : List Char :=
  let ds := d.digits
  let p := d.point
  if p ≤ 0 then ['0', '.'] ++ List.replicate (-p).toNat '0' ++ ds
  else if ds.length ≤ p.toNat then ds ++ List.replicate (p.toNat - ds.length) '0' ++ whole
  else ds.take p.toNat ++ '.' :: ds.drop p.toNat

/-- The first digit, the other digits after a point, and the power of ten of the first. -/
def scientific (d : Decimal) : List Char :=
  let fraction := d.digits.drop 1
  d.digits.take 1 ++ (if fraction.isEmpty then [] else '.' :: fraction) ++
    'e' :: intText (d.point - 1)

/-- The decimal that digits with an optional point and an optional power of ten write. At
least one digit stands before or after the point. -/
def read? (cs : List Char) : Option Decimal :=
  let whole := cs.takeWhile Char.isDigit
  let rest := cs.dropWhile Char.isDigit
  let (fraction, rest) := match rest with
    | '.' :: rest => (rest.takeWhile Char.isDigit, rest.dropWhile Char.isDigit)
    | rest => ([], rest)
  let exponent := match rest with
    | [] => some 0
    | 'e' :: rest => readInt? rest
    | 'E' :: rest => readInt? rest
    | _ => none
  (readNat? (whole ++ fraction)).bind fun coefficient =>
    exponent.map fun e => ⟨coefficient, e - fraction.length⟩

end Decimal

end Reshape
