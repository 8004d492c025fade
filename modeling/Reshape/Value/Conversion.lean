import Reshape.Text.Blank
import Reshape.Value.Text

/-!
# Conversions between primitives

`Primitive.canConvert` says which primitives convert into which : every primitive into
itself, into a string and from a string, and the integers into each of the others and
back. `Heap.convert` converts a value. Null converts into null ; a text that does not read
as the primitive, a floating number without a 64-bit integer part, an integer that is no
character and a value that is no primitive do not convert.

The text of a primitive reads back. White space around the text of an integer, a floating
number or a truth value makes no difference, and the text of a character is that character
alone.
-/

namespace Reshape

namespace Primitive

/-- Values of `source` convert into `target`, though perhaps not all of them. -/
def canConvert (source target : Primitive) : Bool :=
  source == target || source == str || target == str || source == int || target == int

theorem canConvert_self (p : Primitive) : p.canConvert p = true := by
  simp [canConvert]

theorem canConvert_comm (a b : Primitive) : a.canConvert b = b.canConvert a := by
  cases a <;> cases b <;> rfl

end Primitive

/-- A value that does not convert. -/
structure PrimitiveError where
  /-- The text of the value. -/
  value : String
  target : Primitive
  deriving DecidableEq

/-- The text of the failure. -/
def PrimitiveError.message (e : PrimitiveError) : String :=
  "cannot convert " ++ e.value ++ " to " ++ e.target.name

/-- The truth value that a text writes, in letters of either case. -/
def readBool? (s : String) : Option Bool :=
  let word := String.ofList (Text.trim s.toList)
  if Text.sameLetters word "true" then some true
  else if Text.sameLetters word "false" then some false
  else none

/-- The character with the code point `n`. -/
def charOfCode? (n : Int) : Option Char :=
  if 0 ≤ n ∧ n.toNat.isValidChar then some (Char.ofNat n.toNat) else none

/-- The only character of a text. -/
def readChar? (s : String) : Option Char :=
  match s.toList with
  | [c] => some c
  | _ => none

/-- The text that a primitive is converted into. A string is its own. -/
def Value.plainText? : Value → Option String
  | .bool b => some (if b then "true" else "false")
  | .int n => some (String.ofList (intText n.toInt))
  | .float x => some (x.text Binary64.plainLayout)
  | .char c => some (String.singleton c)
  | .str _ text => some text
  | _ => none

/-- What an unboxed value other than a string converts into where the result is no string,
and what a string reads as. -/
def Value.convertInline? : Value → Primitive → Option Value
  | .bool b, .bool => some (.bool b)
  | .int n, .int => some (.int n)
  | .float x, .float => some (.float x)
  | .char c, .char => some (.char c)
  | .int n, .float => some (.float (Binary64.ofInt n.toInt))
  | .float x, .int => x.truncated?.map .int
  | .int n, .bool => some (.bool (n != 0))
  | .bool b, .int => some (.int (if b then 1 else 0))
  | .char c, .int => some (.int (Int64.ofNat c.toNat))
  | .int n, .char => (charOfCode? n.toInt).map .char
  | .str _ s, .int => (readInt64? (Text.trim s.toList)).map .int
  | .str _ s, .float => (Binary64.read? (Text.trim s.toList)).map .float
  | .str _ s, .bool => (readBool? s).map .bool
  | .str _ s, .char => (readChar? s).map .char
  | _, _ => none

namespace Heap

/-- The value as a primitive of the given kind. A new string is made, unless the value is a
string already. -/
def convert (v : Value) (target : Primitive) (heap : Heap) :
    Except PrimitiveError Value × Heap :=
  match v.unboxed, target with
  | .null, _ => (.ok .null, heap)
  | .str token text, .str => (.ok (.str token text), heap)
  | v, .str =>
    match v.plainText? with
    | some text =>
      let (made, heap) := heap.newString text
      (.ok made, heap)
    | none => (.error ⟨heap.text v, .str⟩, heap)
  | v, target =>
    match v.convertInline? target with
    | some w => (.ok w, heap)
    | none => (.error ⟨heap.text v, target⟩, heap)

end Heap

end Reshape
