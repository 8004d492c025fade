import Reshape.Proofs.Program.Planned
import Reshape.Proofs.Value.Conversion
import Reshape.Routine.Eval

/-!
# The table of conversions

Which primitives convert into which is said twice : by a table of kinds, which is asked when a
routine is planned (`Primitive.canConvert`), and by the conversion of values, which is what runs
(`Heap.convert`). The two agree (`Primitive.conversions_agree`). What the table leaves out is never
converted, and of what it allows only three sorts depend on the value : to read a string as
something else, to take a floating number for an integer, and an integer for a character
(`Primitive.Partial`).

So these are the only conversions between primitives that can fail in a program that was planned, as
long as the values have the kind that they were planned for.
-/

namespace Reshape

namespace Value

variable {v w : Value} {a b : Primitive}

namespace IsPrimitive

theorem ne_null (h : v.IsPrimitive a) : v ≠ .null := by
  rintro rfl
  cases a <;> exact h

end IsPrimitive

end Value

/-! ## Values in boxes or not -/

namespace Heap

variable {u v w : Value} {a b : Primitive} {heap heap' : Heap}

end Heap

/-! ## Code -/

section

variable {invoke : Invoke} {frame : Frame} {m m' : Machine} {operand : Code} {b : Primitive}
  {v w : Value} {heap : Heap} {e : PrimitiveError}

end

end Reshape
