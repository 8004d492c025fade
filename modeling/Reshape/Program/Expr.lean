import Reshape.Shape.Basic

/-!
# Programs

A conversion between two shapes is written as a `Program` : one expression and the shapes
of the locals it uses. Every expression has a value, and those that are there for what
they do have the value null. The operands of an expression are evaluated from left to
right, `returns` ends the whole program, and the second operand of `coalesce` and of
`ifNotNull` is evaluated only if it is needed.
-/

namespace Reshape

/-- A local of a program : its place among the locals. -/
structure LocalId where
  index : Nat
  deriving DecidableEq, Inhabited

def LocalId.text (id : LocalId) : String :=
  String.ofList ('l' :: natText id.index)

/-- The place of a converter in a mapping. -/
structure ConverterId where
  index : Nat
  deriving DecidableEq, Inhabited

/-- What a program is given. -/
inductive Argument where
  /-- the value to convert -/
  | source
  /-- a value to convert into, or null -/
  | destination
  /-- the caller's own value, handed on to converters -/
  | state
  deriving DecidableEq, Inhabited

/-- The name under which the text of a program shows the argument. -/
def Argument.name : Argument → String
  | source => "source"
  | destination => "destination"
  | state => "state"

/-- A conversion that no other routine is needed for. -/
inductive Conversion where
  | primitive (source target : Primitive)
  | custom (converter : ConverterId)
  deriving DecidableEq, Inhabited

/-- What programs are made of. -/
inductive Expr where
  | argument (argument : Argument)
  | readLocal (id : LocalId)
  | writeLocal (id : LocalId) (value : Expr)
  /-- start a local with the zero value of the shape -/
  | declareLocal (id : LocalId) (shape : ShapeId)
  /-- an instance of the shape, made from nothing -/
  | newInstance (shape : ShapeId)
  | box (value : Expr)
  | unbox (value : Expr)
  /-- end the program with the value -/
  | returns (value : Expr)
  /-- the value of the last child, or null -/
  | sequence (children : List Expr)
  /-- Convert `value` with the routine for the two shapes. With `any` as the source the shape
  of the value decides, and with `any` as the target too the shape stays the same. -/
  | invoke (source target : ShapeId) (value destination : Expr)
  | null
  /-- a member of a record of that shape ; null has null members -/
  | readMember (object : Expr) (shape : ShapeId) (member : Nat)
  /-- write a member of the record that the local holds -/
  | writeMember (id : LocalId) (member : Nat) (value : Expr)
  /-- the value, or the fallback if the value is null -/
  | coalesce (value fallback : Expr)
  /-- the body, or null if the test is null -/
  | ifNotNull (test body : Expr)
  /-- null converts into null -/
  | convert (conversion : Conversion) (value : Expr)
  deriving Inhabited

mutual

/-- The number of expressions in an expression, itself included. -/
def Expr.size : Expr → Nat
  | .argument _ | .readLocal _ | .declareLocal _ _ | .newInstance _ | .null => 1
  | .writeLocal _ value | .box value | .unbox value | .returns value | .writeMember _ _ value
  | .convert _ value => 1 + value.size
  | .readMember object _ _ => 1 + object.size
  | .sequence children => 1 + Expr.sizes children
  | .invoke _ _ value destination => 1 + value.size + destination.size
  | .coalesce value fallback => 1 + value.size + fallback.size
  | .ifNotNull test body => 1 + test.size + body.size

/-- The number of expressions in a list of expressions. -/
def Expr.sizes : List Expr → Nat
  | [] => 0
  | e :: es => e.size + Expr.sizes es

end

/-- An expression with the locals it uses. -/
structure Program where
  /-- The shapes of the locals, in the order of their ids. -/
  locals : List ShapeId
  body : Expr
  deriving Inhabited

/-- The shape under which a local is listed. -/
def Program.localShape? (program : Program) (id : LocalId) : Option ShapeId :=
  program.locals[id.index]?

end Reshape
