import Reshape.Mapping.Failure
import Reshape.Program.Expr

/-!
# Making instances

How an instance of a destination shape comes about when none is supplied : a value type
starts as its zero value, in a box, a reference is made from nothing if its shape allows
it, and all else comes out null (`Construction`). `instanceProgram` is the program that
does this and nothing else.
-/

namespace Reshape

/-- The failure of a pool, as a failure to compile. -/
def Pool.orCompileError {α : Type} : Except ShapeError α → Except CompileError α
  | .ok a => .ok a
  | .error e => .error (.shape e)

/-- How an instance is made where none is supplied. -/
inductive Construction where
  /-- a copy of the zero value, in a box -/
  | valueDefault
  /-- an instance made from nothing -/
  | defaultConstructor
  /-- null, for want of an instance -/
  | impossible
  deriving DecidableEq, Inhabited

namespace Construction

def name : Construction → String
  | valueDefault => "ValueDefault"
  | defaultConstructor => "DefaultConstructor"
  | impossible => "Impossible"

/-- How instances of a shape that is not nullable are made. -/
def ofDescriptor (d : Descriptor) : Construction :=
  if d.valueType then valueDefault
  else if d.defaultConstructor then defaultConstructor
  else impossible

/-- The shapes of the locals that `expr` declares, from some id on. -/
def locals (c : Construction) (shape : ShapeId) : List ShapeId :=
  match c with
  | valueDefault => [shape]
  | _ => []

/-- The expression for an instance in reference form, whose local is `first`. -/
def expr (c : Construction) (shape : ShapeId) (first : LocalId) : Expr :=
  match c with
  | valueDefault => .sequence [.declareLocal first shape, .box (.readLocal first)]
  | defaultConstructor => .newInstance shape
  | impossible => .null

end Construction

/-- The program for a new instance of a shape, or of the shape below a nullable one. -/
def instanceProgram (pool : Pool) (shape : ShapeId) : Except CompileError Program := do
  let shape ← Pool.orCompileError (pool.stripNullable shape)
  let known ← Pool.orCompileError (pool.descriptor shape)
  let c := Construction.ofDescriptor known
  return ⟨c.locals shape, .returns (c.expr shape ⟨0⟩)⟩

end Reshape
