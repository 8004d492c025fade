import Reshape.Program.Expr

/-!
# Declared locals

`Program.validate` accepts the programs that declare each local once, with the shape it has
in the table of locals, and before it is read or written, in the order of evaluation. What
a branch declares is known in that branch alone. `Expr.check` answers the locals that are
declared after an expression, given those before it.
-/

namespace Reshape

/-- What is wrong with the locals of a program. -/
inductive Defect where
  | undeclaredLocal (id : LocalId)
  | redeclared (id : LocalId)
  | outOfRange (id : LocalId) (count : Nat)
  | shapeMismatch (id : LocalId) (declared allocated : ShapeId)
  deriving DecidableEq

/-- The text of the defect. -/
def Defect.message : Defect → String
  | undeclaredLocal id => "local " ++ id.text ++ " is used before it is declared"
  | redeclared id => "local " ++ id.text ++ " is declared twice"
  | outOfRange id count =>
    "local " ++ id.text ++ " is out of range (" ++ String.ofList (natText count) ++
      " locals allocated)"
  | shapeMismatch id declared allocated =>
    "local " ++ id.text ++ " is declared as " ++ declared.detail ++ " but was allocated as " ++
      allocated.detail

/-- The local is in the table and has been declared. -/
def LocalId.require (locals : List ShapeId) (declared : List LocalId) (id : LocalId) :
    Except Defect Unit :=
  if locals.length ≤ id.index then .error (.outOfRange id locals.length)
  else if id ∈ declared then .ok ()
  else .error (.undeclaredLocal id)

/-- The local is in the table, with this shape, and has not been declared. -/
def LocalId.declare (locals : List ShapeId) (declared : List LocalId) (id : LocalId)
    (shape : ShapeId) : Except Defect (List LocalId) :=
  match locals[id.index]? with
  | none => .error (.outOfRange id locals.length)
  | some allocated =>
    if allocated ≠ shape then .error (.shapeMismatch id shape allocated)
    else if id ∈ declared then .error (.redeclared id)
    else .ok (id :: declared)

mutual

/-- The locals declared once the expression has been evaluated. -/
def Expr.check (locals : List ShapeId) : Expr → List LocalId → Except Defect (List LocalId)
  | .argument _, declared | .newInstance _, declared | .null, declared => .ok declared
  | .readLocal id, declared => do
    id.require locals declared
    return declared
  | .writeLocal id value, declared | .writeMember id _ value, declared => do
    let declared ← value.check locals declared
    id.require locals declared
    return declared
  | .declareLocal id shape, declared => id.declare locals declared shape
  | .box value, declared | .unbox value, declared | .returns value, declared
  | .convert _ value, declared | .readMember value _ _, declared => value.check locals declared
  | .sequence children, declared => Expr.checkAll locals children declared
  | .invoke _ _ value destination, declared => do
    let declared ← value.check locals declared
    destination.check locals declared
  | .coalesce first branch, declared | .ifNotNull first branch, declared => do
    let declared ← first.check locals declared
    let _ ← branch.check locals declared
    return declared

/-- The locals declared once the expressions have been evaluated, one after the other. -/
def Expr.checkAll (locals : List ShapeId) :
    List Expr → List LocalId → Except Defect (List LocalId)
  | [], declared => .ok declared
  | e :: es, declared => do
    let declared ← e.check locals declared
    Expr.checkAll locals es declared

end

namespace Program

/-- The locals are declared once each and before they are used. -/
def validate (program : Program) : Except Defect Unit := do
  let _ ← program.body.check program.locals []
  return ()

end Program

end Reshape
