import Reshape.Mapping.Basic
import Reshape.Plan.Collection
import Reshape.Program.Scope
import Reshape.Program.Text
import Reshape.Value.Default

/-!
# Code

A program is made ready to run once, and run any number of times. `Code` is its expression
with all that the pool and the mapping have to say about it filled in : the zero value of
each declared local, the template of each new instance, the converter of each custom
conversion, and a `Link` for each conversion by the routine of two known shapes. Links are
numbered in the order in which they are met, operands first.

`Program.ready` refuses a program whose locals are not declared as they should be, then
fails at the first shape that the pool cannot tell or the first converter that the mapping
does not have.
-/

namespace Reshape

/-- The number of a link within a routine. -/
structure LinkId where
  index : Nat
  deriving DecidableEq, Inhabited

/-- A place where a routine calls for the routine of two shapes. -/
structure Link where
  id : LinkId
  source : ShapeId
  target : ShapeId
  deriving DecidableEq, Inhabited

/-- An expression with all that can be known beforehand put in : zero values, templates,
converters, and links to other routines. -/
inductive Code where
  | argument (argument : Argument)
  | readLocal (id : LocalId)
  | writeLocal (id : LocalId) (value : Code)
  /-- start a local with this zero value -/
  | declareLocal (id : LocalId) (zero : Value)
  | newInstance (template : Template)
  | box (value : Code)
  | unbox (value : Code)
  | returns (value : Code)
  | sequence (children : List Code)
  /-- convert with the routine that the link leads to -/
  | invokeLinked (link : Link) (value destination : Code)
  /-- convert with the routine for the shape of the value -/
  | invokeDynamic (target : ShapeId) (value destination : Code)
  | null
  | readMember (object : Code) (shape : ShapeId) (member : Nat)
  | writeMember (id : LocalId) (member : Nat) (value : Code)
  | coalesce (value fallback : Code)
  | ifNotNull (test body : Code)
  | convert (target : Primitive) (value : Code)
  | custom (converter : Registered) (value : Code)
  deriving Inhabited

mutual

/-- The locals that code declares whenever it is evaluated to its end. What a branch declares
is left out. -/
def Code.declares : Code → List LocalId
  | .declareLocal id _ => [id]
  | .argument _ | .readLocal _ | .newInstance _ | .null => []
  | .writeLocal _ value | .box value | .unbox value | .returns value | .readMember value _ _
  | .writeMember _ _ value | .convert _ value | .custom _ value => value.declares
  | .sequence children => Code.declaresAll children
  | .invokeLinked _ value destination | .invokeDynamic _ value destination =>
    value.declares ++ destination.declares
  | .coalesce first _ | .ifNotNull first _ => first.declares

/-- The locals that codes declare, run one after the other. -/
def Code.declaresAll : List Code → List LocalId
  | [] => []
  | code :: codes => code.declares ++ Code.declaresAll codes

end

/-- Code, and the number of locals it runs with. -/
structure ReadyProgram where
  code : Code
  localCount : Nat
  deriving Inhabited

/-- Getting ready, with the number of the next link. -/
abbrev ReadyM := StateT Nat (Except CompileError)

/-- A new link. -/
def newLink (source target : ShapeId) : ReadyM Link := do
  let number ← get
  set (number + 1)
  return ⟨⟨number⟩, source, target⟩

/-- What the pool says, or its failure. -/
def ReadyM.ofPool {α : Type} (x : Except ShapeError α) : ReadyM α :=
  StateT.lift (Pool.orCompileError x)

mutual

/-- The code of an expression. -/
def Expr.ready (pool : Pool) (mapping : Mapping) : Expr → ReadyM Code
  | .argument a => return .argument a
  | .readLocal id => return .readLocal id
  | .writeLocal id value => do
    return .writeLocal id (← value.ready pool mapping)
  | .declareLocal id shape => do
    return .declareLocal id (← ReadyM.ofPool (pool.zeroValue shape))
  | .newInstance shape => do
    return .newInstance (← ReadyM.ofPool (Template.ofShape pool shape))
  | .box value => do
    return .box (← value.ready pool mapping)
  | .unbox value => do
    return .unbox (← value.ready pool mapping)
  | .returns value => do
    return .returns (← value.ready pool mapping)
  | .sequence children => do
    return .sequence (← Expr.readyAll pool mapping children)
  | .invoke source target value destination => do
    let value ← value.ready pool mapping
    let destination ← destination.ready pool mapping
    if source = ShapeId.any then return .invokeDynamic target value destination
    else return .invokeLinked (← newLink source target) value destination
  | .null => return .null
  | .readMember object shape member => do
    return .readMember (← object.ready pool mapping) shape member
  | .writeMember id member value => do
    return .writeMember id member (← value.ready pool mapping)
  | .coalesce value fallback => do
    let value ← value.ready pool mapping
    return .coalesce value (← fallback.ready pool mapping)
  | .ifNotNull test body => do
    let test ← test.ready pool mapping
    return .ifNotNull test (← body.ready pool mapping)
  | .convert (.primitive _ target) value => do
    return .convert target (← value.ready pool mapping)
  | .convert (.custom id) value => do
    let value ← value.ready pool mapping
    match mapping.converter? id with
    | some converter => return .custom converter value
    | none => throw (.unknownConverter id)

/-- The codes of expressions, in order. -/
def Expr.readyAll (pool : Pool) (mapping : Mapping) : List Expr → ReadyM (List Code)
  | [] => return []
  | e :: es => do
    let code ← e.ready pool mapping
    return code :: (← Expr.readyAll pool mapping es)

end

/-- The program as code, if its locals are declared as they should be. -/
def Program.ready (pool : Pool) (mapping : Mapping) (program : Program) :
    ReadyM ReadyProgram := do
  match program.validate with
  | .error defect => throw (.malformed defect program.text)
  | .ok () => return ⟨← program.body.ready pool mapping, program.locals.length⟩

end Reshape
