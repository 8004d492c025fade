import Reshape.Plan.Routine
import Reshape.Routine.Code

/-!
# Routines

A `Routine` converts values of one shape into another under a mapping. It is made once for
its `RoutineKey` and does not change. What it needs of other routines it asks of a registry,
through its `Linkage` ; the linkage also tells one routine from another.

A routine runs code, maps the elements of a collection (`CollectionMapper`), or answers
null to everything. `RoutinePlan.ready` makes the one out of the other.
-/

namespace Reshape

/-! ## Keys and linkages -/

/-- What a routine is kept under. -/
structure RoutineKey where
  source : ShapeId
  target : ShapeId
  mapping : MappingId
  deriving DecidableEq, Inhabited

/-- The place of a registry in its session. -/
structure RegistryId where
  index : Nat
  deriving DecidableEq, Inhabited

/-- The number of a linkage, and so of the routine it was made for. -/
structure LinkageId where
  index : Nat
  deriving DecidableEq, Inhabited

/-- Where code looks for other routines, and the mapping under which it does. -/
structure Linkage where
  id : LinkageId
  registry : RegistryId
  mapping : Mapping
  deriving Inhabited

/-! ## Bodies -/

/-- The way of each element into a collection. -/
inductive ElementPath where
  | verbatim
  | linked (link : Link)
  /-- by the routine for the shape of the element -/
  | dynamic (target : Option ShapeId)
  deriving Inhabited

/-- A collection plan, with a link where its elements need one. -/
structure CollectionMapper where
  kind : CollectionKind
  target : ShapeId
  path : ElementPath
  inlineElements : Bool
  construct : Option ReadyProgram
  deriving Inhabited

/-- The link for the elements, if they all go through one routine. -/
def CollectionMapper.link? (mapper : CollectionMapper) : Option Link :=
  match mapper.path with
  | .linked link => some link
  | _ => none

/-- What a routine does. -/
inductive Body where
  | program (program : ReadyProgram)
  | collection (mapper : CollectionMapper)
  /-- all values become null -/
  | unresolved
  deriving Inhabited

/-- The name under which the text of a routine shows the body. -/
def Body.name : Body → String
  | program _ => "program"
  | collection _ => "collection"
  | unresolved => "unresolved"

/-- The way of elements, with a link if one is needed. -/
def ElementRoute.ready : ElementRoute → ReadyM ElementPath
  | verbatim => return .verbatim
  | static source target => return .linked (← newLink source target)
  | dynamic target => return .dynamic target

/-- The mapper of a plan. The program that makes the container takes its links first. -/
def CollectionPlan.ready (pool : Pool) (mapping : Mapping) (plan : CollectionPlan) :
    ReadyM CollectionMapper := do
  let construct ← plan.construct.mapM (Program.ready pool mapping)
  let path ← plan.route.ready
  return ⟨plan.kind, plan.target, path, plan.inlineElements, construct⟩

/-- The body of a plan. -/
def RoutinePlan.ready (pool : Pool) (mapping : Mapping) : RoutinePlan → ReadyM Body
  | program p => return .program (← p.ready pool mapping)
  | collection plan => return .collection (← plan.ready pool mapping)
  | unresolved => return .unresolved

/-- The body of the routine for two shapes. -/
def Mapping.body (pool : Pool) (mapping : Mapping) (source target : ShapeId) :
    Except CompileError Body := do
  let plan ← mapping.plan pool source target
  (plan.ready pool mapping).run' 0

/-! ## Routines -/

/-- A conversion that is ready to be run. -/
structure Routine where
  key : RoutineKey
  copyMode : CopyMode
  body : Body
  linkage : Linkage
  deriving Inhabited

namespace Routine

/-- The two are one routine. -/
def same (a b : Routine) : Bool := a.linkage.id == b.linkage.id

/-- The routine builds collections. -/
def isCollection (r : Routine) : Bool :=
  match r.body with
  | .collection _ => true
  | _ => false

/-- The link for the elements of a collection, if they all go through one routine. -/
def elementLink? (r : Routine) : Option Link :=
  match r.body with
  | .collection mapper => mapper.link?
  | _ => none

def text (r : Routine) : String :=
  "CompiledRoutine \x7b from: " ++ r.key.source.detail ++ ", to: " ++ r.key.target.detail ++
    ", config: " ++ r.key.mapping.text ++ ", copy_mode: " ++ r.copyMode.text ++ ", body: " ++
    Text.quoted r.body.name ++ " \x7d"

end Routine

/-- The text of a link, which is resolved or not. -/
def Link.text (link : Link) (resolved : Bool) : String :=
  "LazyRoutine \x7b from: " ++ link.source.detail ++ ", to: " ++ link.target.detail ++
    ", resolved: " ++ (if resolved then "true" else "false") ++ " \x7d"

end Reshape
