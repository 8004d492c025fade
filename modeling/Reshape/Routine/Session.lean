import Reshape.Routine.Basic

/-!
# Sessions

A `Session` is all that conversions work on : a pool of shapes, a heap, registries that keep
routines, the links that have been resolved, and a record of the calls of converters.

A registry makes the routine for a key once (`getOrCompile`) and keeps it ; a failure to
compile changes nothing but the count of compilations. A link is resolved when it is needed
first (`resolve`), and leads to that routine from then on, for as long as the routine lives.

A registry lives as long as it has an owner. A routine lives as long as its registry does, or
longer if it is held elsewhere (`hold`). Once a registry is gone, links that have not led to a
living routine before fail with `ConversionError.registryDropped`.
-/

namespace Reshape

/-! ## Registries -/

/-- The routines that are kept, and how many owners keep them. -/
structure Registry where
  owners : Nat := 1
  /-- The routines, each under its key. -/
  routines : List Routine := []
  /-- The number of compilations, failed ones included. -/
  compiles : Nat := 0
  deriving Inhabited

namespace Registry

/-- The number of routines kept. -/
def size (registry : Registry) : Nat := registry.routines.length

/-- The routine kept under a key. -/
def find? (registry : Registry) (key : RoutineKey) : Option Routine :=
  registry.routines.find? fun r => r.key = key

def text (registry : Registry) : String :=
  "RoutineRegistry \x7b routines: " ++ String.ofList (natText registry.size) ++ ", compiles: " ++
    String.ofList (natText registry.compiles) ++ ", .. \x7d"

end Registry

/-! ## Sessions -/

/-- A call of a converter. -/
structure ConverterCall where
  converter : String
  source : ShapeId
  target : ShapeId
  value : Value
  state : Value
  /-- The call with the values as they were at that time. -/
  text : String
  deriving Inhabited

/-- A link that has been resolved. -/
structure Resolution where
  linkage : LinkageId
  link : Link
  routine : Routine
  deriving Inhabited

/-- All that compiling and running routines reads and changes. -/
structure Session where
  pool : Pool := Pool.initial
  heap : Heap := {}
  registries : List Registry := []
  /-- The number of linkages made. -/
  linkages : Nat := 0
  resolutions : List Resolution := []
  /-- The routines held outside of registries. -/
  held : List LinkageId := []
  /-- The calls of converters, the latest first. -/
  calls : List ConverterCall := []
  deriving Inhabited

/-- Why a run ended without a value. -/
inductive Stop where
  | failed (error : ConversionError)
  /-- more routines within each other than the run was allowed -/
  | tooDeep
  deriving DecidableEq

/-- A computation in a session that may fail to compile. -/
abbrev CompileM := EStateM CompileError Session

/-- A computation in a session that may stop early. -/
abbrev RunM := EStateM Stop Session

/-- Compile in the course of a run. -/
def CompileM.toRun {α : Type} (x : CompileM α) : RunM α := fun s =>
  match x s with
  | .ok a s => .ok a s
  | .error e s => .error (.failed (.compile e)) s

/-- Change the heap in the course of a run. -/
def RunM.onHeap {α : Type} (f : Heap → α × Heap) : RunM α := fun s =>
  let (a, heap) := f s.heap
  .ok a { s with heap := heap }

/-- Change the heap in the course of a run, and fail if the change does. -/
def RunM.onHeapExcept {ε α : Type} (wrap : ε → ConversionError)
    (f : Heap → Except ε α × Heap) : RunM α := fun s =>
  match f s.heap with
  | (.ok a, heap) => .ok a { s with heap := heap }
  | (.error e, heap) => .error (.failed (wrap e)) { s with heap := heap }

namespace Session

/-! ### Owners -/

/-- The registry at a place, whether it has owners left or not. -/
def registryWith? (s : Session) (id : RegistryId) : Option Registry :=
  s.registries[id.index]?

/-- The registry is there and has an owner left. -/
def registryAlive (s : Session) (id : RegistryId) : Bool :=
  ((s.registryWith? id).map fun r => decide (0 < r.owners)).getD false

/-- The routine's registry lives, or it is held elsewhere. -/
def routineAlive (s : Session) (r : Routine) : Bool :=
  s.registryAlive r.linkage.registry || s.held.contains r.linkage.id

/-- Change the registry at a place, if there is one. -/
def modifyRegistry (id : RegistryId) (f : Registry → Registry) (s : Session) : Session :=
  { s with registries := s.registries.modify id.index f }

/-- A new registry, with one owner. -/
def newRegistry (s : Session) : RegistryId × Session :=
  (⟨s.registries.length⟩, { s with registries := s.registries ++ [{}] })

/-- One more owner of a registry. -/
def shareRegistry (id : RegistryId) (s : Session) : Session :=
  s.modifyRegistry id fun r => { r with owners := r.owners + 1 }

/-- One owner of a registry less. -/
def dropRegistry (id : RegistryId) (s : Session) : Session :=
  s.modifyRegistry id fun r => { r with owners := r.owners - 1 }

/-- Keep a routine alive. -/
def hold (r : Routine) (s : Session) : Session :=
  { s with held := r.linkage.id :: s.held }

/-- Undo one `hold`. -/
def release (r : Routine) (s : Session) : Session :=
  { s with held := s.held.erase r.linkage.id }

/-- A new linkage. -/
def newLinkage (registry : RegistryId) (mapping : Mapping) (s : Session) : Linkage × Session :=
  (⟨⟨s.linkages⟩, registry, mapping⟩, { s with linkages := s.linkages + 1 })

/-! ### Finding routines -/

/-- The routine that a registry keeps under a key. -/
def cached? (s : Session) (registry : RegistryId) (key : RoutineKey) : Option Routine :=
  (s.registryWith? registry).bind fun r => r.find? key

/-- Make the routine for a key. The registry counts this and keeps the routine. -/
def compileRoutine (registry : RegistryId) (key : RoutineKey) (mapping : Mapping) :
    CompileM Routine := do
  modify (modifyRegistry registry fun r => { r with compiles := r.compiles + 1 })
  match mapping.body (← get).pool key.source key.target with
  | .error e => throw e
  | .ok body =>
    let linkage ← modifyGet (newLinkage registry mapping)
    let routine : Routine := ⟨key, mapping.copyMode, body, linkage⟩
    modify (modifyRegistry registry fun r => { r with routines := r.routines ++ [routine] })
    return routine

/-- The routine for two shapes under a mapping, which is made if there is none yet. -/
def getOrCompile (registry : RegistryId) (source target : ShapeId) (mapping : Mapping) :
    CompileM Routine := do
  let key : RoutineKey := ⟨source, target, mapping.id⟩
  match (← get).cached? registry key with
  | some routine => return routine
  | none => compileRoutine registry key mapping

/-- A routine that is kept is found, and nothing changes. -/
theorem getOrCompile_of_cached {registry : RegistryId} {source target : ShapeId}
    {mapping : Mapping} {s : Session} {routine : Routine}
    (h : s.cached? registry ⟨source, target, mapping.id⟩ = some routine) :
    getOrCompile registry source target mapping s = .ok routine s := by
  unfold getOrCompile
  rw [get_bind, h]
  rfl

/-- A routine that is missing is made. -/
theorem getOrCompile_of_not_cached {registry : RegistryId} {source target : ShapeId}
    {mapping : Mapping} {s : Session}
    (h : s.cached? registry ⟨source, target, mapping.id⟩ = none) :
    getOrCompile registry source target mapping s =
      compileRoutine registry ⟨source, target, mapping.id⟩ mapping s := by
  unfold getOrCompile
  rw [get_bind, h]

/-- The routine for two shapes, for code with this linkage. -/
def resolveDynamic (linkage : Linkage) (source target : ShapeId) : RunM Routine := do
  if (← get).registryAlive linkage.registry then
    (getOrCompile linkage.registry source target linkage.mapping).toRun
  else throw (.failed .registryDropped)

/-- Where a link has led to. -/
def resolution? (s : Session) (linkage : Linkage) (link : Link) : Option Routine :=
  (s.resolutions.find? fun r => r.linkage == linkage.id && r.link == link).map
    Resolution.routine

/-- The routine that the link leads to is known. -/
def isResolved (s : Session) (linkage : Linkage) (link : Link) : Bool :=
  (s.resolution? linkage link).isSome

/-- Note where a link leads, unless it has led somewhere before. -/
def noteResolution (linkage : Linkage) (link : Link) (routine : Routine) (s : Session) :
    Session :=
  if s.isResolved linkage link then s
  else { s with resolutions := s.resolutions ++ [⟨linkage.id, link, routine⟩] }

/-- The living routine that a link has led to. -/
def linked? (s : Session) (linkage : Linkage) (link : Link) : Option Routine :=
  (s.resolution? linkage link).filter s.routineAlive

/-- The routine that a link leads to. -/
def resolve (linkage : Linkage) (link : Link) : RunM Routine := do
  match (← get).linked? linkage link with
  | some routine => return routine
  | none =>
    let routine ← resolveDynamic linkage link.source link.target
    modify (noteResolution linkage link routine)
    return routine

/-- A link that has led to a living routine leads there again, whatever has become of the
registry. -/
theorem resolve_of_linked {linkage : Linkage} {link : Link} {s : Session} {routine : Routine}
    (h : s.linked? linkage link = some routine) : resolve linkage link s = .ok routine s := by
  unfold resolve
  rw [get_bind, h]
  rfl

/-- A link that leads nowhere yet leads where its shapes do. -/
theorem resolve_of_not_linked {linkage : Linkage} {link : Link} {s : Session}
    (h : s.linked? linkage link = none) :
    resolve linkage link s = (do
      let routine ← resolveDynamic linkage link.source link.target
      modify (noteResolution linkage link routine)
      return routine) s := by
  unfold resolve
  rw [get_bind, h]

/-! ### Calling converters -/

/-- The record of a call. -/
def converterCall (s : Session) (c : Registered) (value state : Value) : ConverterCall where
  converter := c.converter.name
  source := c.source
  target := c.target
  value := value
  state := state
  text := c.converter.name ++ " " ++ c.source.text ++ "->" ++ c.target.text ++ " " ++
    s.heap.text value ++ " " ++ s.heap.text state

/-- Call a converter, and keep a record of it. -/
def callConverter (c : Registered) (value state : Value) : RunM Value := do
  modify fun s => { s with calls := s.converterCall c value state :: s.calls }
  RunM.onHeapExcept (fun e => e) (c.converter.apply value state)

end Session

end Reshape
