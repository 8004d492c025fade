import Reshape.Routine.Collect

/-!
# Running routines

`Routine.run` runs a routine, which may run other routines, which may run others. Nothing
bounds how far this goes, so the number of routines within each other is limited by an
argument, and a run that would need more stops with `Stop.tooDeep`. More depth never changes
the outcome of a run that needs less.

`Session.convert` runs a routine, and `Session.runProgram` runs a program that belongs to no
routine ; what it needs of other routines is compiled into a registry of its own.
-/

namespace Reshape

/-- Run a routine on a source, a destination and the caller's own value, with at most `depth`
routines within each other. -/
def Routine.run : Nat → Invoke
  | 0, _, _, _, _ => throw .tooDeep
  | depth + 1, routine, source, destination, state =>
    let frame : Frame := ⟨source, destination, state, routine.linkage⟩
    match routine.body with
    | .program program => program.run (Routine.run depth) frame
    | .collection mapper => mapper.run (Routine.run depth) frame
    | .unresolved => return .null

namespace Session

/-- The number of routines that may run within each other, more than any memory holds. -/
def depthLimit : Nat := 4294967296

/-- Convert a value with a routine, into a destination or a new value. -/
def convert (routine : Routine) (source : Value) (destination : Option Value) (state : Value) :
    RunM Value :=
  routine.run depthLimit source (destination.getD .null) state

/-- Run a program under a mapping. Routines it needs are compiled into a registry that is gone
once the program has ended. -/
def runProgram (mapping : Mapping) (program : Program) (source destination state : Value) :
    RunM Value := fun s =>
  let (registry, s) := s.newRegistry
  let (linkage, s) := s.newLinkage registry mapping
  match (program.ready s.pool mapping).run' 0 with
  | .error e => .error (.failed (.compile e)) (s.dropRegistry registry)
  | .ok ready =>
    match ready.run (Routine.run depthLimit) ⟨source, destination, state, linkage⟩ s with
    | .ok v s => .ok v (s.dropRegistry registry)
    | .error stop s => .error stop (s.dropRegistry registry)

end Session

end Reshape
