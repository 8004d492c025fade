import Reshape.Routine.Session

/-!
# Running code

`Code.eval` runs code against a `Machine` : the locals, a record of what was done to them,
and the session. The arguments, and the linkage through which other routines are found, are
in the `Frame` and do not change. Running another routine is left to a parameter.

Code ends early with the value of a `returns`, or because the run stops. Whatever it changed
until then stays changed.
-/

namespace Reshape

/-- What code is run with. -/
structure Frame where
  source : Value
  destination : Value
  state : Value
  linkage : Linkage
  deriving Inhabited

/-- The value of an argument. -/
def Frame.argument (frame : Frame) : Argument → Value
  | .source => frame.source
  | .destination => frame.destination
  | .state => frame.state

/-- What is done to a local, or left undone. -/
inductive LocalEvent where
  | declared (id : LocalId)
  | read (id : LocalId)
  | written (id : LocalId)
  | memberWritten (id : LocalId)
  /-- An operand was passed over, which would have declared these locals. -/
  | passedOver (ids : List LocalId)
  deriving DecidableEq

/-- What code changes while it runs. -/
structure Machine where
  /-- The values of the locals ; null before anything is stored. -/
  locals : List Value
  /-- What was done to the locals, the latest first. -/
  events : List LocalEvent := []
  session : Session
  deriving Inhabited

/-- Why code ended before its end. -/
inductive Exit where
  | returned (value : Value)
  | stopped (stop : Stop)

/-- Code that runs in a machine and may end early. -/
abbrev EvalM := EStateM Exit Machine

/-- Another routine, run on a source, a destination and the caller's own value. -/
abbrev Invoke := Routine → Value → Value → Value → RunM Value

namespace EvalM

/-- Change the session. -/
def run {α : Type} (x : RunM α) : EvalM α := fun m =>
  match x m.session with
  | .ok a session => .ok a { m with session := session }
  | .error stop session => .error (.stopped stop) { m with session := session }

/-- Change the heap. -/
def onHeap {α : Type} (f : Heap → α × Heap) : EvalM α :=
  run (.onHeap f)

/-- What the heap shows. -/
def heap : EvalM Heap := do
  return (← get).session.heap

/-- Put down what was done to a local. -/
def note (event : LocalEvent) : EvalM Unit :=
  modify fun m => { m with events := event :: m.events }

/-- The value that a local holds. -/
def load (id : LocalId) : EvalM Value := do
  return ((← get).locals[id.index]?).getD .null

/-- Make a local hold a value. -/
def store (id : LocalId) (v : Value) : EvalM Unit :=
  modify fun m => { m with locals := m.locals.set id.index v }

end EvalM

mutual

/-- The value of code. -/
def Code.eval (invoke : Invoke) (frame : Frame) : Code → EvalM Value
  | .argument a => return frame.argument a
  | .readLocal id => do
    EvalM.note (.read id)
    EvalM.load id
  | .writeLocal id value => do
    let v ← value.eval invoke frame
    EvalM.note (.written id)
    EvalM.store id v
    return .null
  | .declareLocal id zero => do
    EvalM.note (.declared id)
    EvalM.store id zero
    return .null
  | .newInstance template => EvalM.onHeap template.instantiate
  | .box value => do
    let v ← value.eval invoke frame
    EvalM.onHeap (Heap.box v)
  | .unbox value => do
    let v ← value.eval invoke frame
    return v.unboxed
  | .returns value => do
    let v ← value.eval invoke frame
    throw (.returned v)
  | .sequence children => Code.evalAll invoke frame .null children
  | .invokeLinked link value destination => do
    let v ← value.eval invoke frame
    if v.isNull then
      EvalM.note (.passedOver destination.declares)
      return .null
    else
      let d ← destination.eval invoke frame
      EvalM.run do
        let routine ← Session.resolve frame.linkage link
        invoke routine v d frame.state
  | .invokeDynamic target value destination => do
    let v ← value.eval invoke frame
    match (← EvalM.heap).shape? v with
    | none =>
      EvalM.note (.passedOver destination.declares)
      return .null
    | some shape =>
      let d ← destination.eval invoke frame
      EvalM.run do
        let target := if target = ShapeId.any then shape else target
        let routine ← Session.resolveDynamic frame.linkage shape target
        invoke routine v d frame.state
  | .null => return .null
  | .readMember object shape member => do
    let v ← object.eval invoke frame
    let heap ← EvalM.heap
    match heap.shape? v with
    | none => return .null
    | some found =>
      if found = shape then return (heap.member? v member).getD .null
      else throw (.stopped (.failed (.shapeMismatch shape found)))
  | .writeMember id member value => do
    let v ← value.eval invoke frame
    EvalM.note (.memberWritten id)
    let record ← EvalM.load id
    let record ← EvalM.onHeap (Heap.writeMember record member v)
    EvalM.store id record
    return .null
  | .coalesce value fallback => do
    let v ← value.eval invoke frame
    if v.isNull then fallback.eval invoke frame else return v
  | .ifNotNull test body => do
    let v ← test.eval invoke frame
    if v.isNull then return .null else body.eval invoke frame
  | .convert target value => do
    let v ← value.eval invoke frame
    EvalM.run (.onHeapExcept .primitive (Heap.convert v target))
  | .custom converter value => do
    let v ← value.eval invoke frame
    if v.isNull then return .null
    else EvalM.run (Session.callConverter converter v frame.state)

/-- The value of the last of the codes, run one after the other, or `last` if there is none. -/
def Code.evalAll (invoke : Invoke) (frame : Frame) (last : Value) : List Code → EvalM Value
  | [] => return last
  | code :: codes => do
    let v ← code.eval invoke frame
    Code.evalAll invoke frame v codes

end

namespace ReadyProgram

/-- The machine before the first step. -/
def start (program : ReadyProgram) (session : Session) : Machine where
  locals := List.replicate program.localCount .null
  session := session

/-- The value of a program : what it returns, or the value of its code. -/
def run (program : ReadyProgram) (invoke : Invoke) (frame : Frame) : RunM Value := fun s =>
  match program.code.eval invoke frame (program.start s) with
  | .ok v m => .ok v m.session
  | .error (.returned v) m => .ok v m.session
  | .error (.stopped stop) m => .error stop m.session

end ReadyProgram

end Reshape
