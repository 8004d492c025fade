import Reshape.Proofs.Outcome
import Reshape.Routine.Run

/-!
# Conversions without programs

The programs of routines come in few forms, and what they do can be said without locals, logs
and code. A `Transfer` is what becomes of one value on its way into another place ; an `Origin`
is how an instance comes about ; a `RecordForm` fills the members of a record one after the
other. Each has its `code`, and its `run` on sessions alone.

`EvalM.Does` says that a computation on machines does what one on sessions does, and leaves the
locals as they are. Along it, the code of each form does what the form says
(`Transfer.does_code`, `RecordForm.run_code`).
-/

namespace Reshape

/-! ## Forms -/

/-- What becomes of a value on its way into another place. -/
inductive Transfer where
  | same
  | convert (target : Primitive)
  | custom (converter : Registered)
  /-- by the routine that the link leads to ; into what is there already, where `reuse` is set,
  and stored in place, where `inline` is set -/
  | linked (link : Link) (reuse inline : Bool)
  /-- by the routine for the shape of the value ; without a target the shape stays the same -/
  | dynamic (target : Option ShapeId) (reuse inline : Bool)
  deriving Inhabited

namespace Transfer

/-- The value, stored in place where that is asked for. -/
def placed (inline : Bool) (v : Value) : Value :=
  if inline then v.unboxed else v

/-- What the routine makes of the value that the link leads to. -/
def byLink (invoke : Invoke) (frame : Frame) (link : Link) (value current : RunM Value) :
    RunM Value := do
  let v ← value
  if v.isNull then return .null
  else
    let d ← current
    let routine ← Session.resolve frame.linkage link
    invoke routine v d frame.state

/-- What the routine makes of the value that its shape asks for. -/
def byShape (invoke : Invoke) (frame : Frame) (target : Option ShapeId)
    (value current : RunM Value) : RunM Value := do
  let v ← value
  match (← get).heap.shape? v with
  | none => return .null
  | some shape =>
    let d ← current
    let routine ← Session.resolveDynamic frame.linkage shape (target.getD shape)
    invoke routine v d frame.state

/-- What is there already, where it is to be reused. -/
def reused (reuse : Bool) (current : RunM Value) : RunM Value :=
  if reuse then current else return .null

/-- What comes of the value, with `current` in the place that it goes to. -/
def run (invoke : Invoke) (frame : Frame) (value current : RunM Value) :
    Transfer → RunM Value
  | same => value
  | convert target => do
    let v ← value
    RunM.onHeapExcept .primitive (Heap.convert v target)
  | custom c => do
    let v ← value
    if v.isNull then return .null else Session.callConverter c v frame.state
  | linked link reuse inline =>
    placed inline <$> byLink invoke frame link value (reused reuse current)
  | dynamic target reuse inline =>
    placed inline <$> byShape invoke frame target value (reused reuse current)

/-- The code for a value in place, where that is asked for. -/
def placedCode (inline : Bool) (code : Code) : Code :=
  if inline then .unbox code else code

/-- The code that the transfer was compiled to, over the code for the value and for what is
there already. -/
def code (value current : Code) : Transfer → Code
  | same => value
  | convert target => .convert target value
  | custom c => .custom c value
  | linked link reuse inline =>
    placedCode inline (.invokeLinked link value (if reuse then current else .null))
  | dynamic target reuse inline =>
    placedCode inline
      (.invokeDynamic (target.getD ShapeId.any) value (if reuse then current else .null))

/-- The shape `any` is no target of its own : to code it means that the shape stays. -/
def Proper : Transfer → Prop
  | dynamic target _ _ => target ≠ some ShapeId.any
  | _ => True

end Transfer

/-- How an instance comes about where none is supplied. -/
inductive Origin where
  /-- the zero value, in a box -/
  | zero (value : Value)
  | template (template : Template)
  /-- null, for want of an instance -/
  | absent
  deriving Inhabited

namespace Origin

/-- The instance that is made, and the heap with it. -/
def make : Origin → Heap → Value × Heap
  | zero value, heap => heap.box value
  | template t, heap => t.instantiate heap
  | absent, heap => (.null, heap)

/-- Make the instance in the session's heap. -/
def run (origin : Origin) : RunM Value :=
  RunM.onHeap origin.make

/-- The code for the instance, whose local is `first`. -/
def code (first : LocalId) : Origin → Code
  | zero value => .sequence [.declareLocal first value, .box (.readLocal first)]
  | template t => .newInstance t
  | absent => .null

end Origin

/-- The member of a record of the shape, as it is now. Null has null members. -/
def RunM.readMember (v : Value) (shape : ShapeId) (member : Nat) : RunM Value := do
  let s ← get
  match s.heap.shape? v with
  | none => return .null
  | some found =>
    if found = shape then return (s.heap.member? v member).getD .null
    else throw (.failed (.shapeMismatch shape found))

/-- The member of a value that is taken for a record of the shape. -/
def Heap.memberAs (heap : Heap) (v : Value) (shape : ShapeId) (i : Nat) : Except Stop Value :=
  match heap.shape? v with
  | none => .ok .null
  | some found =>
    if found = shape then .ok ((heap.member? v i).getD .null)
    else .error (.failed (.shapeMismatch shape found))

theorem RunM.readMember_eq (v : Value) (shape : ShapeId) (i : Nat) (s : Session) :
    RunM.readMember v shape i s = (ofExcept (s.heap.memberAs v shape i) : RunM Value) s := by
  change (match s.heap.shape? v with
    | none => return .null
    | some found =>
      if found = shape then return (s.heap.member? v i).getD .null
      else throw (.failed (.shapeMismatch shape found)) : RunM Value) s = _
  unfold Heap.memberAs
  cases s.heap.shape? v with
  | none => rfl
  | some found =>
    dsimp only
    split <;> rfl

theorem RunM.readMember_eq_ok {s : Session} {v : Value} {shape : ShapeId} (i : Nat)
    (hshape : s.heap.shape? v = some shape) :
    RunM.readMember v shape i s = .ok ((s.heap.member? v i).getD .null) s := by
  rw [readMember_eq, Heap.memberAs, hshape]
  dsimp only
  rw [if_pos rfl]
  rfl

/-- A member that is filled from another one. -/
structure MemberTransfer where
  pair : MemberPair
  transfer : Transfer
  deriving Inhabited

/-- The code that fills the member of the record that one local holds, a record of the shape
`target`, from the record that the other local holds, one of the shape `source`. -/
def MemberTransfer.code (source target : ShapeId) (m : MemberTransfer) : Code :=
  .writeMember Mapping.targetLocal m.pair.destination (m.transfer.code
    (.readMember (.readLocal Mapping.sourceLocal) source m.pair.source)
    (.readMember (.readLocal Mapping.targetLocal) target m.pair.destination))

/-- A record of the shape `target`, filled from one of the shape `source`. -/
structure RecordForm where
  source : ShapeId
  target : ShapeId
  origin : Origin
  members : List MemberTransfer
  /-- The record is a value type, and is answered in a box. -/
  boxed : Bool
  deriving Inhabited

namespace RecordForm

/-- The record with one more member filled. -/
def fill (form : RecordForm) (invoke : Invoke) (frame : Frame) (source record : Value)
    (m : MemberTransfer) : RunM Value := do
  let v ← m.transfer.run invoke frame (RunM.readMember source form.source m.pair.source)
    (RunM.readMember record form.target m.pair.destination)
  RunM.onHeap (Heap.writeMember record m.pair.destination v)

/-- The record with the members filled, in order. -/
def fillAll (form : RecordForm) (invoke : Invoke) (frame : Frame) (source record : Value)
    (members : List MemberTransfer) : RunM Value :=
  members.foldlM (form.fill invoke frame source) record

/-- Members are filled from the first on. -/
theorem fillAll_cons (form : RecordForm) (invoke : Invoke) (frame : Frame) (source record : Value)
    (m : MemberTransfer) (members : List MemberTransfer) :
    form.fillAll invoke frame source record (m :: members) =
      form.fill invoke frame source record m >>= fun record =>
        form.fillAll invoke frame source record members :=
  List.foldlM_cons

/-- The record, in a box if it is a value type. -/
def result (form : RecordForm) (record : Value) : RunM Value :=
  if form.boxed then RunM.onHeap (Heap.box record) else return record

/-- The supplied record, or else a new one. -/
def destination (form : RecordForm) (frame : Frame) : RunM Value :=
  if frame.destination.isNull then form.origin.run else return frame.destination

/-- The record filled from the source, unless there is none to fill. -/
def convert (form : RecordForm) (invoke : Invoke) (frame : Frame) (source record : Value) :
    RunM Value := do
  if record.isNull then return .null
  else
    let record ← form.fillAll invoke frame source record form.members
    form.result record

/-- What a record conversion does : null stays null, and any other source fills the
destination. -/
def run (form : RecordForm) (invoke : Invoke) (frame : Frame) : RunM Value := do
  if frame.source.isNull then return .null
  else
    let record ← form.destination frame
    form.convert invoke frame frame.source.unboxed record.unboxed

/-- The code that answers the record, boxed if its shape asks for it. -/
def resultCode (form : RecordForm) : Code :=
  if form.boxed then .box (.readLocal Mapping.targetLocal) else .readLocal Mapping.targetLocal

/-- The code of the program, given the zero values of the two shapes. -/
def code (form : RecordForm) (sourceZero targetZero : Value) : Code :=
  .ifNotNull (.argument .source) (.sequence [
    .declareLocal Mapping.sourceLocal sourceZero,
    .writeLocal Mapping.sourceLocal (.unbox (.argument .source)),
    .declareLocal Mapping.targetLocal targetZero,
    .writeLocal Mapping.targetLocal
      (.unbox (.coalesce (.argument .destination) (form.origin.code ⟨2⟩))),
    .ifNotNull (.readLocal Mapping.targetLocal)
      (.sequence (form.members.map (·.code form.source form.target) ++
        [.returns form.resultCode])),
    .returns .null])

end RecordForm

/-! ## Computations on machines and on sessions -/

/-- On machines whose locals satisfy `p`, `x` does to the session what `y` does, and answers what
`out` makes of the value of `y`. The locals it leaves behind satisfy what `q` says of that value. -/
def EvalM.DoesTo {α β : Type} (p : List Value → Prop) (x : EvalM α) (y : RunM β) (out : β → α)
    (q : β → List Value → Prop) : Prop :=
  ∀ m : Machine, p m.locals →
    match y m.session with
    | .ok b s => ∃ m', x m = .ok (out b) m' ∧ m'.session = s ∧ q b m'.locals
    | .error stop s => ∃ m', x m = .error (.stopped stop) m' ∧ m'.session = s

/-- On machines whose locals satisfy `p`, `x` does what `y` does, and `p` is kept. -/
def EvalM.Does {α : Type} (p : List Value → Prop) (x : EvalM α) (y : RunM α) : Prop :=
  EvalM.DoesTo p x y id fun _ => p

/-- On machines whose locals satisfy `p`, `x` ends the program with the value that `y` answers. -/
def EvalM.Returns (p : List Value → Prop) (x : EvalM Value) (y : RunM Value) : Prop :=
  ∀ m : Machine, p m.locals →
    match y m.session with
    | .ok v s => ∃ m', x m = .error (.returned v) m' ∧ m'.session = s
    | .error stop s => ∃ m', x m = .error (.stopped stop) m' ∧ m'.session = s

namespace EvalM

variable {α β γ δ : Type} {p : List Value → Prop}

theorem DoesTo.bind {x : EvalM α} {y : RunM β} {out : β → α} {q : β → List Value → Prop}
    {f : α → EvalM γ} {g : β → RunM δ} {out' : δ → γ} {q' : δ → List Value → Prop}
    (hx : DoesTo p x y out q) (hf : ∀ b, DoesTo (q b) (f (out b)) (g b) out' q') :
    DoesTo p (x >>= f) (y >>= g) out' q' := by
  intro m hm
  have hx := hx m hm
  change match EStateM.bind y g m.session with
    | .ok d s => ∃ m', EStateM.bind x f m = .ok (out' d) m' ∧ m'.session = s ∧ q' d m'.locals
    | .error stop s => ∃ m', EStateM.bind x f m = .error (.stopped stop) m' ∧ m'.session = s
  unfold EStateM.bind
  cases hy : y m.session with
  | ok b s =>
    rw [hy] at hx
    obtain ⟨m₁, hx, rfl, hq⟩ := hx
    rw [hx]
    exact hf b m₁ hq
  | error stop s =>
    rw [hy] at hx
    obtain ⟨m₁, hx, hs⟩ := hx
    rw [hx]
    exact ⟨m₁, rfl, hs⟩

theorem Returns.bind {x : EvalM α} {y : RunM β} {out : β → α} {q : β → List Value → Prop}
    {f : α → EvalM Value} {g : β → RunM Value} (hx : DoesTo p x y out q)
    (hf : ∀ b, Returns (q b) (f (out b)) (g b)) : Returns p (x >>= f) (y >>= g) := by
  intro m hm
  have hx := hx m hm
  change match EStateM.bind y g m.session with
    | .ok v s => ∃ m', EStateM.bind x f m = .error (.returned v) m' ∧ m'.session = s
    | .error stop s => ∃ m', EStateM.bind x f m = .error (.stopped stop) m' ∧ m'.session = s
  unfold EStateM.bind
  cases hy : y m.session with
  | ok b s =>
    rw [hy] at hx
    obtain ⟨m₁, hx, rfl, hq⟩ := hx
    rw [hx]
    exact hf b m₁ hq
  | error stop s =>
    rw [hy] at hx
    obtain ⟨m₁, hx, hs⟩ := hx
    rw [hx]
    exact ⟨m₁, rfl, hs⟩

/-- A computation that only looks comes first. -/
theorem Returns.of_pure {x : EvalM α} {a : α} {f : α → EvalM Value} {y : RunM Value}
    (hx : Does p x (Pure.pure a)) (hf : Returns p (f a) y) : Returns p (x >>= f) y := by
  intro m hm
  obtain ⟨m₁, hx, hs, hp⟩ := hx m hm
  have hf := hf m₁ hp
  rw [hs] at hf
  change match y m.session with
    | .ok v s => ∃ m', EStateM.bind x f m = .error (.returned v) m' ∧ m'.session = s
    | .error stop s => ∃ m', EStateM.bind x f m = .error (.stopped stop) m' ∧ m'.session = s
  unfold EStateM.bind
  rw [hx]
  exact hf

/-- What would come after the end of the program does not come. -/
theorem Returns.bind_left {x : EvalM Value} {y : RunM Value} (f : Value → EvalM Value)
    (hx : Returns p x y) : Returns p (x >>= f) y := by
  intro m hm
  have hx := hx m hm
  change match y m.session with
    | .ok v s => ∃ m', EStateM.bind x f m = .error (.returned v) m' ∧ m'.session = s
    | .error stop s => ∃ m', EStateM.bind x f m = .error (.stopped stop) m' ∧ m'.session = s
  unfold EStateM.bind
  cases hy : y m.session with
  | ok v s =>
    rw [hy] at hx
    obtain ⟨m₁, hx, hs⟩ := hx
    rw [hx]
    exact ⟨m₁, rfl, hs⟩
  | error stop s =>
    rw [hy] at hx
    obtain ⟨m₁, hx, hs⟩ := hx
    rw [hx]
    exact ⟨m₁, rfl, hs⟩

/-- A returned value ends the program. -/
theorem Returns.of_does {x : EvalM Value} {y : RunM Value} (hx : Does p x y) :
    Returns p (x >>= fun v => throw (.returned v)) y := by
  intro m hm
  have hx := hx m hm
  change match y m.session with
    | .ok v s => ∃ m', EStateM.bind x (fun v => throw (.returned v)) m = .error (.returned v) m' ∧
        m'.session = s
    | .error stop s => ∃ m', EStateM.bind x (fun v => throw (.returned v)) m =
        .error (.stopped stop) m' ∧ m'.session = s
  unfold EStateM.bind
  cases hy : y m.session with
  | ok v s =>
    rw [hy] at hx
    obtain ⟨m₁, hx, hs, -⟩ := hx
    rw [hx]
    exact ⟨m₁, rfl, hs⟩
  | error stop s =>
    rw [hy] at hx
    obtain ⟨m₁, hx, hs⟩ := hx
    rw [hx]
    exact ⟨m₁, rfl, hs⟩

theorem Does.bind {x : EvalM α} {y : RunM α} {f : α → EvalM β} {g : α → RunM β}
    (hx : Does p x y) (hf : ∀ a, Does p (f a) (g a)) : Does p (x >>= f) (y >>= g) :=
  DoesTo.bind hx hf

theorem Does.pure (a : α) : Does p (Pure.pure a) (Pure.pure a) :=
  fun m hm => ⟨m, rfl, rfl, hm⟩

theorem Does.run (y : RunM α) : Does p (EvalM.run y) y := by
  intro m hm
  unfold EvalM.run
  cases y m.session with
  | ok a s => exact ⟨_, rfl, rfl, hm⟩
  | error stop s => exact ⟨_, rfl, rfl⟩

theorem Does.stop (stop : Stop) : Does p (throw (.stopped stop) : EvalM α) (throw stop) :=
  fun m _ => ⟨m, rfl, rfl⟩

theorem Does.heap {f : Heap → EvalM α} {g : Session → RunM α}
    (hf : ∀ s : Session, Does p (f s.heap) (g s)) : Does p (EvalM.heap >>= f) (get >>= g) :=
  fun m hm => hf m.session m hm

/-- What is noted does not matter. -/
theorem Does.note (event : LocalEvent) {f : Unit → EvalM α} {y : RunM α}
    (hf : Does p (f ()) y) : Does p (EvalM.note event >>= f) y :=
  fun m hm => hf { m with events := event :: m.events } hm

theorem Does.ite {c : Prop} [Decidable c] {x x' : EvalM α} {y y' : RunM α} (h : Does p x y)
    (h' : Does p x' y') : Does p (if c then x else x') (if c then y else y') := by
  split
  · exact h
  · exact h'

end EvalM

/-! ## What the codes do -/

section

variable {p : List Value → Prop} {invoke : Invoke} {frame : Frame}

open EvalM

theorem Transfer.does_placedCode {inline : Bool} {code : Code} {y : RunM Value}
    (h : Does p (code.eval invoke frame) y) :
    Does p ((placedCode inline code).eval invoke frame) (placed inline <$> y) := by
  cases inline with
  | true =>
    rw [map_eq_pure_bind]
    exact Does.bind h fun v => .pure _
  | false =>
    rw [show placed false <$> y = y from id_map y]
    exact h

/-- The code of a transfer does what the transfer does, if the codes for the value and for what is
there already do. -/
theorem Transfer.does_code {t : Transfer} (ht : t.Proper) {value current : Code}
    {v d : RunM Value} (hv : Does p (value.eval invoke frame) v)
    (hd : Does p (current.eval invoke frame) d) :
    Does p ((t.code value current).eval invoke frame) (t.run invoke frame v d) := by
  have hreuse (reuse : Bool) : Does p ((if reuse then current else .null).eval invoke frame)
      (reused reuse d) := by
    cases reuse with
    | true => exact hd
    | false => exact .pure _
  cases t with
  | same => exact hv
  | convert target => exact .bind hv fun v => .run _
  | custom c => exact .bind hv fun v => .ite (.pure _) (.run _)
  | linked link reuse inline =>
    refine does_placedCode (.bind hv fun v => .ite (.note _ (.pure _)) ?_)
    exact .bind (hreuse reuse) fun d => .run _
  | dynamic target reuse inline =>
    refine does_placedCode (.bind hv fun v => .heap fun s => ?_)
    cases s.heap.shape? v with
    | none => exact .note _ (.pure _)
    | some shape =>
      have htarget : (if target.getD ShapeId.any = ShapeId.any then shape
          else target.getD ShapeId.any) = target.getD shape := by
        cases target with
        | none => exact if_pos rfl
        | some target => exact if_neg fun h => ht (congrArg some h)
      refine .bind (hreuse reuse) fun d => ?_
      rw [htarget]
      exact .run _

/-- A program whose code ends it with a value answers that value. -/
theorem ReadyProgram.run_of_returns {program : ReadyProgram} {y : RunM Value}
    (h : Returns (fun locals => locals.length = program.localCount)
      (program.code.eval invoke frame) y) : program.run invoke frame = y := by
  funext s
  have h := h (program.start s) List.length_replicate
  change (match y s with
    | .ok v s' => ∃ m', program.code.eval invoke frame (program.start s) =
        .error (.returned v) m' ∧ m'.session = s'
    | .error stop s' => ∃ m', program.code.eval invoke frame (program.start s) =
        .error (.stopped stop) m' ∧ m'.session = s') at h
  unfold run
  cases hy : y s with
  | ok v s' =>
    rw [hy] at h
    obtain ⟨m', heval, rfl⟩ := h
    rw [heval]
  | error stop s' =>
    rw [hy] at h
    obtain ⟨m', heval, rfl⟩ := h
    rw [heval]

/-! ### Records -/

/-- The locals hold the two records. There are `count` locals. -/
structure Holds (count : Nat) (source record : Value) (locals : List Value) : Prop where
  length : locals.length = count
  source : locals[Mapping.sourceLocal.index]? = some source
  record : locals[Mapping.targetLocal.index]? = some record

/-- The number of locals of the program. -/
def RecordForm.localCount (form : RecordForm) : Nat :=
  match form.origin with
  | .zero _ => 3
  | _ => 2

/-- A local that starts with a value, before anything else is done. -/
theorem Code.returns_declareLocal {id : LocalId} {zero last : Value} {codes : List Code}
    {y : RunM Value} {q : List Value → Prop}
    (hq : ∀ locals, p locals → q (locals.set id.index zero))
    (h : Returns q (Code.evalAll invoke frame .null codes) y) :
    Returns p (Code.evalAll invoke frame last (.declareLocal id zero :: codes)) y :=
  fun m hm => h ⟨m.locals.set id.index zero, .declared id :: m.events, m.session⟩ (hq m.locals hm)

/-- A local that takes a value, before anything else is done. -/
theorem Code.returns_writeLocal {id : LocalId} {value : Code} {last : Value} {codes : List Code}
    {v : RunM Value} {y : Value → RunM Value} {q : Value → List Value → Prop}
    (hv : Does p (value.eval invoke frame) v)
    (hq : ∀ locals w, p locals → q w (locals.set id.index w))
    (h : ∀ w, Returns (q w) (Code.evalAll invoke frame .null codes) (y w)) :
    Returns p (Code.evalAll invoke frame last (.writeLocal id value :: codes)) (v >>= y) := by
  have hwrite : DoesTo p ((Code.writeLocal id value).eval invoke frame) v (fun _ => .null) q := by
    rw [← bind_pure v]
    refine DoesTo.bind hv fun w m hm => ?_
    exact ⟨_, rfl, rfl, hq m.locals w hm⟩
  exact Returns.bind hwrite h

/-- The number of locals that the code of the origin needs. -/
def Origin.localCount : Origin → Nat
  | zero _ => 3
  | _ => 2

/-- The value of a local. -/
theorem Code.does_readLocal {id : LocalId} {v : Value}
    (hid : ∀ locals, p locals → locals[id.index]? = some v) :
    Does p ((Code.readLocal id).eval invoke frame) (Pure.pure v) := by
  intro m hm
  refine ⟨{ m with events := .read id :: m.events }, ?_, rfl, hm⟩
  have hload : (m.locals[id.index]?).getD .null = v := by rw [hid _ hm, Option.getD_some]
  exact congrArg (EStateM.Result.ok · _) hload

/-- The member of a record that a local holds. -/
theorem Code.does_readMember {id : LocalId} {v : Value}
    (hid : ∀ locals, p locals → locals[id.index]? = some v) (shape : ShapeId) (member : Nat) :
    Does p ((Code.readMember (.readLocal id) shape member).eval invoke frame)
      (RunM.readMember v shape member) := by
  refine Does.bind (g := fun v => RunM.readMember v shape member) (does_readLocal hid) fun v => ?_
  refine .heap fun s => ?_
  cases s.heap.shape? v with
  | none => exact .pure _
  | some found => exact .ite (.pure _) (.stop _)

theorem Origin.does_code (origin : Origin) {first : LocalId}
    (hset : ∀ locals v, p locals → p (locals.set first.index v))
    (hlt : ∀ value, origin = .zero value → ∀ locals, p locals → first.index < locals.length) :
    Does p ((origin.code first).eval invoke frame) origin.run := by
  cases origin with
  | absent => exact .pure Value.null
  | template t => exact .run (RunM.onHeap t.instantiate)
  | zero value =>
    intro m hm
    have hload := List.getElem?_set_self (a := value) (hlt value rfl m.locals hm)
    have hstored : Does (fun locals => locals = m.locals.set first.index value)
        ((Code.box (.readLocal first)).eval invoke frame) (RunM.onHeap (Heap.box value)) :=
      Does.bind (g := fun v => RunM.onHeap (Heap.box v))
        (Code.does_readLocal fun _ h => h ▸ hload) fun v => .run _
    obtain ⟨m', heval, hsession, hlocals⟩ :=
      hstored ⟨m.locals.set first.index value, .declared first :: m.events, m.session⟩ rfl
    exact ⟨m', heval, hsession, hlocals ▸ hset _ _ hm⟩

/-- A program that only makes an instance. -/
theorem Origin.run_code (origin : Origin) {count : Nat}
    (hcount : ∀ value, origin = .zero value → 0 < count) (invoke : Invoke) (frame : Frame) :
    (⟨.returns (origin.code ⟨0⟩), count⟩ : ReadyProgram).run invoke frame = origin.run := by
  refine ReadyProgram.run_of_returns (Returns.of_does (origin.does_code ?_ ?_))
  · exact fun _ _ h => List.length_set.trans h
  · exact fun value heq _ h => h ▸ hcount value heq

/-- A program that only transfers its source. -/
theorem Transfer.run_code {t : Transfer} (ht : t.Proper) (count : Nat) (invoke : Invoke)
    (frame : Frame) :
    (⟨.returns (t.code (.argument .source) (.argument .destination)), count⟩ : ReadyProgram).run
      invoke frame =
      t.run invoke frame (return frame.source) (return frame.destination) :=
  ReadyProgram.run_of_returns (Returns.of_does (does_code ht (.pure _) (.pure _)))

namespace RecordForm

variable {form : RecordForm} {count : Nat} {source record : Value}

/-- The code for a member fills the member, and stores the record that comes of it. -/
theorem does_memberCode {m : MemberTransfer} (hm : m.transfer.Proper) (hcount : 2 ≤ count) :
    DoesTo (Holds count source record) ((m.code form.source form.target).eval invoke frame)
      (form.fill invoke frame source record m) (fun _ => .null) (Holds count source) := by
  have hread : Does (Holds count source record) ((m.transfer.code _ _).eval invoke frame)
      (m.transfer.run invoke frame _ _) :=
    Transfer.does_code hm
      (Code.does_readMember (fun _ h => h.source) form.source m.pair.source)
      (Code.does_readMember (fun _ h => h.record) form.target m.pair.destination)
  refine DoesTo.bind hread fun v machine hmachine => ?_
  have hload : (machine.locals[Mapping.targetLocal.index]?).getD .null = record := by
    rw [hmachine.record, Option.getD_some]
  refine ⟨_, rfl, ?_, ?_⟩
  · exact congrArg (fun r => { machine.session with
      heap := (machine.session.heap.writeMember r m.pair.destination v).2 }) hload
  · have hlt : Mapping.targetLocal.index < machine.locals.length := hmachine.length ▸ hcount
    refine ⟨?_, ?_, ?_⟩
    · exact (List.length_set ..).trans hmachine.length
    · exact (List.getElem?_set_ne (by decide)).trans hmachine.source
    · refine (List.getElem?_set_self hlt).trans (congrArg some ?_)
      exact congrArg (fun r => (machine.session.heap.writeMember r m.pair.destination v).1) hload

/-- The codes for the members fill the members, and the record ends the program. -/
theorem returns_memberCodes (hcount : 2 ≤ count) {last : Value} {members : List MemberTransfer}
    (hmembers : ∀ m ∈ members, m.transfer.Proper) :
    Returns (Holds count source record)
      (Code.evalAll invoke frame last
        (members.map (·.code form.source form.target) ++ [.returns form.resultCode]))
      (form.fillAll invoke frame source record members >>= form.result) := by
  induction members generalizing record last with
  | nil =>
    have hresult : Does (Holds count source record) (form.resultCode.eval invoke frame)
        (form.result record) := by
      unfold resultCode result
      split
      · exact Does.bind (g := fun v => RunM.onHeap (Heap.box v))
          (Code.does_readLocal fun _ h => h.record) fun v => .run _
      · exact Code.does_readLocal fun _ h => h.record
    exact (Returns.of_does hresult).bind_left _
  | cons m members ih =>
    have hm : DoesTo (Holds count source record)
        ((m.code form.source form.target).eval invoke frame)
        (form.fill invoke frame source record m) (fun _ => .null) (Holds count source) :=
      does_memberCode (hmembers m List.mem_cons_self) hcount
    rw [fillAll_cons, bind_assoc]
    exact Returns.bind hm fun record =>
      ih fun m hm => hmembers m (List.mem_cons_of_mem _ hm)

/-- The code for the supplied record, or else a new one. -/
theorem does_destinationCode (hcount : form.origin.localCount ≤ count) :
    Does (fun locals => locals.length = count ∧
      locals[Mapping.sourceLocal.index]? = some source)
      ((Code.unbox (.coalesce (.argument .destination) (form.origin.code ⟨2⟩))).eval invoke frame)
      (Value.unboxed <$> form.destination frame) := by
  rw [map_eq_pure_bind]
  refine Does.bind (.ite (form.origin.does_code ?_ ?_) (.pure _)) fun v => .pure _
  · rintro locals v ⟨hlength, hsource⟩
    exact ⟨List.length_set.trans hlength, (List.getElem?_set_ne (by decide)).trans hsource⟩
  · rintro value heq locals ⟨hlength, -⟩
    rw [heq] at hcount
    exact hlength ▸ hcount

/-- The codes for what follows once there is a record. -/
theorem returns_convertCode (hmembers : ∀ m ∈ form.members, m.transfer.Proper)
    (hcount : 2 ≤ count) :
    Returns (Holds count source record)
      (Code.evalAll invoke frame .null [
        .ifNotNull (.readLocal Mapping.targetLocal)
          (.sequence (form.members.map (·.code form.source form.target) ++
            [.returns form.resultCode])),
        .returns .null])
      (form.convert invoke frame source record) := by
  have hread : Does (Holds count source record)
      ((Code.readLocal Mapping.targetLocal).eval invoke frame) (Pure.pure record) :=
    Code.does_readLocal fun _ h => h.record
  have hcases : Returns (Holds count source record)
      ((if record.isNull then (Pure.pure .null : EvalM Value)
        else Code.evalAll invoke frame .null
          (form.members.map (·.code form.source form.target) ++ [.returns form.resultCode])) >>=
        fun v => Code.evalAll invoke frame v [.returns .null])
      (form.convert invoke frame source record) := by
    unfold convert
    split
    · exact .of_pure (.pure Value.null) ((Returns.of_does (.pure Value.null)).bind_left _)
    · exact (returns_memberCodes hcount hmembers).bind_left _
  have hcode : Returns (Holds count source record)
      ((Code.readLocal Mapping.targetLocal).eval invoke frame >>= fun v =>
        (if v.isNull then (Pure.pure .null : EvalM Value)
          else Code.evalAll invoke frame .null
            (form.members.map (·.code form.source form.target) ++ [.returns form.resultCode])) >>=
          fun v => Code.evalAll invoke frame v [.returns .null])
      (form.convert invoke frame source record) := .of_pure hread hcases
  rw [← bind_assoc] at hcode
  exact hcode

/-- The codes for what follows once the source is known not to be null. -/
theorem returns_code (hmembers : ∀ m ∈ form.members, m.transfer.Proper)
    (sourceZero targetZero : Value) (hcount : form.origin.localCount ≤ count) (hle : 2 ≤ count) :
    Returns (fun locals => locals.length = count)
      (Code.evalAll invoke frame .null [
        .declareLocal Mapping.sourceLocal sourceZero,
        .writeLocal Mapping.sourceLocal (.unbox (.argument .source)),
        .declareLocal Mapping.targetLocal targetZero,
        .writeLocal Mapping.targetLocal
          (.unbox (.coalesce (.argument .destination) (form.origin.code ⟨2⟩))),
        .ifNotNull (.readLocal Mapping.targetLocal)
          (.sequence (form.members.map (·.code form.source form.target) ++
            [.returns form.resultCode])),
        .returns .null])
      (do
        let record ← form.destination frame
        form.convert invoke frame frame.source.unboxed record.unboxed) := by
  have hsplit : (do
      let record ← form.destination frame
      form.convert invoke frame frame.source.unboxed record.unboxed) = (do
        let source ← Pure.pure frame.source.unboxed
        let record ← Value.unboxed <$> form.destination frame
        form.convert invoke frame source record) := by
    rw [pure_bind, bind_map_left]
  rw [hsplit]
  refine Code.returns_declareLocal (q := fun locals => locals.length = count)
    (fun _ h => List.length_set.trans h) ?_
  refine Code.returns_writeLocal (v := Pure.pure frame.source.unboxed)
    (q := fun source locals => locals.length = count ∧
      locals[Mapping.sourceLocal.index]? = some source) (.pure _) ?_ fun source => ?_
  · intro locals source hlocals
    exact ⟨List.length_set.trans hlocals,
      List.getElem?_set_self (hlocals.symm ▸ Nat.lt_of_lt_of_le Nat.zero_lt_two hle)⟩
  refine Code.returns_declareLocal
    (q := fun locals => locals.length = count ∧
      locals[Mapping.sourceLocal.index]? = some source) ?_ ?_
  · rintro locals ⟨hlength, hsource⟩
    exact ⟨List.length_set.trans hlength, (List.getElem?_set_ne (by decide)).trans hsource⟩
  refine Code.returns_writeLocal (q := Holds count source) (does_destinationCode hcount) ?_
    fun record => returns_convertCode hmembers hle
  rintro locals record ⟨hlength, hsource⟩
  refine ⟨List.length_set.trans hlength, ?_, ?_⟩
  · exact (List.getElem?_set_ne (by decide)).trans hsource
  · exact List.getElem?_set_self (hlength.symm ▸ hle)

/-- The program of a form does what the form says. -/
theorem run_code (form : RecordForm) (hmembers : ∀ m ∈ form.members, m.transfer.Proper)
    (sourceZero targetZero : Value) (invoke : Invoke) (frame : Frame) :
    (⟨form.code sourceZero targetZero, form.origin.localCount⟩ : ReadyProgram).run invoke frame =
      form.run invoke frame := by
  have hle : 2 ≤ form.origin.localCount := by
    cases form.origin <;> simp [Origin.localCount]
  unfold run
  cases hnull : frame.source.isNull with
  | true =>
    funext s
    unfold ReadyProgram.run
    simp only [code, Code.eval, Frame.argument, pure_bind, hnull]
    rfl
  | false =>
    refine ReadyProgram.run_of_returns ?_
    simp only [code, Code.eval, Frame.argument, pure_bind, hnull]
    exact returns_code hmembers sourceZero targetZero (Nat.le_refl _) hle

end RecordForm

end

/-! ## Elements of collections -/

namespace CollectionMapper

/-- What becomes of each element. -/
def transfer (mapper : CollectionMapper) : Transfer :=
  match mapper.path with
  | .verbatim => .same
  | .linked link => .linked link false mapper.inlineElements
  | .dynamic target => .dynamic target false mapper.inlineElements

/-- Elements are transferred with nothing in their place. -/
theorem mapElement_eq (mapper : CollectionMapper) (invoke : Invoke) (frame : Frame)
    (element : Value) :
    mapper.mapElement invoke frame element =
      mapper.transfer.run invoke frame (return element) (return .null) := by
  have hnull : Transfer.placed mapper.inlineElements .null = .null := by
    cases mapper.inlineElements <;> rfl
  unfold mapElement transfer
  cases mapper.path with
  | verbatim => cases element <;> rfl
  | linked link =>
    simp only [Transfer.run, Transfer.byLink, Transfer.reused, map_eq_pure_bind, pure_bind]
    split
    · rw [pure_bind, hnull]
    · simp only [bind_assoc, Bool.false_eq_true, if_false, pure_bind]
      rfl
  | dynamic target =>
    simp only [Transfer.run, Transfer.byShape, Transfer.reused, map_eq_pure_bind, pure_bind,
      bind_assoc]
    split
    · rename_i helement
      rw [Value.isNull_iff.mp helement]
      funext s
      exact congrArg (EStateM.Result.ok · s) hnull.symm
    · refine bind_congr fun s => ?_
      cases s.heap.shape? element with
      | none =>
        dsimp only
        rw [pure_bind, hnull]
      | some shape =>
        simp only [bind_assoc, Bool.false_eq_true, if_false, pure_bind]
        rfl

/-- Arrays and lists are made of what has become of all elements. -/
theorem run_of_whole {mapper : CollectionMapper} (hkind : mapper.kind ≠ .genericInsertable)
    {invoke : Invoke} {frame : Frame} (hsource : frame.source ≠ .null) (s : Session) :
    mapper.run invoke frame s = (mapper.mapElements invoke frame
      ((s.heap.elements? frame.source).getD [frame.source]) >>= fun items =>
        RunM.onHeap (Heap.alloc (.seq mapper.target items.toArray))) s := by
  unfold run
  rw [if_neg fun hnull => hsource (Value.isNull_iff.mp hnull)]
  cases hk : mapper.kind with
  | array | typedList | untypedList => rfl
  | genericInsertable => exact absurd hk hkind

end CollectionMapper

end Reshape
