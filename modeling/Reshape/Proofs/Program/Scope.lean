import Reshape.Proofs.Program.Coded
import Reshape.Proofs.Program.Declared

/-!
# Locals in a run

What `Program.validate` promises for the run of a program. The log of a run holds what was done
to the locals, the latest first. A local that is read or written has been declared before, or
its declaration stands in an operand that this run has passed over (`Accounted`) : the
destination of a conversion whose value turned out null.

`Code.Scoped` is the walk of `Expr.check` on code, told as a relation. Code that is scoped keeps
the log accounted for, whatever its branches do and however it ends (`Code.Scoped.accounting`).
-/

namespace Reshape

/-! ## Scoped code -/

mutual

/-- With the locals `known` declared, the code declares each local before it uses it, and
declares those of `known'` if it is evaluated to its end. -/
inductive Code.Scoped : Code → List LocalId → List LocalId → Prop
  | argument {a known} : Scoped (.argument a) known known
  | readLocal {id known} (h : id ∈ known) : Scoped (.readLocal id) known known
  | writeLocal {id value known known'} (hvalue : Scoped value known known') (h : id ∈ known') :
    Scoped (.writeLocal id value) known known'
  | declareLocal {id zero known} : Scoped (.declareLocal id zero) known (id :: known)
  | newInstance {template known} : Scoped (.newInstance template) known known
  | box {value known known'} (hvalue : Scoped value known known') :
    Scoped (.box value) known known'
  | unbox {value known known'} (hvalue : Scoped value known known') :
    Scoped (.unbox value) known known'
  | returns {value known known'} (hvalue : Scoped value known known') :
    Scoped (.returns value) known known'
  | sequence {children known known'} (h : ScopedAll children known known') :
    Scoped (.sequence children) known known'
  | invokeLinked {link value destination known known₁ known'} (hvalue : Scoped value known known₁)
    (hdestination : Scoped destination known₁ known') :
    Scoped (.invokeLinked link value destination) known known'
  | invokeDynamic {target value destination known known₁ known'}
    (hvalue : Scoped value known known₁) (hdestination : Scoped destination known₁ known') :
    Scoped (.invokeDynamic target value destination) known known'
  | null {known} : Scoped .null known known
  | readMember {object shape member known known'} (hobject : Scoped object known known') :
    Scoped (.readMember object shape member) known known'
  | writeMember {id member value known known'} (hvalue : Scoped value known known')
    (h : id ∈ known') : Scoped (.writeMember id member value) known known'
  | coalesce {value fallback known known' known₂} (hvalue : Scoped value known known')
    (hfallback : Scoped fallback known' known₂) : Scoped (.coalesce value fallback) known known'
  | ifNotNull {test body known known' known₂} (htest : Scoped test known known')
    (hbody : Scoped body known' known₂) : Scoped (.ifNotNull test body) known known'
  | convert {target value known known'} (hvalue : Scoped value known known') :
    Scoped (.convert target value) known known'
  | custom {converter value known known'} (hvalue : Scoped value known known') :
    Scoped (.custom converter value) known known'

/-- The same for codes that are run one after the other. -/
inductive Code.ScopedAll : List Code → List LocalId → List LocalId → Prop
  | nil {known} : ScopedAll [] known known
  | cons {code codes known known₁ known'} (h : Code.Scoped code known known₁)
    (hs : ScopedAll codes known₁ known') : ScopedAll (code :: codes) known known'

end

section

variable {pool : Pool} {mapping : Mapping} {locals : List ShapeId}

mutual

/-- The code of an expression that passes the check is scoped. -/
theorem Expr.Coded.scoped : ∀ {e : Expr} {code : Code} {known known' : List LocalId},
    e.Coded pool mapping code → e.check locals known = .ok known' → code.Scoped known known'
  | .argument _, _, _, _, .argument, h => by
    cases h
    exact .argument
  | .null, _, _, _, .null, h => by
    cases h
    exact .null
  | .newInstance _, _, _, _, .newInstance _, h => by
    cases h
    exact .newInstance
  | .readLocal _, _, _, _, .readLocal, h => by
    obtain ⟨_, hrequire, h⟩ := Except.bind_eq_ok_iff.mp h
    cases h
    exact .readLocal (LocalId.require_eq_ok_iff.mp hrequire).2
  | .declareLocal _ _, _, _, _, .declareLocal _, h => by
    obtain ⟨-, -, rfl⟩ := LocalId.declare_eq_ok_iff.mp h
    exact .declareLocal
  | .writeLocal _ _, _, _, _, .writeLocal hvalue, h => by
    obtain ⟨_, hcheck, h⟩ := Except.bind_eq_ok_iff.mp h
    obtain ⟨_, hrequire, h⟩ := Except.bind_eq_ok_iff.mp h
    cases h
    exact .writeLocal (hvalue.scoped hcheck) (LocalId.require_eq_ok_iff.mp hrequire).2
  | .writeMember _ _ _, _, _, _, .writeMember hvalue, h => by
    obtain ⟨_, hcheck, h⟩ := Except.bind_eq_ok_iff.mp h
    obtain ⟨_, hrequire, h⟩ := Except.bind_eq_ok_iff.mp h
    cases h
    exact .writeMember (hvalue.scoped hcheck) (LocalId.require_eq_ok_iff.mp hrequire).2
  | .box _, _, _, _, .box hvalue, h => .box (hvalue.scoped h)
  | .unbox _, _, _, _, .unbox hvalue, h => .unbox (hvalue.scoped h)
  | .returns _, _, _, _, .returns hvalue, h => .returns (hvalue.scoped h)
  | .readMember _ _ _, _, _, _, .readMember hobject, h => .readMember (hobject.scoped h)
  | .convert (.primitive _ _) _, _, _, _, .convert hvalue, h => .convert (hvalue.scoped h)
  | .convert (.custom _) _, _, _, _, .custom _ hvalue, h => .custom (hvalue.scoped h)
  | .sequence _, _, _, _, .sequence hs, h => .sequence (hs.scopedAll h)
  | .invoke _ _ _ _, _, _, _, .invokeLinked _ hvalue hdestination, h => by
    obtain ⟨_, hcheck, hcheck'⟩ := Except.bind_eq_ok_iff.mp h
    exact .invokeLinked (hvalue.scoped hcheck) (hdestination.scoped hcheck')
  | .invoke _ _ _ _, _, _, _, .invokeDynamic hvalue hdestination, h => by
    obtain ⟨_, hcheck, hcheck'⟩ := Except.bind_eq_ok_iff.mp h
    exact .invokeDynamic (hvalue.scoped hcheck) (hdestination.scoped hcheck')
  | .coalesce _ _, _, _, _, .coalesce hvalue hfallback, h => by
    obtain ⟨_, hcheck, h⟩ := Except.bind_eq_ok_iff.mp h
    obtain ⟨_, hcheck', h⟩ := Except.bind_eq_ok_iff.mp h
    cases h
    exact .coalesce (hvalue.scoped hcheck) (hfallback.scoped hcheck')
  | .ifNotNull _ _, _, _, _, .ifNotNull htest hbody, h => by
    obtain ⟨_, hcheck, h⟩ := Except.bind_eq_ok_iff.mp h
    obtain ⟨_, hcheck', h⟩ := Except.bind_eq_ok_iff.mp h
    cases h
    exact .ifNotNull (htest.scoped hcheck) (hbody.scoped hcheck')

theorem Expr.CodedAll.scopedAll : ∀ {es : List Expr} {codes : List Code}
    {known known' : List LocalId}, Expr.CodedAll pool mapping es codes →
      Expr.checkAll locals es known = .ok known' → Code.ScopedAll codes known known'
  | [], _, _, _, .nil, h => by
    cases h
    exact .nil
  | _ :: _, _, _, _, .cons hcoded hs, h => by
    obtain ⟨_, hcheck, hchecks⟩ := Except.bind_eq_ok_iff.mp h
    exact .cons (hcoded.scoped hcheck) (hs.scopedAll hchecks)

end

end

mutual

/-- What code declares is what it is found to declare. -/
theorem Code.Scoped.mem_declares {known known' : List LocalId} :
    ∀ {code : Code}, code.Scoped known known' → ∀ id ∈ known', id ∈ known ∨ id ∈ code.declares
  | .argument _, h, id, hid | .readLocal _, h, id, hid | .newInstance _, h, id, hid
  | .null, h, id, hid => by
    cases h
    exact Or.inl hid
  | .declareLocal id' _, h, id, hid => by
    cases h
    rcases List.mem_cons.mp hid with rfl | hid
    · exact Or.inr (List.mem_singleton_self _)
    · exact Or.inl hid
  | .writeLocal _ value, h, id, hid | .box value, h, id, hid | .unbox value, h, id, hid
  | .returns value, h, id, hid | .readMember value _ _, h, id, hid
  | .writeMember _ _ value, h, id, hid | .convert _ value, h, id, hid
  | .custom _ value, h, id, hid => by
    cases h
    rename_i h
    exact h.mem_declares id hid
  | .sequence children, h, id, hid => by
    cases h
    rename_i h
    exact h.mem_declaresAll id hid
  | .invokeLinked _ value destination, h, id, hid
  | .invokeDynamic _ value destination, h, id, hid => by
    cases h
    rename_i hvalue hdestination
    rcases hdestination.mem_declares id hid with hid | hid
    · exact (hvalue.mem_declares id hid).imp_right (List.mem_append_left _)
    · exact Or.inr (List.mem_append_right _ hid)
  | .coalesce value _, .coalesce hvalue _, id, hid => hvalue.mem_declares id hid
  | .ifNotNull test _, .ifNotNull htest _, id, hid => htest.mem_declares id hid

theorem Code.ScopedAll.mem_declaresAll {known known' : List LocalId} :
    ∀ {codes : List Code}, Code.ScopedAll codes known known' →
      ∀ id ∈ known', id ∈ known ∨ id ∈ Code.declaresAll codes
  | [], h, id, hid => by
    cases h
    exact Or.inl hid
  | code :: codes, h, id, hid => by
    cases h
    rename_i h hs
    rcases hs.mem_declaresAll id hid with hid | hid
    · exact (h.mem_declares id hid).imp_right (List.mem_append_left _)
    · exact Or.inr (List.mem_append_right _ hid)

end

/-! ## Logs -/

/-- The local that is used, where the event is a use. -/
def LocalEvent.use? : LocalEvent → Option LocalId
  | .read id | .written id | .memberWritten id => some id
  | .declared _ | .passedOver _ => none

/-- The local was declared, or an operand was passed over that would have declared it. -/
def Accounted (log : List LocalEvent) (id : LocalId) : Prop :=
  .declared id ∈ log ∨ ∃ ids, .passedOver ids ∈ log ∧ id ∈ ids

/-- Whenever a local is used, it is accounted for by what was done before. -/
def UsesAccounted (log : List LocalEvent) : Prop :=
  ∀ event earlier, (event :: earlier) <:+ log → ∀ id, event.use? = some id → Accounted earlier id

theorem Accounted.of_suffix {log log' : List LocalEvent} {id : LocalId} (hs : log <:+ log')
    (h : Accounted log id) : Accounted log' id := by
  rcases h with h | ⟨ids, h, hid⟩
  · exact Or.inl (hs.subset h)
  · exact Or.inr ⟨ids, hs.subset h, hid⟩

theorem UsesAccounted.nil : UsesAccounted [] := by
  intro event earlier hs
  simp at hs

theorem UsesAccounted.cons {log : List LocalEvent} {event : LocalEvent} (h : UsesAccounted log)
    (hevent : ∀ id, event.use? = some id → Accounted log id) : UsesAccounted (event :: log) := by
  intro event' earlier hs
  rcases List.suffix_cons_iff.mp hs with heq | hs
  · obtain ⟨rfl, rfl⟩ := List.cons.inj heq
    exact hevent
  · exact h event' earlier hs

/-! ## The log of a run -/

/-- The log is accounted for, and so are the locals `known`. -/
structure Machine.Accounts (m : Machine) (known : List LocalId) : Prop where
  uses : UsesAccounted m.events
  known : ∀ id ∈ known, Accounted m.events id

/-- From a machine that accounts for `known`, the computation leads to one that accounts for
`known'`, and only adds to the log. However it ends, the log is accounted for. -/
def Accounting {α : Type} (x : EvalM α) (known known' : List LocalId) : Prop :=
  ∀ m : Machine, m.Accounts known →
    Ensures x m (fun _ m' => m.events <:+ m'.events ∧ m'.Accounts known')
      fun _ m' => UsesAccounted m'.events

namespace Accounting

variable {α β : Type} {known known₁ known' : List LocalId}

theorem pure {a : α} : Accounting (Pure.pure a) known known :=
  fun _ hm => Ensures.pure ⟨List.suffix_refl _, hm⟩

theorem throw {e : Exit} : Accounting (MonadExcept.throw e : EvalM α) known known' :=
  fun _ hm => Ensures.throw hm.uses

theorem bind {x : EvalM α} {f : α → EvalM β} (hx : Accounting x known known₁)
    (hf : ∀ a, Accounting (f a) known₁ known') : Accounting (x >>= f) known known' := by
  intro m hm
  refine Ensures.bind ((hx m hm).mono ?_ fun _ _ h => h)
  rintro a m₁ ⟨hs, hm₁⟩
  refine (hf a m₁ hm₁).mono ?_ fun _ _ h => h
  rintro b m' ⟨hs', hm'⟩
  exact ⟨hs.trans hs', hm'⟩

theorem ite {p : Prop} [Decidable p] {x y : EvalM α} (hx : Accounting x known known')
    (hy : Accounting y known known') : Accounting (if p then x else y) known known' := by
  split
  · exact hx
  · exact hy

/-- What was accounted for before still is. -/
theorem keep {x : EvalM α} (h : Accounting x known known') : Accounting x known known := by
  intro m hm
  refine (h m hm).mono ?_ fun _ _ h => h
  rintro a m' ⟨hs, hm'⟩
  exact ⟨hs, hm'.uses, fun id hid => (hm.known id hid).of_suffix hs⟩

/-- A computation that leaves the log alone. -/
theorem of_events {x : EvalM α}
    (h : ∀ m, Ensures x m (fun _ m' => m'.events = m.events) fun _ m' => m'.events = m.events) :
    Accounting x known known := by
  intro m hm
  refine (h m).mono ?_ ?_
  · intro _ m' he
    exact ⟨he ▸ List.suffix_refl _, he ▸ hm.uses, he ▸ hm.known⟩
  · intro _ m' he
    exact he ▸ hm.uses

theorem run {x : RunM α} : Accounting (EvalM.run x) known known := by
  refine of_events fun m => ?_
  unfold Ensures EvalM.run
  cases x m.session <;> rfl

theorem heap : Accounting EvalM.heap known known :=
  of_events fun _ => rfl

theorem load {id : LocalId} : Accounting (EvalM.load id) known known :=
  of_events fun _ => rfl

theorem store {id : LocalId} {v : Value} : Accounting (EvalM.store id v) known known :=
  of_events fun _ => rfl

/-- An event that is accounted for itself, and accounts for the locals of `known'`. -/
theorem note {event : LocalEvent} (huse : ∀ id, event.use? = some id → id ∈ known)
    (h : ∀ id ∈ known', id ∈ known ∨ Accounted [event] id) :
    Accounting (EvalM.note event) known known' := by
  intro m hm
  have hs : m.events <:+ event :: m.events := List.suffix_cons _ _
  refine ⟨hs, hm.uses.cons fun id hid => hm.known id (huse id hid), ?_⟩
  intro id hid
  rcases h id hid with hk | hd | ⟨ids, hp, hid⟩
  · exact (hm.known id hk).of_suffix hs
  · exact Or.inl (List.mem_cons.mpr (Or.inl (List.mem_singleton.mp hd)))
  · exact Or.inr ⟨ids, List.mem_cons.mpr (Or.inl (List.mem_singleton.mp hp)), hid⟩

/-- Passing over an operand that declares the locals of `known'`. -/
theorem passOver {code : Code} (h : code.Scoped known known') :
    Accounting (EvalM.note (.passedOver code.declares)) known known' := by
  refine note (by intro _ h; cases h) fun id hid => ?_
  rcases h.mem_declares id hid with hk | hd
  · exact Or.inl hk
  · exact Or.inr (Or.inr ⟨_, List.mem_singleton_self _, hd⟩)

theorem use {event : LocalEvent} {id : LocalId} (h : event.use? = some id) (hid : id ∈ known) :
    Accounting (EvalM.note event) known known :=
  note (fun _ h' => Option.some.inj (h.symm.trans h') ▸ hid) fun _ => Or.inl

end Accounting

/-! ## Running scoped code -/

mutual

/-- Scoped code keeps the log accounted for. -/
theorem Code.Scoped.accounting (invoke : Invoke) (frame : Frame) {known known' : List LocalId} :
    ∀ {code : Code}, code.Scoped known known' → Accounting (code.eval invoke frame) known known'
  | .argument _, .argument | .null, .null => .pure
  | .readLocal _, .readLocal hid => by
    simp only [Code.eval]
    exact .bind (.use rfl hid) fun _ => .load
  | .writeLocal _ _, .writeLocal hvalue hid => by
    simp only [Code.eval]
    exact .bind (hvalue.accounting invoke frame) fun _ =>
      .bind (.use rfl hid) fun _ => .bind .store fun _ => .pure
  | .declareLocal id _, .declareLocal => by
    simp only [Code.eval]
    refine .bind (.note (by intro _ h; cases h) fun id' hid => ?_) fun _ =>
      .bind .store fun _ => .pure
    rcases List.mem_cons.mp hid with rfl | hid
    · exact Or.inr (Or.inl (List.mem_singleton_self _))
    · exact Or.inl hid
  | .newInstance _, .newInstance => by
    simp only [Code.eval]
    exact .run
  | .box _, .box hvalue => by
    simp only [Code.eval]
    exact .bind (hvalue.accounting invoke frame) fun _ => .run
  | .unbox _, .unbox hvalue => by
    simp only [Code.eval]
    exact .bind (hvalue.accounting invoke frame) fun _ => .pure
  | .returns _, .returns hvalue => by
    simp only [Code.eval]
    exact .bind (hvalue.accounting invoke frame) fun _ => .throw
  | .sequence _, .sequence hs => by
    simp only [Code.eval]
    exact hs.accounting invoke frame .null
  | .invokeLinked _ _ destination, .invokeLinked hvalue hdestination => by
    simp only [Code.eval]
    refine .bind (hvalue.accounting invoke frame) fun v => .ite ?_ ?_
    · exact .bind (.passOver hdestination) fun _ => .pure
    · exact .bind (hdestination.accounting invoke frame) fun _ => .run
  | .invokeDynamic _ _ destination, .invokeDynamic hvalue hdestination => by
    simp only [Code.eval]
    refine .bind (hvalue.accounting invoke frame) fun v => .bind .heap fun heap => ?_
    split
    · exact .bind (.passOver hdestination) fun _ => .pure
    · exact .bind (hdestination.accounting invoke frame) fun _ => .run
  | .readMember _ _ _, .readMember hobject => by
    simp only [Code.eval]
    refine .bind (hobject.accounting invoke frame) fun v => .bind .heap fun heap => ?_
    split
    · exact .pure
    · exact .ite .pure .throw
  | .writeMember _ _ _, .writeMember hvalue hid => by
    simp only [Code.eval]
    exact .bind (hvalue.accounting invoke frame) fun _ => .bind (.use rfl hid) fun _ =>
      .bind .load fun _ => .bind .run fun _ => .bind .store fun _ => .pure
  | .coalesce _ _, .coalesce hvalue hfallback => by
    simp only [Code.eval]
    exact .bind (hvalue.accounting invoke frame) fun _ =>
      .ite (hfallback.accounting invoke frame).keep .pure
  | .ifNotNull _ _, .ifNotNull htest hbody => by
    simp only [Code.eval]
    exact .bind (htest.accounting invoke frame) fun _ =>
      .ite .pure (hbody.accounting invoke frame).keep
  | .convert _ _, .convert hvalue => by
    simp only [Code.eval]
    exact .bind (hvalue.accounting invoke frame) fun _ => .run
  | .custom _ _, .custom hvalue => by
    simp only [Code.eval]
    exact .bind (hvalue.accounting invoke frame) fun _ => .ite .pure .run

theorem Code.ScopedAll.accounting (invoke : Invoke) (frame : Frame) (last : Value)
    {known known' : List LocalId} :
    ∀ {codes : List Code}, Code.ScopedAll codes known known' →
      Accounting (Code.evalAll invoke frame last codes) known known'
  | [], .nil => .pure
  | _ :: _, .cons h hs => by
    simp only [Code.evalAll]
    exact .bind (h.accounting invoke frame) fun v => hs.accounting invoke frame v

end

/-- What a run of the program does to the locals, the latest first. -/
def ReadyProgram.log (program : ReadyProgram) (invoke : Invoke) (frame : Frame) (s : Session) :
    List LocalEvent :=
  (After (program.code.eval invoke frame) (program.start s)).events

/-- Whenever a local is used, it has been declared. -/
def DeclaredFirst (log : List LocalEvent) : Prop :=
  ∀ event earlier, (event :: earlier) <:+ log →
    ∀ id, event.use? = some id → .declared id ∈ earlier

/-- Whenever a local is used whose declaration was passed over, it has been declared after all. -/
def PassedOverDeclared (log : List LocalEvent) : Prop :=
  ∀ event earlier, (event :: earlier) <:+ log → ∀ id, event.use? = some id →
    ∀ ids, .passedOver ids ∈ earlier → id ∈ ids → .declared id ∈ earlier

/-- The log of a valid program accounts for the locals it uses. -/
theorem Program.usesAccounted_log {program : Program} {pool : Pool} {mapping : Mapping}
    {ready : ReadyProgram} (hvalid : program.validate = .ok ())
    (hready : (program.ready pool mapping).run' 0 = .ok ready) (invoke : Invoke) (frame : Frame)
    (s : Session) : UsesAccounted (ready.log invoke frame s) := by
  obtain ⟨known, hcheck, -⟩ := Except.bind_eq_ok_iff.mp hvalid
  obtain ⟨⟨ready, n⟩, hmade, rfl⟩ := Except.map_eq_ok_iff.mp hready
  obtain ⟨-, hcoded, -⟩ := Program.coded_of_ready hmade
  have hstart : (ready.start s).Accounts [] := ⟨UsesAccounted.nil, nofun⟩
  have hrun := (hcoded.scoped hcheck).accounting invoke frame _ hstart
  exact (hrun.mono (fun _ _ h => h.2.uses) fun _ _ h => h).after

/-- A run of a valid program uses no local before it has declared it, unless it has passed over
the operand with the declaration. -/
theorem Program.declaredFirst_iff_passedOverDeclared {program : Program} {pool : Pool}
    {mapping : Mapping} {ready : ReadyProgram} (hvalid : program.validate = .ok ())
    (hready : (program.ready pool mapping).run' 0 = .ok ready) (invoke : Invoke) (frame : Frame)
    (s : Session) :
    DeclaredFirst (ready.log invoke frame s) ↔ PassedOverDeclared (ready.log invoke frame s) := by
  constructor
  · intro h event earlier hs id huse _ _ _
    exact h event earlier hs id huse
  · intro h event earlier hs id huse
    rcases Program.usesAccounted_log hvalid hready invoke frame s event earlier hs id huse with
      hd | ⟨ids, hpassed, hid⟩
    · exact hd
    · exact h event earlier hs id huse ids hpassed hid

/-! ## A declaration that is passed over -/

/-- The program that converts `value` from an integer to a string, declares its only local in
the destination of that conversion, and returns the local. -/
def Program.declaringDestination (value : Expr) : Program where
  locals := [ShapeId.int]
  body := .sequence [
    .invoke ShapeId.int ShapeId.str value (.declareLocal ⟨0⟩ ShapeId.int),
    .returns (.readLocal ⟨0⟩)]

/-- Its code, where `value` becomes `code`. -/
def ReadyProgram.declaringDestination (code : Code) : ReadyProgram where
  code := .sequence [
    .invokeLinked ⟨⟨0⟩, ShapeId.int, ShapeId.str⟩ code (.declareLocal ⟨0⟩ (.int 0)),
    .returns (.readLocal ⟨0⟩)]
  localCount := 1

/-- Where nothing is passed over, the local is declared first. -/
theorem Program.declaredFirst_of_declaringDestination :
    (declaringDestination (.newInstance ShapeId.untypedList)).validate = .ok () ∧
      ((declaringDestination (.newInstance ShapeId.untypedList)).ready Pool.initial
        Mapping.initial).run' 0 =
          .ok (.declaringDestination (.newInstance ⟨ShapeId.untypedList, .seq⟩)) ∧
      DeclaredFirst ((ReadyProgram.declaringDestination
        (.newInstance ⟨ShapeId.untypedList, .seq⟩)).log (fun _ v _ _ => return v)
          { (default : Frame) with linkage := ⟨⟨0⟩, ⟨0⟩, Mapping.initial⟩ }
          { registries := [{}] }) := by
  have hvalid :
      (declaringDestination (.newInstance ShapeId.untypedList)).validate = .ok () := rfl
  have hready : ((declaringDestination (.newInstance ShapeId.untypedList)).ready Pool.initial
      Mapping.initial).run' 0 =
        .ok (.declaringDestination (.newInstance ⟨ShapeId.untypedList, .seq⟩)) := rfl
  refine ⟨hvalid, hready, (declaredFirst_iff_passedOverDeclared hvalid hready _ _ _).mpr ?_⟩
  intro event earlier hs id _ ids hpassed
  have hlog : .passedOver ids ∈ [LocalEvent.read ⟨0⟩, .declared ⟨0⟩] :=
    hs.subset (List.mem_cons_of_mem event hpassed)
  simp at hlog

/-- A valid program may read a local that its run has not declared. -/
theorem Program.not_declaredFirst_of_declaringDestination :
    (declaringDestination .null).validate = .ok () ∧
      ((declaringDestination .null).ready Pool.initial Mapping.initial).run' 0 =
        .ok (.declaringDestination .null) ∧
      ¬DeclaredFirst
        ((ReadyProgram.declaringDestination .null).log (fun _ v _ _ => return v) default {}) := by
  refine ⟨rfl, rfl, fun h => ?_⟩
  have hdeclared : .declared ⟨0⟩ ∈ [LocalEvent.passedOver [⟨0⟩]] :=
    h (.read ⟨0⟩) _ (List.suffix_refl _) ⟨0⟩ rfl
  simp at hdeclared

end Reshape
