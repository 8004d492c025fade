import Reshape.Proofs.Routine.Compilable
import Reshape.Proofs.Routine.Handing

/-!
# New instances

There are two ways to an instance of a shape. One is the program for it, which is compiled, made
ready and run in a session of any kind ; the other is its template, which is asked for an instance
in reference form (`Template.newReference`). They look at the kind and the flags of the shape in
another order, and come to the same (`Session.runProgram_instance`) : to the same error, or to
instances of which only the identity differs (`Template.MadeBy`).

What is made is new : nothing but itself can be reached from it, and it was not there before
(`Origin.Makes.new_of_reaches`). So no two instances share anything, whichever way they were made
(`Template.MadeBy.apart`).
-/

namespace Reshape

/-! ## References to new instances -/

theorem Heap.box_eq_null_iff (v : Value) (heap : Heap) : (heap.box v).1 = .null ↔ v = .null := by
  cases v <;> simp [box, newBox, Value.isInline]

/-- A new instance in reference form. -/
def Template.newReference (t : Template) (heap : Heap) : Value × Heap :=
  let (v, heap) := t.instantiate heap
  heap.box v

/-- The values in the two heaps are the same but for the identity of one instance or box. Both are
null, boxes of one content, or references to instances that hold the same. -/
inductive Heap.Replicas (heap heap' : Heap) : Value → Value → Prop
  | null : Replicas heap heap' .null .null
  | boxed {token token' : Token} {content : Value} :
    Replicas heap heap' (.boxed token content) (.boxed token' content)
  | ref {a a' : Address} {i : Instance} (ha : heap.get? a = some i) (ha' : heap'.get? a' = some i) :
    Replicas heap heap' (.ref a) (.ref a')

section

variable {pool : Pool} {shape : ShapeId} {known : Descriptor} {t : Template} {e : ShapeError}

/-- A shape that is a value type has its zero value for a template, and fails where that does. -/
theorem Template.ofShape_of_valueType (hknown : pool.descriptor shape = .ok known)
    (htype : known.valueType = true) :
    ofShape pool shape = (fun value => ⟨shape, .zero value⟩) <$> pool.zeroValue shape := by
  unfold ofShape
  rw [hknown]
  change (if known.valueType then _ else _ : Except ShapeError Template) = _
  rw [if_pos htype]
  cases pool.zeroValue shape <;> rfl

theorem Template.ofShape_of_absent (hknown : pool.descriptor shape = .ok known)
    (htype : known.valueType = false) (hconstructor : known.defaultConstructor = false) :
    ofShape pool shape = .ok ⟨shape, .absent⟩ := by
  unfold ofShape
  rw [hknown]
  change (if known.valueType then _ else _ : Except ShapeError Template) = _
  rw [if_neg (by simp [htype]), if_pos (by simp [hconstructor])]
  rfl

/-- Where there is a template, there is an origin. -/
theorem Template.exists_origin (hknown : pool.descriptor shape = .ok known)
    (ht : ofShape pool shape = .ok t) : ∃ origin : Origin, origin.For pool shape known := by
  cases htype : known.valueType with
  | true =>
    rw [ofShape_of_valueType hknown htype] at ht
    obtain ⟨value, hzero, -⟩ := Except.map_eq_ok_iff.mp ht
    exact ⟨.zero value, .zero htype hzero⟩
  | false =>
    cases hconstructor : known.defaultConstructor with
    | true => exact ⟨.template t, .template htype hconstructor ht⟩
    | false => exact ⟨.absent, .absent htype hconstructor⟩

/-- Every origin of a shape makes what its template makes, in reference form. -/
theorem Origin.For.make_eq {origin : Origin} (h : origin.For pool shape known)
    (hknown : pool.descriptor shape = .ok known) (ht : Template.ofShape pool shape = .ok t)
    (heap : Heap) : origin.make heap = t.newReference heap := by
  cases h with
  | zero htype hzero =>
    rw [Template.ofShape_of_valueType hknown htype, hzero] at ht
    cases ht
    rfl
  | absent htype hconstructor =>
    rw [Template.ofShape_of_absent hknown htype hconstructor] at ht
    cases ht
    rfl
  | template htype hconstructor ht' =>
    cases ht.symm.trans ht'
    rcases Template.cases_of_ofShape hknown htype hconstructor ht with
      ⟨_, -, -, rfl⟩ | ⟨_, _, -, rfl⟩ | ⟨-, -, rfl⟩ <;> rfl

/-- Where there is no template, the code for an instance does not get ready, for the same reason. -/
theorem Construction.ready_error {mapping : Mapping} (hknown : pool.descriptor shape = .ok known)
    (he : Template.ofShape pool shape = .error e) (first : LocalId) (n : Nat) :
    ((Construction.ofDescriptor known).expr shape first).ready pool mapping n =
      .error (.shape e) := by
  unfold Construction.ofDescriptor
  cases htype : known.valueType with
  | true =>
    have hzero : pool.zeroValue shape = .error e := by
      rw [Template.ofShape_of_valueType hknown htype] at he
      cases hvalue : pool.zeroValue shape with
      | error e' =>
        rw [hvalue] at he
        cases he
        rfl
      | ok value =>
        rw [hvalue] at he
        cases he
    have hready : ReadyM.ofPool (pool.zeroValue shape) n = .error (.shape e) := by
      rw [hzero]
      rfl
    exact ReadyM.bind_of_error (ReadyM.bind_of_error (ReadyM.bind_of_error hready))
  | false =>
    cases hconstructor : known.defaultConstructor with
    | true =>
      have hready : ReadyM.ofPool (Template.ofShape pool shape) n = .error (.shape e) := by
        rw [he]
        rfl
      exact ReadyM.bind_of_error hready
    | false =>
      rw [Template.ofShape_of_absent hknown htype hconstructor] at he
      cases he

end

/-! ## Freshness -/

section

variable {pool : Pool} {shape : ShapeId} {known : Descriptor} {heap : Heap} {made : Value × Heap}

/-- Nothing but itself can be reached from what was made, and that was not there before. It holds
zero values, which refer to nothing. -/
theorem Origin.Makes.new_of_reaches (h : Makes pool shape known heap made) {a : Address}
    (ha : made.2.Reaches made.1 a) : heap.get? a = none ∧ ∃ i, made.2.get? a = some i := by
  have hnew {i : Instance} (hparts : ∀ w ∈ i.parts, w.Within fun _ => False)
      (ha : (heap.alloc i).2.Reaches (heap.alloc i).1 a) :
      heap.get? a = none ∧ ∃ j, (heap.alloc i).2.get? a = some j := by
    have heq : a = ⟨heap.size⟩ := by
      refine ha.within (p := fun a => a = ⟨heap.size⟩) (fun b j hb hj w hw => ?_)
        (Value.Within.ref.mpr rfl)
      rw [hb, Heap.get?_alloc_size] at hj
      cases hj
      exact (hparts w hw).imp fun _ => False.elim
    rw [heq]
    exact ⟨Heap.get?_size heap, i, Heap.get?_alloc_size heap i⟩
  cases h with
  | value hzero =>
    have hwithin := Heap.within_box (Pool.within_of_zeroValue hzero fun _ => False) heap
    exact absurd ha (Heap.not_reaches hwithin a)
  | object _ _ hfields =>
    refine hnew (fun w hw => ?_) ha
    exact (Pool.of_mapM_zeroValue hfields).2.1 w hw _
  | seq _ => exact hnew (fun w hw => absurd hw List.not_mem_nil) ha
  | null => exact absurd ha (Heap.not_reaches .null a)

/-- What is copied for an instance is the zero value of its shape. -/
theorem Template.zeroValue_of_initial {t : Template} (hknown : pool.descriptor shape = .ok known)
    (ht : ofShape pool shape = .ok t) {value : Value} (hvalue : t.initial = .zero value) :
    pool.zeroValue shape = .ok value := by
  cases htype : known.valueType with
  | true =>
    rw [ofShape_of_valueType hknown htype] at ht
    obtain ⟨value', hzero, rfl⟩ := Except.map_eq_ok_iff.mp ht
    cases hvalue
    exact hzero
  | false =>
    cases hconstructor : known.defaultConstructor with
    | true =>
      rcases cases_of_ofShape hknown htype hconstructor ht with
        ⟨_, -, -, rfl⟩ | ⟨_, _, -, rfl⟩ | ⟨-, -, rfl⟩ <;> cases hvalue
    | false =>
      cases (ofShape_of_absent hknown htype hconstructor).symm.trans ht
      cases hvalue

/-- Made in two heaps, it is the same but for its identity. -/
theorem Template.replicas {t : Template} (hknown : pool.descriptor shape = .ok known)
    (ht : ofShape pool shape = .ok t) (heap heap' : Heap) :
    (t.newReference heap).2.Replicas (t.newReference heap').2 (t.newReference heap).1
      (t.newReference heap').1 := by
  unfold newReference instantiate
  cases hinitial : t.initial with
  | zero value =>
    rcases Pool.null_or_inline_of_zeroValue (zeroValue_of_initial hknown ht hinitial) with
      rfl | hinline
    · exact .null
    · simp only [Heap.box, hinline, if_true]
      exact .boxed
  | object fields => exact .ref (Heap.get?_alloc_size _ _) (Heap.get?_alloc_size _ _)
  | seq => exact .ref (Heap.get?_alloc_size _ _) (Heap.get?_alloc_size _ _)
  | absent => exact .null

theorem Template.isConstructible_iff_newReference (t : Template) (heap : Heap) :
    t.isConstructible = true ↔ (t.newReference heap).1 ≠ .null := by
  rw [t.isConstructible_iff heap, newReference, ne_eq, ne_eq, Heap.box_eq_null_iff]

end

/-! ## Programs for instances -/

section

variable {mapping : Mapping} {program : Program} {s : Session}

/-- A program that does not get ready leaves all instances as they are. -/
theorem Session.runProgram_of_error {e : CompileError}
    (h : program.ready s.pool mapping 0 = .error e) (source destination state : Value) :
    ∃ s', runProgram mapping program source destination state s =
      .error (.failed (.compile e)) s' ∧ s'.heap = s.heap := by
  have hready : (program.ready (s.newRegistry.2.newLinkage s.newRegistry.1 mapping).2.pool
      mapping).run' 0 = .error e := by
    change Prod.fst <$> program.ready s.pool mapping 0 = _
    rw [h]
    rfl
  rw [runProgram_eq, hready]
  exact ⟨_, rfl, rfl⟩

/-- A program that does nothing but make an instance makes it in the heap of the session. -/
theorem Session.runProgram_of_onHeap {ready : ReadyProgram} {n : Nat} {make : Heap → Value × Heap}
    (h : program.ready s.pool mapping 0 = .ok (ready, n))
    (hrun : ∀ invoke frame, ready.run invoke frame = RunM.onHeap make)
    (source destination state : Value) :
    ∃ s', runProgram mapping program source destination state s = .ok (make s.heap).1 s' ∧
      s'.heap = (make s.heap).2 := by
  have hready : (program.ready (s.newRegistry.2.newLinkage s.newRegistry.1 mapping).2.pool
      mapping).run' 0 = .ok ready := by
    change Prod.fst <$> program.ready s.pool mapping 0 = _
    rw [h]
    rfl
  rw [runProgram_eq, hready]
  dsimp only
  rw [hrun]
  exact ⟨_, rfl, rfl⟩

end

/-- Instances of the template come of the program as they come of the template itself, each of them
new, so that none of them shares anything with another one or with what there was before. -/
structure Template.MadeBy (t : Template) (pool : Pool) (program : Program) : Prop where
  /-- Run in any session, the program makes what the template makes in its heap. -/
  run : ∀ (mapping : Mapping) (source destination state : Value) (s : Session), s.pool = pool →
    ∃ s', Session.runProgram mapping program source destination state s =
      .ok (t.newReference s.heap).1 s' ∧ s'.heap = (t.newReference s.heap).2
  /-- In every heap the same is made, but for the identity of the instance. -/
  replicas : ∀ heap heap' : Heap, (t.newReference heap).2.Replicas (t.newReference heap').2
    (t.newReference heap).1 (t.newReference heap').1
  constructible : ∀ heap, t.isConstructible = true ↔ (t.newReference heap).1 ≠ .null
  kept : ∀ heap : Heap, heap.Kept (t.newReference heap).2
  /-- What can be reached from the new instance was not there before, and is there now. -/
  fresh : ∀ (heap : Heap) (a : Address),
    (t.newReference heap).2.Reaches (t.newReference heap).1 a →
      heap.get? a = none ∧ ∃ i, (t.newReference heap).2.get? a = some i
  /-- From a value that was there before, however it was made, nothing of that can be reached. -/
  separate : ∀ (heap : Heap) (w : Value),
    (∀ a, heap.Reaches w a → ∃ i, heap.get? a = some i) →
      ∀ a, (t.newReference heap).2.Reaches w a →
        ¬ (t.newReference heap).2.Reaches (t.newReference heap).1 a

section

variable {pool : Pool} {shape : ShapeId} {known : Descriptor} {program : Program} {e : ShapeError}
  {t : Template}

/-- The program for a shape that has no template fails for the reason that there is none. -/
theorem instanceProgram_ready_error (hbelow : pool.Below shape shape known)
    (h : instanceProgram pool shape = .ok program) (he : Template.ofShape pool shape = .error e)
    (mapping : Mapping) (n : Nat) : program.ready pool mapping n = .error (.shape e) := by
  have hvalid := (instanceProgram_sound mapping h).validate
  cases hbelow.instanceProgram_eq.symm.trans h
  unfold Program.ready
  rw [hvalid]
  exact ReadyM.bind_of_error
    (ReadyM.bind_of_error (Construction.ready_error hbelow.descriptor he ⟨0⟩ n))

/-- The program for a shape that has a template gets ready, and makes what the template makes. -/
theorem exists_ready_of_template (hbelow : pool.Below shape shape known)
    (h : instanceProgram pool shape = .ok program) (ht : Template.ofShape pool shape = .ok t)
    (mapping : Mapping) : ∃ ready n, program.ready pool mapping 0 = .ok (ready, n) ∧
      ∀ invoke frame, ready.run invoke frame = RunM.onHeap t.newReference := by
  obtain ⟨origin, horigin⟩ := Template.exists_origin hbelow.descriptor ht
  have hvalid := (instanceProgram_sound mapping h).validate
  obtain ⟨⟨ready, n⟩, hready⟩ : ∃ r, program.ready pool mapping 0 = .ok r := by
    cases hbelow.instanceProgram_eq.symm.trans h
    refine ⟨_, Program.ready_eq_ok_iff.mpr ⟨hvalid, .returns (origin.code ⟨0⟩), 0, ?_, rfl⟩⟩
    exact ReadyM.bind_eq_ok_iff.mpr
      ⟨_, 0, (Construction.ready_expr _).mpr ⟨origin, horigin, rfl⟩, rfl⟩
  obtain ⟨origin', horigin', hrun⟩ := exists_origin_of_ready hbelow h hready
  refine ⟨ready, n, hready, fun invoke frame => ?_⟩
  rw [hrun, Origin.run, funext (horigin'.make_eq hbelow.descriptor ht)]

theorem Template.madeBy (hbelow : pool.Below shape shape known)
    (h : instanceProgram pool shape = .ok program) (ht : ofShape pool shape = .ok t) :
    t.MadeBy pool program := by
  obtain ⟨origin, horigin⟩ := exists_origin hbelow.descriptor ht
  have hmakes (heap : Heap) : Origin.Makes pool shape known heap (t.newReference heap) := by
    rw [← horigin.make_eq hbelow.descriptor ht]
    exact horigin.makes hbelow.descriptor heap
  have hfresh (heap : Heap) (a : Address)
      (ha : (t.newReference heap).2.Reaches (t.newReference heap).1 a) :
      heap.get? a = none ∧ ∃ i, (t.newReference heap).2.get? a = some i :=
    (hmakes heap).new_of_reaches ha
  refine ⟨fun mapping source destination state s hs => ?_, replicas hbelow.descriptor ht,
    t.isConstructible_iff_newReference, fun heap => (hmakes heap).kept, hfresh,
    fun heap w hw a ha hmade => ?_⟩
  · obtain ⟨ready, n, hready, hrun⟩ := exists_ready_of_template hbelow h ht mapping
    exact Session.runProgram_of_onHeap (hs ▸ hready) hrun source destination state
  · obtain ⟨i, hi⟩ := hw a ((hmakes heap).kept.reaches hw ha)
    cases (hfresh heap a hmade).1.symm.trans hi

/-- Two instances share nothing, whichever of the ways they are made in, and of whatever shapes. -/
theorem Template.MadeBy.apart {t' : Template} {pool' : Pool} {program' : Program}
    (h : t.MadeBy pool program) (h' : t'.MadeBy pool' program') {heap later : Heap}
    (hlater : (t.newReference heap).2.Kept later) {a : Address}
    (ha : (t'.newReference later).2.Reaches (t.newReference heap).1 a) :
    ¬ (t'.newReference later).2.Reaches (t'.newReference later).1 a := by
  refine h'.separate later _ (fun b hb => ?_) a ha
  have hnew (b : Address) := h.fresh heap b
  obtain ⟨i, hi⟩ := (hnew b (hlater.reaches (fun b hb => (hnew b hb).2) hb)).2
  exact ⟨i, hlater b i hi⟩

end

/-- The two ways of making an instance agree, for every shape of a pool that is not nullable, of
whatever kind and with whatever flags. Its program succeeds just where there is a template, with an
instance like those of the template and as new as they are, and fails with the same error as that
otherwise. Unless value types contain themselves, the error is not that there is no end. -/
theorem Session.runProgram_instance {pool : Pool} (hcontains : WellFounded pool.Contains)
    {shape : ShapeId} {known : Descriptor} (hknown : pool.descriptor shape = .ok known)
    (hkind : ∀ inner, known.kind ≠ .nullable inner) :
    ∃ program, instanceProgram pool shape = .ok program ∧
      match Template.ofShape pool shape with
      | .ok t => t.MadeBy pool program
      | .error e => e.Plain ∧
        ∀ (mapping : Mapping) (source destination state : Value) (s : Session), s.pool = pool →
          ∃ s', runProgram mapping program source destination state s =
            .error (.failed (.compile (.shape e))) s' ∧ s'.heap = s.heap := by
  have hbelow : pool.Below shape shape known := .of_descriptor hknown hkind
  have hprogram := hbelow.instanceProgram_eq
  refine ⟨_, hprogram, ?_⟩
  split
  · rename_i t ht
    exact Template.madeBy hbelow hprogram ht
  · rename_i e he
    refine ⟨Pool.template_failsWith pool.descriptor_failsPlainly (fun x _ =>
      Pool.zeroValue_failsWith pool.descriptor_failsPlainly (.inl (hcontains.apply x))) e he, ?_⟩
    rintro mapping source destination state s rfl
    exact runProgram_of_error (instanceProgram_ready_error hbelow hprogram he mapping 0) source
      destination state

/-- A struct of two numbers. -/
theorem Session.runProgram_instance_spot :
    WellFounded Spotted.pool.Contains ∧ Spotted.pool.descriptor ⟨7⟩ = .ok Spotted.spot ∧
      (∀ inner, Spotted.spot.kind ≠ .nullable inner) ∧
      ∃ program, instanceProgram Spotted.pool ⟨7⟩ = .ok program ∧
        (⟨⟨7⟩, .zero (.struct ⟨7⟩ [.int 0, .int 0])⟩ : Template).MadeBy Spotted.pool program := by
  have hcontains : WellFounded Spotted.pool.Contains :=
    (Pool.copyable_of_admits (by decide)).containment
  have hknown : Spotted.pool.descriptor ⟨7⟩ = .ok Spotted.spot := rfl
  have hkind : ∀ inner, Spotted.spot.kind ≠ .nullable inner := nofun
  obtain ⟨program, hprogram, hmade⟩ := runProgram_instance hcontains hknown hkind
  exact ⟨hcontains, hknown, hkind, program, hprogram, hmade⟩

end Reshape
