import Reshape.Proofs.Routine.Frame
import Reshape.Proofs.Routine.Typing
import Reshape.Proofs.Value.Conformance

/-!
# Conversions lead to conforming values

A heap in which all objects and sequences hold what conforms to their shapes is such a heap after
any converter-free conversion, however it ends, and a result conforms to the target shape
(`Routine.StartsTyped.endsTyped`). Source and destination may share whatever they like.

The two conditions cannot be left out (`Routine.exists_not_endsTyped`) : a list of elements of any
shape takes them as they are, whatever it declares, and a stream reads what has been appended to its
container in the meantime.
-/

namespace Reshape

/-! ## Routines -/

/-- All objects and sequences conform to their shapes, and what was typed still is. -/
structure Heap.TypedOver (pool : Pool) (typed typed' : Address → ShapeId → Prop) (heap : Heap) :
    Prop where
  typedBy : heap.TypedBy pool typed'
  covered : heap.Covered typed'
  keeps : ∀ a own, typed a own → typed' a own

/-- A converter-free routine is about to be run on values that conform to their shapes. Where it
shares members, there are no containers that may be supplied. -/
structure Routine.StartsTyped (mappings : Mapping → Prop) (s : Session) (r : Routine)
    (typed : Address → ShapeId → Prop) (source destination : Value) : Prop where
  reachable : s.Reachable mappings
  knows : s.Knows r
  allows : ∀ m, mappings m → m.id = r.key.mapping → m.converters = [] ∧
    (m.copyMode = .deep ∨ ∀ id known element, s.pool.descriptor id = .ok known →
      known.kind ≠ .collection .insertable element)
  typedBy : s.heap.TypedBy s.pool typed
  covered : s.heap.Covered typed
  source : source.Fits s.pool typed r.key.source
  destination : destination.Fits s.pool typed r.key.target

/-- The run leaves conforming values behind, however it ends, and a result conforms to the target.
-/
def Routine.EndsTyped (s : Session) (r : Routine) (typed : Address → ShapeId → Prop)
    (source destination state : Value) (depth : Nat) : Prop :=
  Ensures (r.run depth source destination state) s
    (fun w s' => ∃ typed', s'.heap.TypedOver s.pool typed typed' ∧
      w.Fits s.pool typed' r.key.target)
    fun _ s' => ∃ typed', s'.heap.TypedOver s.pool typed typed'

/-- A run that starts with conforming values ends with conforming values. -/
theorem Routine.StartsTyped.endsTyped {mappings : Mapping → Prop} {s : Session} {r : Routine}
    {typed : Address → ShapeId → Prop} {source destination : Value}
    (h : r.StartsTyped mappings s typed source destination) (hregular : s.pool.Regular)
    (hsteady : s.heap.Steady s.pool typed) (state : Value) (depth : Nat) :
    r.EndsTyped s typed source destination state depth := by
  have hpool := h.reachable.growsTo
  let untyped : Address → Prop := fun a =>
    (∃ i, s.heap.get? a = some i) ∧ ¬ ∃ own, typed a own
  -- At the start, the given types are those of the instances that are not untyped.
  have hstart (a : Address) (own : ShapeId) :
      Contract.TypedIn untyped s.heap a own ↔ typed a own := by
    constructor
    · rintro ⟨hnot, i, hi, rfl⟩
      obtain ⟨own, hown⟩ := Classical.byContradiction fun hnone => hnot ⟨⟨i, hi⟩, hnone⟩
      obtain ⟨j, hj, rfl, -⟩ := h.typedBy a own hown
      obtain rfl := Option.some.inj (hi.symm.trans hj)
      exact hown
    · intro hown
      obtain ⟨i, hi, hshape, -⟩ := h.typedBy a own hown
      exact ⟨fun hun => hun.2 ⟨own, hown⟩, i, hi, hshape⟩
  have hstart' : Contract.TypedIn untyped s.heap = typed :=
    funext fun a => funext fun own => propext (hstart a own)
  have hconforms : Contract.Conforms s.pool untyped s.heap := by
    refine ⟨fun a i hnot hi => ?_, fun a ⟨⟨i, hi⟩, hnone⟩ => ?_, hstart' ▸ hsteady⟩
    · have hown := (hstart a i.shape).mp ⟨hnot, i, hi, rfl⟩
      obtain ⟨j, hj, -, hfits⟩ := h.typedBy a i.shape hown
      obtain rfl := Option.some.inj (hi.symm.trans hj)
      exact hstart' ▸ hfits
    · cases i with
      | stream shape source => exact ⟨shape, source, hi⟩
      | object _ _ | seq _ _ => exact absurd ⟨_, h.covered a _ hi (by simp)⟩ hnone
  have hends {s' : Session}
      (hl : (Contract.typing s.pool untyped).Leads s.pool mappings s s') :
      s'.heap.TypedOver s.pool typed (Contract.TypedIn untyped s'.heap) := by
    refine ⟨Contract.Conforms.typedBy hl.held.inv,
      fun a i hi hstream => ⟨fun hun => ?_, i, hi, rfl⟩, fun a own hown => ?_⟩
    · obtain ⟨shape, source, hi'⟩ := Contract.Conforms.stream hl.held.inv a hun
      exact hstream shape source (Option.some.inj (hi.symm.trans hi'))
    · exact Contract.Grown.typed hl.later a own ((hstart a own).mpr hown)
  have hmeets : (Contract.typing s.pool untyped).Meets s.pool mappings s r
      fun source destination => r.run depth source destination state :=
    (Contract.typing_sound hregular hpool).run_meets h.allows depth
      ⟨h.reachable.coherent, rfl, hconforms⟩ h.knows rfl state
  have hgives := hmeets source destination (h.source.mono fun a own => (hstart a own).mpr)
    (h.destination.mono fun a own => (hstart a own).mpr)
  exact Ensures.mono hgives (fun w s' hw => ⟨_, hends hw.1, hw.2⟩) fun _ s' hl => ⟨_, hends hl⟩

/-- The routine that has been compiled in a session of its own starts with conforming values. -/
theorem Session.startsTyped_compiled {operations : List Pool.Operation} {heap : Heap}
    {mapping : Mapping} {source target : ShapeId} {pool : Pool} {v d : Value}
    (hpool : operations.foldl Pool.Operation.apply Pool.initial = pool)
    (hcompiled : ((compiling operations heap mapping source target).cached? ⟨0⟩
      ⟨source, target, mapping.id⟩).isSome = true)
    (hconverters : mapping.converters = []) (hdeep : mapping.copyMode = .deep)
    (htyped : heap.TypedBy pool heap.shapes) (hv : v.Fits pool heap.shapes source)
    (hd : d.Fits pool heap.shapes target) :
    (compiled operations heap mapping source target).StartsTyped (· = mapping)
      (compiling operations heap mapping source target) heap.shapes v d := by
  obtain ⟨hknows, hkey⟩ := knows_of_cached? hcompiled
  obtain ⟨hpool', hheap⟩ := pool_and_heap_compiling operations heap mapping source target
  rw [hpool] at hpool'
  refine ⟨reachable_compiling .., hknows, fun m hm _ => ?_, ?_, ?_, ?_, ?_⟩
  · rw [hm]
    exact ⟨hconverters, Or.inl hdeep⟩
  · rwa [hpool', hheap]
  · rw [hheap]
    exact heap.covered_shapes
  · rw [hpool', compiled, hkey]
    exact hv
  · rw [hpool', compiled, hkey]
    exact hd

/-- The draft, the letter that it is written into, and all that the letter holds then conform. -/
theorem Routine.StartsTyped.endsTyped_letter :
    Letter.routine.StartsTyped (· = Mapping.initial) Letter.session Letter.session.heap.shapes
        (.ref ⟨1⟩) (.ref ⟨2⟩) ∧
      Letter.session.pool.Regular ∧
      Letter.session.heap.Steady Letter.session.pool Letter.session.heap.shapes ∧ ∃ s',
        Letter.routine.run 2 (.ref ⟨1⟩) (.ref ⟨2⟩) .null Letter.session = .ok (.ref ⟨2⟩) s' ∧
        s'.heap.get? ⟨2⟩ = some (.object ⟨8⟩ #[.int 2, .ref ⟨3⟩]) ∧
        s'.heap.get? ⟨3⟩ = some (.seq ShapeId.untypedList #[.null]) ∧
        ∃ typed', s'.heap.TypedOver Letter.session.pool Letter.session.heap.shapes typed' ∧
          (Value.ref ⟨2⟩).Fits Letter.session.pool typed' Letter.routine.key.target := by
  have hstart : Letter.routine.StartsTyped (· = Mapping.initial) Letter.session
      Letter.heap.shapes (.ref ⟨1⟩) (.ref ⟨2⟩) :=
    Session.startsTyped_compiled Letter.pool_eq (by decide +kernel) rfl rfl Letter.typedBy
      Letter.fits_draft Letter.fits_letter
  have hregular : Letter.pool.Regular :=
    Pool.regular_of_descriptors (Pool.membersInRecords (by decide +kernel)) (by decide +kernel)
  have hsteady : Letter.heap.Steady Letter.pool Letter.heap.shapes := by
    rintro ⟨n⟩ b shape own items known known' family element element' - hi
    match n with
    | 0 | 1 | 2 | n + 3 => cases hi
  rw [← Letter.session_heap] at hstart
  rw [← Letter.session_pool] at hregular
  rw [← Letter.session_heap, ← Letter.session_pool] at hsteady
  -- The depth is left open here, so that the run is not looked into.
  have hends {depth : Nat} {w : Value} {s' : Session}
      (hrun : Letter.routine.run depth (.ref ⟨1⟩) (.ref ⟨2⟩) .null Letter.session = .ok w s') :
      ∃ typed', s'.heap.TypedOver Letter.session.pool Letter.session.heap.shapes typed' ∧
        w.Fits Letter.session.pool typed' Letter.routine.key.target :=
    (Routine.StartsTyped.endsTyped hstart hregular hsteady .null depth).of_run hrun
  obtain ⟨s', hrun, hletter, hlines⟩ := Letter.run_eq
  exact ⟨hstart, hregular, hsteady, s', hrun, hletter, hlines, hends hrun⟩

/-! ## Conditions that cannot be left out -/

/-- At the address is a sequence of the shape with a string in it. -/
def Heap.holdsText (heap : Heap) (a : Address) (t : ShapeId) : Bool :=
  match heap.get? a with
  | some (.seq shape items) => shape == t && items.any fun v => v.text?.isSome
  | _ => false

/-- A sequence of integers with a string in it does not conform to its shape. -/
theorem Routine.StartsTyped.not_endsTyped_of_holdsText {mappings : Mapping → Prop} {s : Session}
    {r : Routine} {typed : Address → ShapeId → Prop} {source destination state : Value}
    {depth : Nat}
    {a : Address} {t : ShapeId} {known : Descriptor} {family : Family}
    (h : r.StartsTyped mappings s typed source destination) (ht : s.pool.descriptor t = .ok known)
    (hkind : known.kind = .collection family (some ShapeId.int))
    (htext : (After (r.run depth source destination state) s).heap.holdsText a t = true) :
    ¬ r.EndsTyped s typed source destination state depth := by
  intro hends
  have hint := Pool.Below.of_primitive h.reachable.growsTo .int
  obtain ⟨typed', hover⟩ : ∃ typed', (After (r.run depth source destination state) s).heap.TypedOver
      s.pool typed typed' :=
    Ensures.after (hends.mono (fun _ _ h => ⟨h.choose, h.choose_spec.1⟩) fun _ _ h => h)
  unfold Heap.holdsText at htext
  split at htext
  · rename_i shape items hi
    obtain ⟨hshape, hany⟩ := Bool.and_eq_true_iff.mp htext
    obtain rfl := eq_of_beq hshape
    obtain ⟨v, hv, hstr⟩ := Array.any_eq_true'.mp hany
    obtain ⟨j, hj, -, hfits⟩ := hover.typedBy a shape (hover.covered a _ hi (by simp))
    obtain rfl := Option.some.inj (hi.symm.trans hj)
    cases hfits with
    | seq hs hkind' hitems =>
      obtain rfl := Except.ok.inj (hs.symm.trans ht)
      cases hkind'.symm.trans hkind
      rcases hover.typedBy.primitive_cases hint rfl (hitems v hv) with rfl | hp | ⟨_, _, rfl, _⟩
      · cases hstr
      · cases v <;> first | exact hp.elim | cases hstr
      · cases hstr
  · cases htext

/-! A list of elements of any shape that declares integers, and a list with a string in it. -/

namespace DeclaringList

def ints : Descriptor := .ofCollection "ints" .untypedList (some ShapeId.int)

def operations : List Pool.Operation := [.register ints]

def pool : Pool := Pool.initial.push ⟨"ints", some ints⟩

theorem pool_eq : operations.foldl Pool.Operation.apply Pool.initial = pool := by decide +kernel

def heap : Heap where
  instances := #[.seq ShapeId.untypedList #[.str ⟨0⟩ "5"]]
  tokens := 1

theorem below_list : pool.Below ShapeId.untypedList ShapeId.untypedList
    (.ofCollection "list" .untypedList none) :=
  ⟨rfl, rfl⟩

theorem typedBy : heap.TypedBy pool heap.shapes :=
  Heap.typedBy_shapes (by decide +kernel)

theorem steady : heap.Steady pool heap.shapes := by
  rintro ⟨n⟩ b shape own items known known' family element element' - hi
  match n with
  | 0 => cases hi
  | n + 1 => cases hi

end DeclaringList

/-! Two records. The first holds a list with a string in it, and a stream of integers that reads the
container of the second. -/

namespace AppendedStream

def sourceRecord : Descriptor :=
  .ofRecord "S" [⟨"a", ShapeId.untypedList, {}⟩, ⟨"b", ⟨7⟩, {}⟩]

def targetRecord : Descriptor :=
  .ofRecord "T" [⟨"a", ⟨8⟩, {}⟩, ⟨"b", ⟨7⟩, {}⟩]

def operations : List Pool.Operation :=
  [.listOf ShapeId.int, .insertable "bag" none, .register sourceRecord, .register targetRecord]

def pool : Pool :=
  [⟨"List<int>", some (.ofCollection "List<int>" .list (some ShapeId.int))⟩,
    ⟨"bag", some (.ofCollection "bag" .insertable none)⟩, ⟨"S", some sourceRecord⟩,
    ⟨"T", some targetRecord⟩].foldl Pool.push Pool.initial

theorem pool_eq : operations.foldl Pool.Operation.apply Pool.initial = pool := by decide +kernel

def heap : Heap where
  instances := #[.seq ⟨8⟩ #[.int 1], .stream ⟨7⟩ (.sequence ⟨0⟩),
    .seq ShapeId.untypedList #[.str ⟨0⟩ "x"], .object ⟨9⟩ #[.ref ⟨2⟩, .ref ⟨1⟩],
    .object ⟨10⟩ #[.ref ⟨0⟩, .null]]
  tokens := 1

theorem fits_ref {a : Address} {i : Instance} {own : ShapeId} {known : Descriptor}
    (hi : heap.get? a = some i) (hshape : i.shape = own) (hb : pool.Below own own known) :
    (Value.ref a).Fits pool heap.shapes own :=
  .ref ⟨i, hi, hshape⟩ ⟨_, _, hb, Or.inr rfl⟩

theorem typedBy : heap.TypedBy pool heap.shapes :=
  Heap.typedBy_shapes (by decide +kernel)

end AppendedStream

/-- Without the one condition or the other, a run may end with values that do not conform. -/
theorem Routine.exists_not_endsTyped :
    (∃ (s : Session) (r : Routine) (source : Value),
      r.StartsTyped (· = Mapping.initial) s s.heap.shapes source .null ∧ s.pool.MembersInRecords ∧
        s.heap.Steady s.pool s.heap.shapes ∧
        ¬ r.EndsTyped s s.heap.shapes source .null .null 4) ∧
    ∃ (s : Session) (r : Routine) (source destination : Value),
      r.StartsTyped (· = Mapping.initial) s s.heap.shapes source destination ∧ s.pool.Regular ∧
        ¬ r.EndsTyped s s.heap.shapes source destination .null 4 := by
  constructor
  · obtain ⟨hpool, hheap⟩ := Session.pool_and_heap_compiling DeclaringList.operations
      DeclaringList.heap Mapping.initial ShapeId.untypedList ⟨7⟩
    rw [DeclaringList.pool_eq] at hpool
    have hstart : (Session.compiled DeclaringList.operations DeclaringList.heap
        Mapping.initial ShapeId.untypedList ⟨7⟩).StartsTyped (· = Mapping.initial)
        (Session.compiling DeclaringList.operations DeclaringList.heap Mapping.initial
          ShapeId.untypedList ⟨7⟩) DeclaringList.heap.shapes (.ref ⟨0⟩) .null :=
      Session.startsTyped_compiled DeclaringList.pool_eq (by decide +kernel) rfl rfl
        DeclaringList.typedBy
        (.ref ⟨_, rfl, rfl⟩ ⟨_, _, DeclaringList.below_list, Or.inr rfl⟩) .null
    have hdescriptor : DeclaringList.pool.descriptor ⟨7⟩ = .ok DeclaringList.ints := rfl
    refine ⟨_, _, .ref ⟨0⟩, hheap.symm ▸ hstart,
      hpool.symm ▸ Pool.membersInRecords (by decide +kernel), ?_, ?_⟩
    · rw [hheap, hpool]
      exact DeclaringList.steady
    · rw [hheap]
      exact hstart.not_endsTyped_of_holdsText (hpool.symm ▸ hdescriptor) rfl
        (a := ⟨1⟩) (by decide +kernel)
  · obtain ⟨hpool, hheap⟩ := Session.pool_and_heap_compiling AppendedStream.operations
      AppendedStream.heap Mapping.initial ⟨9⟩ ⟨10⟩
    rw [AppendedStream.pool_eq] at hpool
    have hstart : (Session.compiled AppendedStream.operations AppendedStream.heap
        Mapping.initial ⟨9⟩ ⟨10⟩).StartsTyped (· = Mapping.initial)
        (Session.compiling AppendedStream.operations AppendedStream.heap Mapping.initial ⟨9⟩ ⟨10⟩)
        AppendedStream.heap.shapes (.ref ⟨3⟩) (.ref ⟨4⟩) :=
      Session.startsTyped_compiled AppendedStream.pool_eq (by decide +kernel) rfl rfl
        AppendedStream.typedBy (AppendedStream.fits_ref rfl rfl ⟨rfl, rfl⟩)
        (AppendedStream.fits_ref rfl rfl ⟨rfl, rfl⟩)
    have hregular : AppendedStream.pool.Regular :=
      Pool.regular_of_descriptors (Pool.membersInRecords (by decide +kernel)) (by decide +kernel)
    have hdescriptor : AppendedStream.pool.descriptor ⟨7⟩ =
        .ok (.ofCollection "List<int>" .list (some ShapeId.int)) := rfl
    refine ⟨_, _, .ref ⟨3⟩, .ref ⟨4⟩, hheap.symm ▸ hstart, hpool.symm ▸ hregular, ?_⟩
    rw [hheap]
    exact hstart.not_endsTyped_of_holdsText (hpool.symm ▸ hdescriptor) rfl
      (a := ⟨5⟩) (by decide +kernel)

end Reshape
