import Reshape.Proofs.Routine.Collecting

/-!
# Filling records that nothing leads to

Other routines and converters run while a record is filled. If nothing leads to the record but the
routine that fills it (`Session.Secludes`), they leave it alone : to fill one member changes no
other one (`RecordForm.fill_apart`), and what is written to a member stays there while later members
are filled (`RecordForm.fillAll_apart`). A record that is held in place is in no need of this, and
a new one is secluded from the start (`RecordForm.Made.apart_of_whole`).
-/

set_option linter.unusedSectionVars false

namespace Reshape

/-- There is an instance at the place, and nothing leads there : no instance refers to it, none of
the values does, and converters do not get at it unless they are given it. -/
structure Session.Secludes (mappings : Mapping → Prop) (s : Session) (values : List Value)
    (a : Address) : Prop where
  lt_size : a.index < s.heap.size
  heap : s.heap.Secludes a
  values : ∀ v ∈ values, v.Within (· ≠ a)
  converters : ∀ m, mappings m → m.Confined (· ≠ a)

/-- The record is held in place, or at a place that nothing leads to. -/
def Session.Apart (mappings : Mapping → Prop) (pool : Pool) (r : Routine) (values : List Value)
    (record : Value) (s : Session) : Prop :=
  ∀ a, record.bare = .ref a → s.Serves mappings pool r ∧ s.Secludes mappings values a

/-- Converters that values of the member are given to are those of the mapping. -/
def MemberTransfer.Uses (mapping : Mapping) (m : MemberTransfer) : Prop :=
  ∀ c, m.transfer = .custom c → c ∈ mapping.converters

section

variable {mappings : Mapping → Prop} {pool : Pool} {r : Routine} {s : Session} {form : RecordForm}
  {m : MemberTransfer} {depth : Nat} {frame : Frame} {source record : Value}

/-- What is read of the record itself does not lead back to it. -/
theorem RunM.Yields.readMember_of_bare {p : Address → Prop} {q : Session → Prop} {a : Address}
    (hbare : record.bare = .ref a)
    (hparts : ∀ s, q s → ∀ i, s.heap.get? a = some i → ∀ w ∈ i.parts, w.Within p)
    (shape : ShapeId) (member : Nat) :
    RunM.Yields q (Value.Within p) (RunM.readMember record shape member) := by
  refine .get fun s hs => ?_
  split
  · exact .pure .null
  · split
    · exact .pure (Heap.within_member_of_bare (hparts s hs) hbare)
    · exact .throw

/-- A member can be written with any value that does not reach the record itself. -/
theorem Session.Apart.writeMember {values : List Value} {v : Value}
    (h : s.Apart mappings pool r values record)
    (hv : ∀ a, record.bare = .ref a → v.Within (· ≠ a)) (i : Nat) :
    Session.Apart mappings pool r values (s.heap.writeMember record i v).1
      { s with heap := (s.heap.writeMember record i v).2 } := by
  intro a ha
  have hbare := Heap.bare_writeMember ha
  obtain ⟨hserves, hsecluded⟩ := h a hbare
  refine ⟨hserves.withHeap _, ?_, hsecluded.heap.writeMember (hv a hbare) record i,
    hsecluded.values, hsecluded.converters⟩
  exact Nat.lt_of_lt_of_eq hsecluded.lt_size (Heap.size_writeMember i v s.heap record).symm

variable (hlinkage : frame.linkage = r.linkage)

include hlinkage

/-- What is done to fill a member, before it is written, leaves the record as it is. -/
theorem MemberTransfer.run_apart (hm : m.Uses r.linkage.mapping)
    (h : s.Apart mappings pool r [source, frame.state] record) :
    Ensures (m.transfer.run (Routine.run depth) frame
        (RunM.readMember source form.source m.pair.source)
        (RunM.readMember record form.target m.pair.destination)) s
      (fun v s' => s'.Apart mappings pool r [source, frame.state] record ∧
        (∀ a, record.bare = .ref a → v.Within (· ≠ a)) ∧
          ∀ j, s'.heap.member? record j = s.heap.member? record j)
      fun _ _ => True := by
  by_cases hbare : ∃ a, record.bare = .ref a
  · obtain ⟨a, ha⟩ := hbare
    have honly (b : Address) (hb : record.bare = .ref b) : b = a :=
      Value.ref.inj (hb.symm.trans ha)
    obtain ⟨hserves, hsecluded⟩ := h a ha
    obtain ⟨owner, howned⟩ := hserves.coherent
    obtain ⟨hlt, howner, hmapping, -⟩ := howned.madeIn hserves.knows
    obtain ⟨hsource, hstate⟩ : source.Within (· ≠ a) ∧ frame.state.Within (· ≠ a) :=
      ⟨hsecluded.values _ (by simp), hsecluded.values _ (by simp)⟩
    have hnew (b : Address) (hb : s.heap.size ≤ b.index) : b ≠ a := by
      rintro rfl
      exact absurd hsecluded.lt_size (Nat.not_lt.mpr hb)
    have hconfines : Session.Confines (· ≠ a)
        (fun s' => s.Evolves mappings owner s' ∧ Heap.Confined (· ≠ a) s.heap s'.heap)
        (Routine.run depth) ⟨.null, .null, frame.state, frame.linkage⟩ :=
      howned.confines (Routine.run_confined hsecluded.converters depth)
        (Routine.run_evolving depth) (hlinkage ▸ hlt) (hlinkage ▸ howner) hnew .null .null hstate
    have htransfer : m.transfer.Confined (· ≠ a) := by
      cases ht : m.transfer with
      | custom c => exact hsecluded.converters _ hmapping c (hm c ht)
      | _ => trivial
    have hrun := hconfines.transfer (hconfines.readMember hsource form.source m.pair.source)
      (.readMember_of_bare ha (fun s' hs' => hsecluded.heap.of_confined hs'.2 a) form.target
        m.pair.destination) htransfer s ⟨.refl howned, hsecluded.heap.confined⟩
    refine Ensures.mono hrun ?_ fun _ _ _ => trivial
    rintro v s' ⟨⟨hevolves, hconfined⟩, hv⟩
    refine ⟨fun b hb => ?_, fun b hb => honly b hb ▸ hv, fun j => ?_⟩
    · obtain rfl := honly b hb
      exact ⟨hevolves.serves hserves, Nat.lt_of_lt_of_le hsecluded.lt_size hconfined.size,
        hsecluded.heap.of_confined hconfined, hsecluded.values, hsecluded.converters⟩
    · refine (Heap.shape?_and_member?_eq fun b hb => ?_).2 j
      obtain rfl := honly b hb
      exact hconfined.kept b fun hne => hne rfl
  · have hnone (a : Address) : record.bare ≠ .ref a := fun ha => hbare ⟨a, ha⟩
    refine (Ensures.trivial _ s).mono (fun v s' _ => ?_) fun _ _ _ => trivial
    exact ⟨fun a ha => absurd ha (hnone a), fun a ha => absurd ha (hnone a),
      (Heap.shape?_and_member?_eq fun a ha => absurd ha (hnone a)).2⟩

/-- No other member changes when one is filled. -/
theorem RecordForm.fill_apart (hm : m.Uses r.linkage.mapping)
    (h : s.Apart mappings pool r [source, frame.state] record) :
    Ensures (form.fill (Routine.run depth) frame source record m) s
      (fun record' s' => s'.Apart mappings pool r [source, frame.state] record' ∧
        ∀ j, m.pair.destination ≠ j → s'.heap.member? record' j = s.heap.member? record j)
      fun _ _ => True := by
  refine Ensures.bind (Ensures.mono (MemberTransfer.run_apart hlinkage hm h) ?_
    fun _ _ _ => trivial)
  rintro v s₁ ⟨hapart, hv, hmember⟩
  refine ⟨hapart.writeMember hv m.pair.destination, fun j hj => ?_⟩
  exact (Heap.member?_writeMember_of_ne hj v s₁.heap record).trans (hmember j)

/-- Members that are not filled keep what they hold. -/
theorem RecordForm.fillAll_apart {members : List MemberTransfer}
    (hmembers : ∀ m ∈ members, m.Uses r.linkage.mapping)
    (h : s.Apart mappings pool r [source, frame.state] record) :
    Ensures (form.fillAll (Routine.run depth) frame source record members) s
      (fun record' s' => s'.Apart mappings pool r [source, frame.state] record' ∧
        ∀ j, (∀ m ∈ members, m.pair.destination ≠ j) →
          s'.heap.member? record' j = s.heap.member? record j)
      fun _ _ => True := by
  induction members generalizing s record with
  | nil => exact Ensures.pure ⟨h, fun _ _ => rfl⟩
  | cons m members ih =>
    obtain ⟨hm, hmembers⟩ := List.forall_mem_cons.mp hmembers
    rw [fillAll_cons]
    refine Ensures.bind ((fill_apart hlinkage hm h).mono ?_ fun _ _ _ => trivial)
    rintro record₁ s₁ ⟨hapart, hmember⟩
    refine (ih hmembers hapart).mono ?_ fun _ _ _ => trivial
    rintro record' s' ⟨hapart', hmember'⟩
    refine ⟨hapart', fun j hj => ?_⟩
    obtain ⟨hne, hj⟩ := List.forall_mem_cons.mp hj
    exact (hmember' j hj).trans (hmember j hne)

end

/-! ## Where records come from -/

/-- The record that is filled is a new one, or one that has the member and that nothing leads to. -/
inductive Session.Shelters (mappings : Mapping → Prop) (s : Session)
    (source destination state : Value) (member : Nat) : Prop
  | new (h : destination = .null) (hwhole : s.Whole mappings [source, state])
  | supplied (h : destination ≠ .null) (hmember : (s.heap.member? destination member).isSome = true)
    (hsecluded : ∀ a, destination.bare = .ref a → s.Secludes mappings [source, state] a)

section

variable {mappings : Mapping → Prop} {pool : Pool} {r : Routine} {s : Session}
  {source state : Value}

/-- A new instance is at a place that nothing leads to. -/
theorem Session.Whole.secludes {new : Instance} (h : s.Whole mappings [source, state])
    (hnew : ∀ w ∈ new.parts, ∀ p, w.Within p) :
    Session.Secludes mappings { s with heap := (s.heap.alloc new).2 } [source.unboxed, state]
      ⟨s.heap.size⟩ := by
  have hne (a : Address) (ha : a.index < s.heap.size) : a ≠ ⟨s.heap.size⟩ := by
    rintro rfl
    exact Nat.lt_irrefl _ ha
  obtain ⟨hsource, hstate⟩ := List.forall_mem_cons.mp h.values
  refine ⟨?_, ?_, ?_, h.converters _ hne⟩
  · rw [Heap.size_alloc]
    exact Nat.lt_succ_self _
  · exact Heap.Secludes.alloc (fun b i hi w hw => (h.parts b i hi w hw).imp hne)
      fun w hw => hnew w hw _
  · exact List.forall_mem_cons.mpr ⟨(hsource.imp hne).unboxed, fun v hv => (hstate v hv).imp hne⟩

/-- A record that is made anew is apart from everything that was there. -/
theorem RecordForm.Made.apart_of_whole {mapping : Mapping} {S T : ShapeId}
    {sourceShape targetShape : Descriptor} {form : RecordForm} {frame : Frame} {record : Value}
    {s₀ : Session} (hform : form.Made pool mapping S T sourceShape targetShape)
    (ht : pool.Below T T targetShape) (hkind : targetShape.kind = .record)
    (hserves : s.Serves mappings pool r) (hwhole : s.Whole mappings [source, state])
    (hnull : frame.destination = .null) (hrun : form.destination frame s = .ok record s₀)
    (hrecord : record.unboxed ≠ .null) {i : Nat} (hi : i < targetShape.members.length) :
    s₀.Apart mappings pool r [source.unboxed, state] record.unboxed ∧
      (s₀.heap.member? record.unboxed i).isSome = true := by
  have hmakes : Origin.Makes pool T targetShape s.heap (form.origin.make s.heap) :=
    hform.origin.makes ht.descriptor s.heap
  have hmade : form.destination frame s = .ok (form.origin.make s.heap).1
      { s with heap := (form.origin.make s.heap).2 } := by
    unfold destination
    rw [hnull]
    rfl
  obtain ⟨rfl, rfl⟩ := EStateM.Result.ok.inj (hmade.symm.trans hrun)
  generalize form.origin.make s.heap = made at hmakes hrecord ⊢
  cases hmakes with
  | @value zero hzero =>
    rw [Heap.unboxed_box] at hrecord ⊢
    cases htype : targetShape.valueType with
    | false =>
      have hprimitive (p : Primitive) : targetShape.kind ≠ .primitive p := by simp [hkind]
      rw [Pool.zeroValue_eq_null ht.descriptor (fun _ => htype) hprimitive hzero] at hrecord
      exact absurd rfl hrecord
    | true =>
      obtain ⟨fields, rfl, hfields⟩ := Pool.zeroValue_struct ht.descriptor hkind htype hzero
      refine ⟨fun a ha => (nomatch ha), ?_⟩
      change (fields[i]?).isSome = true
      rw [List.getElem?_eq_getElem ((Pool.of_mapM_zeroValue hfields).1.symm ▸ hi)]
      rfl
  | @object fields _ _ hfields =>
    obtain ⟨hlength, hwithin, -⟩ := Pool.of_mapM_zeroValue hfields
    refine ⟨fun a ha => ?_, ?_⟩
    · cases ha
      exact ⟨hserves.withHeap _, hwhole.secludes fun w hw => hwithin w hw⟩
    · change ((s.heap.alloc (.object T fields.toArray)).2.member? (.ref ⟨s.heap.size⟩) i).isSome =
        true
      rw [Heap.member?_ref, Heap.get?_alloc_size]
      dsimp only
      rw [List.getElem?_toArray, List.getElem?_eq_getElem (hlength.symm ▸ hi)]
      rfl
  | seq hcollection => cases hkind.symm.trans hcollection
  | null => exact absurd rfl hrecord

/-- A record that is supplied is apart if it was secluded. -/
theorem RecordForm.apart_of_supplied {form : RecordForm} {frame : Frame} {record : Value}
    {s₀ : Session} {i : Nat} (hserves : s.Serves mappings pool r)
    (hne : frame.destination ≠ .null) (hrun : form.destination frame s = .ok record s₀)
    (hmember : (s.heap.member? frame.destination i).isSome = true)
    (hsecluded : ∀ a, frame.destination.bare = .ref a → s.Secludes mappings [source, state] a) :
    s₀.Apart mappings pool r [source.unboxed, state] record.unboxed ∧
      (s₀.heap.member? record.unboxed i).isSome = true := by
  unfold destination at hrun
  rw [if_neg fun hnull => hne (Value.isNull_iff.mp hnull)] at hrun
  cases hrun
  refine ⟨fun a ha => ?_, by rw [Heap.member?_unboxed]; exact hmember⟩
  rw [Value.bare_unboxed] at ha
  have ha := hsecluded a ha
  obtain ⟨hsource, hstate⟩ := List.forall_mem_cons.mp ha.values
  exact ⟨hserves, ha.lt_size, ha.heap, List.forall_mem_cons.mpr ⟨hsource.unboxed, hstate⟩,
    ha.converters⟩

end

end Reshape
