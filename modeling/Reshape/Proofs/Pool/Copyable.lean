import Reshape.Proofs.Pool.Below
import Reshape.Value.Default

/-!
# Pools whose values can be copied

In a copyable pool (`Pool.Copyable`) every mentioned shape is described, and neither nullable shapes
nor value types lead back to themselves. So there is a shape below each
(`Pool.Copyable.exists_below`) and a zero value (`Pool.Copyable.exists_zeroValue`), and all records
and containers can be made from nothing (`Pool.Copyable.exists_template`).
-/

namespace Reshape

/-- The shapes that the descriptor mentions. -/
def Descriptor.mentioned (d : Descriptor) : List ShapeId :=
  d.members.map Member.shape ++
    match d.kind with
    | .nullable inner => [inner]
    | .collection _ (some element) => [element]
    | _ => []

namespace Pool

structure Copyable (pool : Pool) : Prop where
  defined : ∀ id known, pool.descriptor id = .ok known → ∀ inner ∈ known.mentioned,
    ∃ known', pool.descriptor inner = .ok known'
  any : ∀ id known, pool.descriptor id = .ok known → known.kind = .any → id = ShapeId.any
  nullable : WellFounded pool.IsNullable
  containment : WellFounded pool.Contains
  names : ∀ id known, pool.descriptor id = .ok known → known.kind = .record →
    (known.members.map Member.name).Nodup
  access : ∀ id known, pool.descriptor id = .ok known → known.kind = .record →
    ∀ m ∈ known.members, m.access.readable = true ∧ m.access.writable = true
  record : ∀ id known, pool.descriptor id = .ok known → known.kind = .record →
    known.valueType = true ∨ known.defaultConstructor = true
  insertable : ∀ id known element, pool.descriptor id = .ok known →
    known.kind = .collection .insertable element →
      known.valueType = false ∧ known.defaultConstructor = true

namespace Copyable

variable {pool : Pool} (h : pool.Copyable) {id : ShapeId} {known : Descriptor}

include h

theorem exists_descriptor_of_member (hid : pool.descriptor id = .ok known) {m : Member}
    (hm : m ∈ known.members) : ∃ known', pool.descriptor m.shape = .ok known' :=
  h.defined id known hid m.shape (List.mem_append_left _ (List.mem_map_of_mem hm))

theorem exists_descriptor_of_nullable (hid : pool.descriptor id = .ok known) {inner : ShapeId}
    (hkind : known.kind = .nullable inner) : ∃ known', pool.descriptor inner = .ok known' := by
  refine h.defined id known hid inner (List.mem_append_right _ ?_)
  rw [hkind]
  exact List.mem_singleton_self inner

theorem exists_descriptor_of_element (hid : pool.descriptor id = .ok known) {family : Family}
    {element : ShapeId} (hkind : known.kind = .collection family (some element)) :
    ∃ known', pool.descriptor element = .ok known' := by
  refine h.defined id known hid element (List.mem_append_right _ ?_)
  rw [hkind]
  exact List.mem_singleton_self element

/-- There is a shape below each nullable one. -/
theorem exists_below (hid : pool.descriptor id = .ok known) :
    ∃ below known', pool.Below id below known' := by
  let leads (j i : Nat) : Prop := pool.IsNullable ⟨j⟩ ⟨i⟩
  have hstrip : ∀ known, pool.descriptor ⟨id.index⟩ = .ok known →
      ∃ below, pool.stripNullableWithin (pool.size + 1) ⟨id.index⟩ = .ok below := by
    refine holds_within leads ?_ (fun n i => ∀ known, pool.descriptor ⟨i⟩ = .ok known →
      ∃ below, pool.stripNullableWithin n ⟨i⟩ = .ok below) ?_ ?_
    · rintro i j ⟨known, hknown, hkind⟩
      obtain ⟨known', hknown'⟩ := h.exists_descriptor_of_nullable hknown hkind
      exact lt_size_of_descriptor hknown'
    · intro n i hn known hknown
      rw [stripNullableWithin, hknown]
      cases hkind : known.kind with
      | nullable inner =>
        obtain ⟨known', hknown'⟩ := h.exists_descriptor_of_nullable hknown hkind
        simp only [hkind]
        exact hn inner.index ⟨known, hknown, hkind⟩ known' hknown'
      | _ => exact ⟨⟨i⟩, by simp only [hkind]⟩
    · exact (InvImage.wf ShapeId.mk h.nullable).apply id.index
  obtain ⟨below, hbelow⟩ := hstrip known hid
  obtain ⟨known', hknown', -⟩ := exists_descriptor_of_stripNullableWithin hbelow
  exact ⟨below, known', hbelow, hknown'⟩

/-- Each place has a zero value. -/
theorem exists_zeroValue (hid : pool.descriptor id = .ok known) :
    ∃ v, pool.zeroValue id = .ok v := by
  let leads (j i : Nat) : Prop := pool.Contains ⟨j⟩ ⟨i⟩
  have hzero : ∀ known, pool.descriptor ⟨id.index⟩ = .ok known →
      ∃ v, pool.zeroValueWithin (pool.size + 1) ⟨id.index⟩ = .ok v := by
    refine holds_within leads ?_ (fun n i => ∀ known, pool.descriptor ⟨i⟩ = .ok known →
      ∃ v, pool.zeroValueWithin n ⟨i⟩ = .ok v) ?_ ?_
    · rintro i j ⟨known, hknown, -, -, m, hm, hshape⟩
      obtain ⟨known', hknown'⟩ := h.exists_descriptor_of_member hknown hm
      exact lt_size_of_descriptor (hshape ▸ hknown')
    · intro n i hn known hknown
      rw [zeroValueWithin]
      have hfields (hkind : known.kind = .record) (htype : known.valueType = true) :
          ∃ fields, known.members.mapM (fun m => pool.zeroValueWithin n m.shape) = .ok fields := by
        refine Except.exists_mapM_eq_ok fun m hm => ?_
        obtain ⟨known', hknown'⟩ := h.exists_descriptor_of_member hknown hm
        exact hn m.shape.index ⟨known, hknown, hkind, htype, m, hm, rfl⟩ known' hknown'
      refine (exists_congr fun v => Except.bind_eq_ok_iff).mpr ?_
      rw [exists_comm]
      refine ⟨known, (exists_congr fun v => and_iff_right hknown).mpr ?_⟩
      split
      · exact ⟨_, rfl⟩
      · exact ⟨_, rfl⟩
      · exact ⟨_, rfl⟩
      · exact ⟨_, rfl⟩
      · rename_i hkind
        split
        · rename_i htype
          obtain ⟨fields, hfields⟩ := hfields hkind htype
          exact ⟨_, Except.bind_eq_ok_iff.mpr ⟨fields, hfields, rfl⟩⟩
        · exact ⟨_, rfl⟩
      · exact ⟨_, rfl⟩
    · exact (InvImage.wf ShapeId.mk h.containment).apply id.index
  exact hzero known hid

/-- All that has a default constructor can be made from nothing. -/
theorem exists_template (hid : pool.descriptor id = .ok known) (htype : known.valueType = false)
    (hconstructor : known.defaultConstructor = true) : ∃ t, Template.ofShape pool id = .ok t := by
  unfold Template.ofShape
  rw [hid]
  change ∃ t, (if known.valueType then _ else _ : Except ShapeError Template) = .ok t
  rw [if_neg (by simp [htype]), if_neg (by simp [hconstructor])]
  split
  · obtain ⟨fields, hfields⟩ : ∃ fields, known.members.mapM
        (fun m => pool.zeroValue m.shape) = .ok fields := by
      refine Except.exists_mapM_eq_ok fun m hm => ?_
      obtain ⟨known', hknown'⟩ := h.exists_descriptor_of_member hid hm
      exact h.exists_zeroValue hknown'
    exact ⟨_, Except.bind_eq_ok_iff.mpr ⟨fields, hfields, rfl⟩⟩
  · exact ⟨_, rfl⟩
  · exact ⟨_, rfl⟩

end Copyable

/-! ## Checks -/

/-- The shape is fit for a copyable pool, and comes after those that its values hold in place. -/
def admits (pool : Pool) (id : ShapeId) (known : Descriptor) : Bool :=
  known.mentioned.all (fun inner => (pool.descriptor inner).toBool) &&
    match known.kind with
    | .any => id == ShapeId.any
    | .nullable inner => decide (inner.index < id.index)
    | .record =>
      decide (known.members.map Member.name).Nodup &&
        known.members.all (fun m => m.access.readable && m.access.writable) &&
        if known.valueType then known.members.all fun m => decide (m.shape.index < id.index)
        else known.defaultConstructor
    | .collection .insertable _ => !known.valueType && known.defaultConstructor
    | _ => true

/-- What a pool admits of a record : names that differ, members that can be read and written, and
either earlier shapes or a default constructor. -/
theorem admits_record {pool : Pool} {id : ShapeId} {known : Descriptor}
    (h : pool.admits id known = true) (hkind : known.kind = .record) :
    (known.members.map Member.name).Nodup ∧
      (∀ m ∈ known.members, m.access.readable = true ∧ m.access.writable = true) ∧
      (if known.valueType then ∀ m ∈ known.members, m.shape.index < id.index
        else known.defaultConstructor = true) := by
  simp only [admits, hkind, Bool.and_eq_true, decide_eq_true_eq, List.all_eq_true] at h
  obtain ⟨-, ⟨hnames, haccess⟩, hcase⟩ := h
  refine ⟨hnames, haccess, ?_⟩
  split at hcase
  · rename_i htype
    rw [if_pos htype]
    exact fun m hm => of_decide_eq_true (List.all_eq_true.mp hcase m hm)
  · rename_i htype
    rwa [if_neg htype]

/-- A pool all of whose slots hold what it admits makes copies of everything. -/
theorem copyable_of_admits {pool : Pool}
    (h : pool.slots.zipIdx.all (fun p => p.1.descriptor?.all (pool.admits ⟨p.2⟩)) = true) :
    pool.Copyable := by
  have hall {id : ShapeId} {known : Descriptor} (hid : pool.descriptor id = .ok known) :
      pool.admits id known = true := by
    obtain ⟨slot, hslot, hdescriptor⟩ := descriptor_eq_ok_iff.mp hid
    have hslot' := List.all_eq_true.mp h (slot, id.index) (List.mem_zipIdx_iff_getElem?.mpr hslot)
    rwa [hdescriptor] at hslot'
  have hbehind {leads : ShapeId → ShapeId → Prop}
      (hleads : ∀ inner id, leads inner id → inner.index < id.index) : WellFounded leads :=
    Subrelation.wf (hleads _ _) (InvImage.wf ShapeId.index Nat.lt_wfRel.wf)
  constructor
  case defined =>
    intro id known hid inner hinner
    have hdefined := List.all_eq_true.mp (Bool.and_eq_true_iff.mp (hall hid)).1 inner hinner
    cases hdescriptor : pool.descriptor inner with
    | ok known' => exact ⟨known', rfl⟩
    | error e => simp [hdescriptor, Except.toBool] at hdefined
  case any =>
    intro id known hid hkind
    have hadmits := hall hid
    simp only [admits, hkind, Bool.and_eq_true] at hadmits
    exact eq_of_beq hadmits.2
  case nullable =>
    refine hbehind ?_
    rintro inner id ⟨known, hid, hkind⟩
    have hadmits := hall hid
    simp only [admits, hkind, Bool.and_eq_true] at hadmits
    exact of_decide_eq_true hadmits.2
  case containment =>
    refine hbehind ?_
    rintro inner id ⟨known, hid, hkind, htype, m, hm, rfl⟩
    have hcase := (admits_record (hall hid) hkind).2.2
    rw [if_pos htype] at hcase
    exact hcase m hm
  case names => exact fun id known hid hkind => (admits_record (hall hid) hkind).1
  case access => exact fun id known hid hkind => (admits_record (hall hid) hkind).2.1
  case record =>
    intro id known hid hkind
    have hcase := (admits_record (hall hid) hkind).2.2
    split at hcase
    · exact Or.inl (by assumption)
    · exact Or.inr hcase
  case insertable =>
    intro id known element hid hkind
    have hadmits := hall hid
    simp only [admits, hkind, Bool.and_eq_true] at hadmits
    simpa using hadmits.2

end Pool

end Reshape
