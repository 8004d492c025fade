import Reshape.Proofs.Routine.Copying
import Reshape.Proofs.Session.Reachable
import Reshape.Proofs.Value.Alike
import Reshape.Routine.Depth

/-!
# Faithful copies

Under a standard mapping, the routine from a shape into itself copies each plain value of the shape
(`Session.Reachable.exists_duplicates`). The copy is equal to the value, and shares no instance with
it.

What is done with a value takes as many routines within each other as it is deep. The induction is
on its parts (`Heap.Plain.parts_induction`) : if the parts are copied within some depth, the value
is copied within two more (`copiesWithin_of_parts`), one for its own shape and one for `any`.
-/

set_option linter.unusedSectionVars false

namespace Reshape

/-! ## Forms that make copies -/

section

variable {mappings : Mapping → Prop} {id : MappingId} {pool : Pool} {start : Heap} {state v : Value}
  {targets targets' : ShapeId → Prop} {depth : Nat}

theorem CopiesWithin.mono (h : CopiesWithin mappings id pool start state targets depth v)
    (htargets : ∀ target, targets' target → targets target) :
    CopiesWithin mappings id pool start state targets' depth v :=
  fun s r d hs hr hv hincludes htarget hd => h s r d hs hr hv hincludes (htargets _ htarget) hd

/-- A plain collection is a sequence of plain values. -/
theorem Heap.Plain.collection_cases (hpool : Pool.initial.GrowsTo pool) {shape : ShapeId}
    {known : Descriptor} {family : Family} {element : Option ShapeId}
    (hb : pool.Below shape shape known) (hkind : known.kind = .collection family element)
    (h : start.Plain pool v shape) (hnull : v ≠ .null) : family ≠ .opaqueFamily ∧
      ∃ a items, v = .ref a ∧ start.get? a = some (.seq shape items) ∧
        ∀ w ∈ items, start.Plain pool w (element.getD ShapeId.any) := by
  have hany : known.kind ≠ .any := by simp [hkind]
  cases h with
  | null => exact absurd rfl hnull
  | @primitive p _ _ hv hp _ =>
    obtain rfl := hp.eq hb hany
    obtain ⟨-, rfl⟩ := (Pool.Below.of_primitive hpool p).unique hb
    cases hkind
  | struct _ hp hs hkind' _ _ _ =>
    obtain rfl := hp.eq hb hany
    obtain rfl := Except.ok.inj (hs.symm.trans hb.descriptor)
    cases hkind.symm.trans hkind'
  | object _ hp hs hkind' _ _ _ =>
    obtain rfl := hp.eq hb hany
    obtain rfl := Except.ok.inj (hs.symm.trans hb.descriptor)
    cases hkind.symm.trans hkind'
  | seq ha hp hs hkind' hfamily hitems =>
    obtain rfl := hp.eq hb hany
    obtain rfl := Except.ok.inj (hs.symm.trans hb.descriptor)
    cases hkind.symm.trans hkind'
    exact ⟨hfamily, _, _, rfl, ha, hitems⟩

/-- The form of a routine from a shape into itself copies values whose parts are copied. -/
theorem Form.makes {s : Session} {r : Routine} (hc : Copier mappings id pool)
    (hs : s.Holds mappings pool start) (hr : r.Live id s) {frame : Frame}
    (hlinkage : frame.linkage = r.linkage) {m : Mapping} (hm : m.Standard) {shape : ShapeId}
    {known : Descriptor} {form : Form} (hform : form.For pool m shape shape known known)
    (hb : pool.Below shape shape known) (hany : known.kind ≠ .any)
    (hv : start.Plain pool frame.source shape) (hd : frame.destination.Blank pool shape)
    (hparts : ∀ u ∈ start.parts frame.source,
      CopiesWithin mappings id pool start frame.state (fun _ => True) depth u) :
    Makes mappings start s frame.source (form.run (Routine.run depth) frame) := by
  have hnull (hnull : frame.source = .null) {x : RunM Value} (hx : x = return .null) :
      Makes mappings start s frame.source x := by
    rw [hnull, hx]
    exact Makes.null hs.coherent
  cases hform with
  | @transfer t _ hkind ht =>
    obtain ⟨p, hkind⟩ := (hkind.resolve_left hany).resolve_left hany
    obtain ⟨-, rfl⟩ | ⟨q, hne, hq, -⟩ | ⟨hsource, -⟩ := ht.into_primitive hkind
    case inr.inl => exact absurd (Kind.primitive.inj (hq.symm.trans hkind)) hne
    case inr.inr => exact absurd hsource hany
    exact ⟨_, s, rfl, .refl hs.coherent, .self hb hkind hv⟩
  | @record form _ hkind hform =>
    by_cases hsource : frame.source = .null
    · refine hnull hsource ?_
      rw [Form.run, RecordForm.run, hsource]
      rfl
    · obtain ⟨vs, hlength, hplain, hcases⟩ := hv.record_cases hc.grows hb hkind hsource
      have hvs : start.parts frame.source = vs := by
        rcases hcases with ⟨-, hv⟩ | ⟨-, a, hv, ha⟩
        · exact Heap.parts_of_struct start hv
        · rw [hv, Heap.parts_ref ha]
          rfl
      refine RecordForm.makes hc hs hr hlinkage hm hform hlength hplain (fun u hu => ?_) hb hkind
        hcases hd
      exact (hparts u (hvs ▸ hu)).mono fun _ _ => trivial
  | @collection mapper hmapper =>
    by_cases hsource : frame.source = .null
    · refine hnull hsource ?_
      rw [Form.run, CollectionMapper.run, hsource]
      rfl
    · obtain ⟨family, element, hkind⟩ :=
        CollectionKind.exists_collection_of_ofDescriptor? hmapper.kind
      obtain ⟨-, a, items, hsource, ha, hitems⟩ := hv.collection_cases hc.grows hb hkind hsource
      refine CollectionMapper.makes hc hs hr hlinkage hm hmapper hkind hb hsource ha hitems hd ?_
      intro u hu
      refine hparts u ?_
      rw [hsource, Heap.parts_ref ha]
      exact Array.mem_toList_iff.mpr hu
  | unresolved hcollection hnone =>
    refine hnull (Classical.byContradiction fun hsource => ?_) rfl
    cases hkind : known.kind with
    | collection family element =>
      obtain ⟨hfamily, -⟩ := hv.collection_cases hc.grows hb hkind hsource
      rw [CollectionKind.ofDescriptor?, Descriptor.family?, hkind] at hnone
      cases family <;> first | exact hfamily rfl | cases hnone
    | _ => simp [Descriptor.isCollection, hkind] at hcollection

/-! ## Routines that make copies -/

/-- A routine that is run is run as a form between the shapes below its own. -/
theorem Routine.Live.exists_form {s : Session} {r : Routine} (hc : Copier mappings id pool)
    (hs : s.Holds mappings pool start) (hr : r.Live id s) :
    ∃ (m : Mapping) (below below' : ShapeId) (known known' : Descriptor) (form : Form), m.Standard ∧
      pool.Below r.key.source below known ∧ pool.Below r.key.target below' known' ∧
      form.For pool m below below' known known' ∧ ∀ depth v d state, r.run (depth + 1) v d state =
        form.run (Routine.run depth) ⟨v, d, state, r.linkage⟩ := by
  obtain ⟨_, _, -, -, hmapping, hid, hmade⟩ := hr.exists_owner hs
  have hm := hc.standard _ hmapping hid
  obtain ⟨below, known, below', known', hb, hb', form, hrun, hform⟩ :=
    Mapping.exists_form hc.grows hm.converters hmade.body
  refine ⟨_, below, below', known, known', form, hm, hb, hb', hform, fun depth v d state => ?_⟩
  rw [Routine.run_succ, hrun]

/-- A value whose parts are copied within some depth is copied within one more, into its own shape.
-/
theorem copiesWithin_specific (hc : Copier mappings id pool)
    (hparts : ∀ u ∈ start.parts v,
      CopiesWithin mappings id pool start state (fun _ => True) depth u) :
    CopiesWithin mappings id pool start state pool.Specific (depth + 1) v := by
  intro s r d hs hr hv hincludes htarget hd
  obtain ⟨m, below, below', known, known', form, hm, hb, hb', hform, hrun⟩ :=
    hr.exists_form hc hs
  obtain ⟨_, _, hb'', hany⟩ := htarget
  obtain ⟨rfl, rfl⟩ := hb'.unique hb''
  obtain ⟨_, _, hb'', hcase⟩ := hincludes
  obtain ⟨rfl, rfl⟩ := hb'.unique hb''
  obtain ⟨rfl, rfl⟩ := hb.unique (hcase.resolve_left hany)
  rw [hrun]
  exact Form.makes hc hs hr rfl hm hform hb'.self hany ((Heap.Plain.below_iff hb).mpr hv)
    ((Value.Fits.below_iff hb').mpr hd) hparts

/-- A value whose parts are copied within some depth is copied within two more. -/
theorem copiesWithin_of_parts (hc : Copier mappings id pool)
    (hparts : ∀ u ∈ start.parts v, ∀ more, depth ≤ more →
      CopiesWithin mappings id pool start state (fun _ => True) more u) :
    CopiesWithin mappings id pool start state (fun _ => True) (depth + 2) v := by
  intro s r d hs hr hv hincludes _ hd
  have hown (more : Nat) (hle : depth ≤ more) :
      CopiesWithin mappings id pool start state pool.Specific (more + 1) v :=
    copiesWithin_specific hc fun u hu => hparts u hu more hle
  obtain ⟨m, below, below', known, known', form, hm, hb, hb', hform, hrun⟩ :=
    hr.exists_form hc hs
  by_cases hany : known'.kind = .any
  · -- Into `any` leads a transfer, which leaves the value to the routine for its own shape.
    obtain ⟨t, rfl, ht⟩ := hform.exists_transfer (.inl hany)
    rw [hm.copyMode] at ht
    rw [hrun]
    exact Transfer.makes hc hs hr rfl ⟨_, _, _, _, hb, hb', ht⟩ hincludes rfl rfl hv hd
      (hown depth (Nat.le_refl _))
  · exact hown (depth + 1) (Nat.le_succ _) s r d hs hr hv hincludes ⟨_, _, hb', hany⟩ hd

/-- A plain value is copied, if there is depth enough. -/
theorem Heap.Plain.exists_depth (hc : Copier mappings id pool) (state : Value) {place : ShapeId}
    (hv : start.Plain pool v place) : ∃ depth, ∀ more, depth ≤ more →
      CopiesWithin mappings id pool start state (fun _ => True) more v := by
  refine Heap.Plain.parts_induction (motive := fun v => ∃ depth, ∀ more, depth ≤ more →
    CopiesWithin mappings id pool start state (fun _ => True) more v) (fun v _ _ ih => ?_) hv
  obtain ⟨depth, hdepth⟩ := Reshape.exists_depth (start.parts v) ih
  refine ⟨depth + 2, fun more hmore => ?_⟩
  obtain ⟨k, rfl⟩ := Nat.exists_eq_add_of_le hmore
  rw [Nat.add_right_comm]
  refine copiesWithin_of_parts hc fun u hu more hle => ?_
  exact hdepth more (Nat.le_trans (Nat.le_add_right depth k) hle) u hu

end

/-! ## Sessions -/

/-- Run on the value with nothing in its place, the routine ends, if there is depth enough, with a
value that is equal to it and reaches none of the instances that it reaches. All that was there
before is as it was. -/
def Routine.Duplicates (r : Routine) (s : Session) (v state : Value) : Prop :=
  ∃ depth w s', (∀ more, depth ≤ more → r.run more v .null state s = .ok w s') ∧
    s.heap.Kept s'.heap ∧ s'.heap.equal w v = true ∧
    ∀ a, s'.heap.Reaches w a → ¬ s'.heap.Reaches v a

/-- A routine from a shape into itself makes duplicates of plain values. -/
theorem Routine.Live.duplicates {mappings : Mapping → Prop} {id : MappingId} {s : Session}
    {r : Routine} (hc : Copier mappings id s.pool) (hs : s.Coherent mappings) (hr : r.Live id s)
    (hself : r.key.target = r.key.source) {v : Value} (hv : s.heap.Plain s.pool v r.key.source)
    {below : ShapeId} {known : Descriptor} (hb : s.pool.Below r.key.source below known)
    (state : Value) : r.Duplicates s v state := by
  obtain ⟨depth, hdepth⟩ := hv.exists_depth hc state
  have hmade := hdepth depth (Nat.le_refl _) s r .null ⟨hs, rfl, .refl _⟩ hr hv
    (hself.symm ▸ hb.includes_self) trivial .null
  obtain ⟨w, s', hrun, hl, hcopied⟩ := hmade
  refine ⟨depth, w, s', fun more hmore => ?_, hl.kept, hcopied.equal hl.kept, fun a hw hv' => ?_⟩
  · rw [Routine.run_of_le hmore fun s'' => by simp [hrun], hrun]
  · have hle := hcopied.le_of_reaches hw
    have hlt := hv.lt_size_of_reaches hl.kept hv'
    exact absurd hlt (Nat.not_lt.mpr hle)

/-- Under a standard mapping, there is a routine from each shape of a copyable pool into itself. -/
theorem Session.Reachable.exists_live {mappings : Mapping → Prop} {s : Session}
    (h : s.Reachable mappings) {mapping : Mapping} (hmapping : mappings mapping)
    (hstandard : ∀ m, mappings m → m.id = mapping.id → m.Standard) {registry : RegistryId}
    (halive : s.registryAlive registry = true) (hpool : s.pool.Copyable) {shape : ShapeId}
    {known : Descriptor} (hshape : s.pool.descriptor shape = .ok known) :
    ∃ r s', Session.getOrCompile registry shape shape mapping s = .ok r s' ∧
      s'.heap = s.heap ∧ s'.pool = s.pool ∧ s'.Coherent mappings ∧ r.Live mapping.id s' ∧
      r.key.source = shape ∧ r.key.target = shape := by
  obtain ⟨owner, howned⟩ := h.coherent
  obtain ⟨below, known', hb⟩ := hpool.exists_below hshape
  let linkage : Linkage := ⟨⟨0⟩, registry, mapping⟩
  have hfinds : Ensures (Session.getOrCompile linkage.registry shape shape linkage.mapping) s _ _ :=
    Session.getOrCompile_finds howned shape shape hmapping (Session.exists_of_registryAlive halive)
  have hbody := (hstandard mapping hmapping rfl).exists_body hpool h.growsTo hb hb.includes_self
  obtain ⟨r, s', hrun, hfound⟩ :=
    Succeeds.of_ensures hfinds (Session.exists_getOrCompile linkage.registry hbody)
  have hkey : r.key = ⟨shape, shape, mapping.id⟩ := hfound.answers.key
  have hr : r.Live mapping.id s' := by
    refine ⟨hfound.knows, ?_, by rw [hkey]⟩
    rw [hfound.evolves.alive, hfound.answers.registry]
    exact halive
  exact ⟨r, s', hrun, hfound.heap, hfound.evolves.pool, hfound.evolves.coherent, hr, by rw [hkey],
    by rw [hkey]⟩

/-- Under a standard mapping, there is a routine from each shape of a copyable pool into itself, and
it makes duplicates of all plain values of the shape. -/
theorem Session.Reachable.exists_duplicates {mappings : Mapping → Prop} {s : Session}
    (h : s.Reachable mappings) {mapping : Mapping} (hmapping : mappings mapping)
    (hstandard : ∀ m, mappings m → m.id = mapping.id → m.Standard) {registry : RegistryId}
    (halive : s.registryAlive registry = true) (hpool : s.pool.Copyable) {shape : ShapeId}
    {known : Descriptor} (hshape : s.pool.descriptor shape = .ok known) {v : Value}
    (hv : s.heap.Plain s.pool v shape) :
    ∃ r s', Session.getOrCompile registry shape shape mapping s = .ok r s' ∧
      s'.heap = s.heap ∧ ∀ state, r.Duplicates s' v state := by
  obtain ⟨r, s', hrun, hheap, hpool', hs', hr, hsource, htarget⟩ :=
    h.exists_live hmapping hstandard halive hpool hshape
  obtain ⟨below, known', hb⟩ := hpool.exists_below hshape
  have hc : Copier mappings mapping.id s'.pool :=
    ⟨hpool'.symm ▸ h.growsTo, hpool'.symm ▸ hpool, hstandard⟩
  refine ⟨r, s', hrun, hheap, fun state => ?_⟩
  have hb' : s'.pool.Below r.key.source below known' := by rwa [hsource, hpool']
  refine hr.duplicates hc hs' (by rw [hsource, htarget]) ?_ hb' state
  rwa [hsource, hpool', hheap]

/-! ## A tree -/

namespace Tree

def point : Descriptor :=
  .ofRecord "Point" [⟨"x", ShapeId.int, {}⟩, ⟨"y", ShapeId.int, {}⟩] true

def node : Descriptor :=
  .ofRecord "Node" [⟨"at", ⟨10⟩, {}⟩, ⟨"tag", ShapeId.any, {}⟩, ⟨"children", ⟨8⟩, {}⟩]

def operations : List Pool.Operation :=
  [.declare "Node", .listOf ⟨7⟩, .register point, .nullable ⟨9⟩, .define ⟨7⟩ node]

def pool : Pool :=
  [⟨"Node", some node⟩, ⟨"List<Node>", some (.ofCollection "List<Node>" .list (some ⟨7⟩))⟩,
    ⟨"Point", some point⟩, ⟨"Point?", some (.ofNullable "Point?" ⟨9⟩)⟩].foldl
      Pool.push Pool.initial

theorem pool_eq : operations.foldl Pool.Operation.apply Pool.initial = pool := by decide +kernel

/-- A node with a child, which is tagged with a list. -/
def heap : Heap where
  instances := #[.object ⟨7⟩ #[.boxed ⟨0⟩ (.struct ⟨9⟩ [.int 1, .int 2]), .int 3, .ref ⟨1⟩],
    .seq ⟨8⟩ #[.ref ⟨2⟩, .null], .object ⟨7⟩ #[.null, .ref ⟨3⟩, .null],
    .seq ShapeId.untypedList #[.bool true]]
  tokens := 1

theorem copyable : pool.Copyable :=
  Pool.copyable_of_admits (by decide +kernel)

theorem takes_self {own : ShapeId} {known : Descriptor} (hb : pool.Below own own known) :
    pool.Takes own own :=
  ⟨own, known, hb, Or.inr rfl⟩

theorem takes_any (own : ShapeId) : pool.Takes ShapeId.any own :=
  ⟨_, _, ⟨rfl, rfl⟩, Or.inl rfl⟩

theorem plain_int {n : Int64} {place : ShapeId} (h : pool.Takes place ShapeId.int) :
    heap.Plain pool (.int n) place :=
  .primitive (p := .int) trivial h nofun

theorem plain_point : heap.Plain pool (.boxed ⟨0⟩ (.struct ⟨9⟩ [.int 1, .int 2])) ⟨10⟩ := by
  refine .struct rfl ⟨⟨9⟩, point, ⟨rfl, rfl⟩, Or.inr rfl⟩ rfl rfl rfl rfl fun i w m hw hm => ?_
  match i with
  | 0 | 1 =>
    cases hw
    cases hm
    exact plain_int (takes_self ⟨rfl, rfl⟩)
  | n + 2 => cases hw

theorem plain_tag : heap.Plain pool (.ref ⟨3⟩) ShapeId.any := by
  refine .seq rfl (takes_any _) rfl rfl nofun fun w hw => ?_
  obtain rfl := Array.mem_singleton.mp hw
  exact .primitive (p := .bool) trivial (takes_any _) nofun

theorem plain_child : heap.Plain pool (.ref ⟨2⟩) ⟨7⟩ := by
  refine .object rfl (takes_self ⟨rfl, rfl⟩) rfl rfl rfl rfl fun i w m hw hm => ?_
  match i with
  | 0 | 2 =>
    cases hw
    exact .null
  | 1 =>
    cases hw
    cases hm
    exact plain_tag
  | n + 3 => cases hw

theorem plain_children : heap.Plain pool (.ref ⟨1⟩) ⟨8⟩ := by
  refine .seq rfl (takes_self ⟨rfl, rfl⟩) rfl rfl nofun fun w hw => ?_
  simp only [List.mem_toArray, List.mem_cons, List.not_mem_nil, or_false] at hw
  rcases hw with rfl | rfl
  · exact plain_child
  · exact .null

theorem plain : heap.Plain pool (.ref ⟨0⟩) ⟨7⟩ := by
  refine .object rfl (takes_self ⟨rfl, rfl⟩) rfl rfl rfl rfl fun i w m hw hm => ?_
  match i with
  | 0 =>
    cases hw
    cases hm
    exact plain_point
  | 1 =>
    cases hw
    cases hm
    exact plain_int (takes_any _)
  | 2 =>
    cases hw
    cases hm
    exact plain_children
  | n + 3 => cases hw

end Tree

/-- A tree is duplicated. -/
theorem Session.Reachable.exists_duplicates_tree :
    ∃ r s', Session.getOrCompile ⟨0⟩ ⟨7⟩ ⟨7⟩ Mapping.initial
        (Session.opening Tree.operations Tree.heap) = .ok r s' ∧
      s'.heap = Tree.heap ∧ ∀ state, r.Duplicates s' (.ref ⟨0⟩) state := by
  have hpool : (Session.opening Tree.operations Tree.heap).pool = Tree.pool := Tree.pool_eq
  have hdescriptor : Tree.pool.descriptor ⟨7⟩ = .ok Tree.node := rfl
  have h := Session.reachable_opening Tree.operations Tree.heap (· = Mapping.initial)
  exact h.exists_duplicates rfl (fun m hm _ => hm ▸ Mapping.standard_initial) rfl
    (hpool ▸ Tree.copyable) (hpool ▸ hdescriptor) (hpool ▸ Tree.plain)

end Reshape
