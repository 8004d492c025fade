import Reshape.Proofs.Pool.Copyable
import Reshape.Proofs.Program.Emitted
import Reshape.Proofs.Routine.Compiled

/-!
# Routines that can be compiled

A standard mapping (`Mapping.Standard`) copies deep, matches members by name and has no converters.
Under it each member of a record fills itself (`NameRules.pairs_self`), and in a copyable pool there
is a routine from each shape to any that takes as much (`Mapping.Standard.exists_body`) : the zero
values and templates that its program asks for exist, and its locals are declared as they should be.
-/

namespace Reshape

/-! ## Standard mappings -/

/-- The mapping copies deep, matches members by their names, and has no converters. -/
structure Mapping.Standard (m : Mapping) : Prop where
  copyMode : m.copyMode = .deep
  rules : m.rules = NameRules.toRules {}
  converters : m.converters = []

theorem Mapping.standard_initial : Mapping.initial.Standard :=
  ⟨rfl, rfl, rfl⟩

theorem filterMap_eq_map_of_eq_some {α β : Type} {f : α → Option β} {g : α → β} {as : List α}
    (h : ∀ a ∈ as, f a = some (g a)) : as.filterMap f = as.map g := by
  induction as with
  | nil => rfl
  | cons a as ih =>
    rw [List.filterMap_cons_some (h a List.mem_cons_self), List.map_cons,
      ih fun b hb => h b (List.mem_cons_of_mem _ hb)]

/-- The place of a member is found by its name. -/
theorem NameRules.sourceIndex?_self {d : Descriptor} (hnames : (d.members.map Member.name).Nodup)
    (haccess : ∀ m ∈ d.members, m.access.readable = true) {i : Nat} {m : Member}
    (hm : d.members[i]? = some m) : sourceIndex? {} d m.name = some i := by
  have hfind : d.members.findIdx? (fun m' => m'.access.readable && m'.name == m.name) = some i := by
    obtain ⟨hlt, rfl⟩ := List.getElem?_eq_some_iff.mp hm
    refine List.findIdx?_eq_some_iff_getElem.mpr ⟨hlt, ?_, fun j hj => ?_⟩
    · simp [haccess _ (List.getElem_mem hlt)]
    · have hne : d.members[j].name ≠ d.members[i].name := by
        have hpair :=
          List.pairwise_iff_getElem.mp hnames j i (by simp; omega) (by simpa using hlt) hj
        simpa using hpair
      simp [hne]
  unfold sourceIndex?
  dsimp only
  rw [hfind]

/-- Each member of a record fills itself. -/
theorem NameRules.pairs_self {d : Descriptor} (hnames : (d.members.map Member.name).Nodup)
    (haccess : ∀ m ∈ d.members, m.access.readable = true ∧ m.access.writable = true) :
    pairs {} d d = (List.range d.members.length).map fun i => ⟨i, i⟩ := by
  have hplaces : d.members.zipIdx.map Prod.snd = List.range d.members.length := by
    rw [List.zipIdx_map_snd, List.range_eq_range']
  unfold pairs
  rw [← hplaces, List.map_map]
  refine filterMap_eq_map_of_eq_some ?_
  rintro ⟨m, i⟩ hp
  have hm := List.mem_zipIdx_iff_getElem?.mp hp
  have htakes : takes {} m = true := by simp [takes, (haccess m (List.mem_of_getElem? hm)).2]
  have hindex : sourceIndex? {} d (wanted {} m.name) = some i :=
    sourceIndex?_self hnames (fun m hm => (haccess m hm).1) hm
  dsimp only
  rw [if_pos htakes, hindex, Option.map_some]
  rfl

/-- Under a standard mapping, a record is filled member by member from another one of its shape. -/
theorem Mapping.Standard.existing_self {pool : Pool} {mapping : Mapping} (h : pool.Copyable)
    (hm : mapping.Standard) {shape : ShapeId} {known : Descriptor}
    (hknown : pool.descriptor shape = .ok known) (hkind : known.kind = .record) :
    mapping.rules.existing known known =
      (List.range known.members.length).map fun i => ⟨i, i⟩ := by
  unfold MemberRules.existing
  rw [hm.rules]
  change List.filter _ (NameRules.pairs {} known known) = _
  rw [NameRules.pairs_self (h.names _ _ hknown hkind) (h.access _ _ hknown hkind),
    List.filter_eq_self]
  intro pair hpair
  obtain ⟨i, hi, rfl⟩ := List.mem_map.mp hpair
  have hlt := List.mem_range.mp hi
  exact decide_eq_true ⟨hlt, hlt⟩

/-! ## Members -/

section

variable {pool : Pool} {mapping : Mapping}

/-- A member can be filled from one of the same shape. -/
theorem Mapping.exists_memberValue (hconverters : mapping.converters = []) {shape below : ShapeId}
    {known : Descriptor} (hb : pool.Below shape below known) (read current : Expr) :
    ∃ e, memberValue pool mapping read shape shape current = .ok e := by
  unfold memberValue
  simp only [converterFor_eq_none hconverters, hb.strip, hb.descriptor, Pool.orCompileError, bind,
    Except.bind]
  split
  · rename_i a b ha hb
    obtain rfl : a = b := Kind.primitive.inj (ha.symm.trans hb)
    exact ⟨read, if_pos rfl⟩
  · rename_i hany hprimitive
    cases hany.symm.trans hprimitive
  · rename_i hp hprimitive _
    exact (hprimitive _ hp).elim
  · split
    · exact ⟨_, rfl⟩
    · split
      · exact ⟨_, rfl⟩
      · exact ⟨_, rfl⟩

/-! ## Records -/

/-- The program that copies a record exists. -/
theorem Mapping.exists_recordProgram (h : pool.Copyable) (hm : mapping.Standard) {shape : ShapeId}
    {known : Descriptor} (hknown : pool.descriptor shape = .ok known)
    (hkind : known.kind = .record) :
    ∃ program, recordProgram pool mapping shape known shape known = .ok program := by
  have hpairs : mapping.rules.pairs known known =
      (List.range known.members.length).map fun i => ⟨i, i⟩ := by
    rw [hm.rules]
    exact NameRules.pairs_self (h.names _ _ hknown hkind) (h.access _ _ hknown hkind)
  have hwrite : ∀ pair ∈ mapping.rules.pairs known known, ∃ write?,
      memberWrite pool mapping shape known shape known pair = .ok write? := by
    rw [hpairs]
    intro pair hpair
    obtain ⟨i, hi, rfl⟩ := List.mem_map.mp hpair
    have hi := List.getElem?_eq_getElem (List.mem_range.mp hi)
    obtain ⟨known', hknown'⟩ := h.exists_descriptor_of_member hknown (List.mem_of_getElem? hi)
    obtain ⟨below, known', hbelow⟩ := h.exists_below hknown'
    obtain ⟨value, hvalue⟩ := exists_memberValue hm.converters hbelow
      (.readMember (.readLocal sourceLocal) shape i) (.readMember (.readLocal targetLocal) shape i)
    refine ⟨some (.writeMember targetLocal i value), ?_⟩
    unfold memberWrite
    simp only [hi]
    exact Except.bind_eq_ok_iff.mpr ⟨value, hvalue, rfl⟩
  obtain ⟨writes, hwrites⟩ := Except.exists_mapM_eq_ok hwrite
  exact ⟨_, Except.bind_eq_ok_iff.mpr
    ⟨_, Except.bind_eq_ok_iff.mpr ⟨writes, hwrites, rfl⟩, rfl⟩⟩

/-! ## Collections -/

/-- There is an origin for each shape. -/
theorem Pool.Copyable.exists_origin (h : pool.Copyable) {shape : ShapeId} {known : Descriptor}
    (hknown : pool.descriptor shape = .ok known) :
    ∃ origin : Origin, origin.For pool shape known := by
  cases htype : known.valueType with
  | true =>
    obtain ⟨zero, hzero⟩ := h.exists_zeroValue hknown
    exact ⟨.zero zero, .zero htype hzero⟩
  | false =>
    cases hconstructor : known.defaultConstructor with
    | true =>
      obtain ⟨t, ht⟩ := h.exists_template hknown htype hconstructor
      exact ⟨.template t, .template htype hconstructor ht⟩
    | false => exact ⟨.absent, .absent htype hconstructor⟩

/-- Instances of each shape can be made by a program. -/
theorem Pool.Copyable.exists_instanceProgram (h : pool.Copyable) (mapping : Mapping)
    {shape : ShapeId} {known : Descriptor} (hb : pool.Below shape shape known) :
    ∃ program, instanceProgram pool shape = .ok program ∧
      ∀ n, ∃ r, program.ready pool mapping n = .ok r := by
  have hprogram := hb.instanceProgram_eq
  refine ⟨_, hprogram, fun n => ?_⟩
  obtain ⟨origin, horigin⟩ := h.exists_origin hb.descriptor
  have hvalid := (instanceProgram_sound mapping hprogram).validate
  refine ⟨_, Program.ready_eq_ok_iff.mpr ⟨hvalid, .returns (origin.code ⟨0⟩), n, ?_, rfl⟩⟩
  exact ReadyM.bind_eq_ok_iff.mpr
    ⟨_, n, (Construction.ready_expr _).mpr ⟨origin, horigin, rfl⟩, rfl⟩

/-- Elements are stored in place or not. -/
theorem Pool.Copyable.exists_storesInline (h : pool.Copyable) {shape : ShapeId} {known : Descriptor}
    (hknown : pool.descriptor shape = .ok known) :
    ∃ inline, storesInline pool known.element? = .ok inline := by
  unfold Descriptor.element?
  cases hkind : known.kind with
  | collection family element =>
    cases element with
    | none => exact ⟨false, rfl⟩
    | some e =>
      obtain ⟨known', hknown'⟩ := h.exists_descriptor_of_element hknown hkind
      obtain ⟨below, known', hb⟩ := h.exists_below hknown'
      unfold storesInline
      simp only [hb.strip, hb.descriptor, Pool.orCompileError, bind, Except.bind]
      exact ⟨_, rfl⟩
  | _ => exact ⟨false, rfl⟩

/-- There is a plan for each collection that can be built, and it can be made ready. -/
theorem Pool.Copyable.exists_collectionPlan (h : pool.Copyable) {source target : ShapeId}
    (sourceShape : Descriptor) {targetShape : Descriptor}
    (ht : pool.Below target target targetShape) {kind : CollectionKind}
    (hkind : CollectionKind.ofDescriptor? targetShape = some kind) :
    ∃ plan, planCollection pool mapping source sourceShape target targetShape = .ok (some plan) ∧
      ∃ r, plan.ready pool mapping 0 = .ok r := by
  obtain ⟨inline, hinline⟩ := h.exists_storesInline ht.descriptor
  obtain ⟨construct, hconstruct, hready⟩ : ∃ construct, containerProgram pool kind target =
      .ok construct ∧ ∃ r, construct.mapM (Program.ready pool mapping) 0 = .ok r := by
    unfold containerProgram
    split
    · obtain ⟨program, hprogram, hready⟩ := h.exists_instanceProgram mapping ht
      obtain ⟨r, hr⟩ := hready 0
      refine ⟨some program, Except.map_eq_ok_iff.mpr ⟨program, hprogram, rfl⟩, ?_⟩
      exact ⟨_, Except.bind_eq_ok_iff.mpr ⟨r, hr, rfl⟩⟩
    · exact ⟨none, rfl, _, rfl⟩
  obtain ⟨⟨construct', n⟩, hconstruct'⟩ := hready
  unfold planCollection
  rw [hkind]
  refine ⟨_, Except.bind_eq_ok_iff.mpr ⟨inline, hinline,
    Except.bind_eq_ok_iff.mpr ⟨construct, hconstruct, rfl⟩⟩, ?_⟩
  obtain ⟨⟨path, n'⟩, hpath⟩ := ElementRoute.exists_ready (elementRoute kind mapping.copyMode
    (sourceElement source sourceShape) targetShape.element?) n
  exact ⟨_, ReadyM.bind_eq_ok_iff.mpr
    ⟨_, _, hconstruct', ReadyM.bind_eq_ok_iff.mpr ⟨_, _, hpath, rfl⟩⟩⟩

/-! ## Routines -/

/-- A program that answers what its expression makes of its arguments. -/
theorem Program.exists_ready_ofExpr {e : Expr} {n : Nat} (hcheck : e.check [] [] = .ok [])
    (hready : ∃ r, e.ready pool mapping n = .ok r) :
    ∃ r, (RoutinePlan.program (.ofExpr e)).ready pool mapping n = .ok r := by
  obtain ⟨⟨code, n'⟩, hcode⟩ := hready
  have hprogram : (Program.ofExpr e).ready pool mapping n = .ok (⟨.returns code, 0⟩, n') :=
    Program.ready_eq_ok_iff.mpr ⟨Except.bind_eq_ok_iff.mpr ⟨[], hcheck, rfl⟩, .returns code, n',
      ReadyM.bind_eq_ok_iff.mpr ⟨code, n', hcode, rfl⟩, rfl⟩
  exact ⟨_, ReadyM.bind_eq_ok_iff.mpr ⟨_, _, hprogram, rfl⟩⟩

/-- There is a plan from each shape to itself and to `any`, and it can be made ready. -/
theorem Mapping.Standard.exists_generatedPlan (h : pool.Copyable)
    (hpool : Pool.initial.GrowsTo pool)
    (hm : mapping.Standard) {source target : ShapeId} {sourceShape targetShape : Descriptor}
    (hs : pool.Below source source sourceShape) (ht : pool.Below target target targetShape)
    (hsame : targetShape.kind = .any ∨ source = target) :
    ∃ plan, generatedPlan pool mapping source target = .ok plan ∧
      ∃ r, plan.ready pool mapping 0 = .ok r := by
  have hargument (n : Nat) : (Expr.argument .source).ready pool mapping n =
      .ok (.argument .source, n) := rfl
  unfold generatedPlan
  simp only [hs.descriptor, ht.descriptor, Pool.orCompileError, bind, Except.bind]
  split
  · rename_i hcollection
    cases hkind : CollectionKind.ofDescriptor? targetShape with
    | none =>
      have hplan :
          planCollection pool mapping source sourceShape target targetShape = .ok none := by
        unfold planCollection
        rw [hkind]
        rfl
      rw [hplan]
      exact ⟨.unresolved, rfl, _, rfl⟩
    | some kind =>
      obtain ⟨plan, hplan, ⟨mapper, n⟩, hready⟩ := h.exists_collectionPlan sourceShape ht hkind
      rw [hplan]
      exact ⟨.collection plan, rfl, _, ReadyM.bind_eq_ok_iff.mpr ⟨mapper, n, hready, rfl⟩⟩
  · rename_i hcollection
    have hself (hany : targetShape.kind ≠ .any) : source = target ∧ sourceShape = targetShape := by
      obtain rfl := hsame.resolve_left hany
      exact ⟨rfl, (hs.unique ht).2.symm⟩
    split
    · refine ⟨_, rfl, ?_⟩
      unfold anyProgram
      rw [hm.copyMode]
      refine Program.exists_ready_ofExpr rfl ?_
      have hsent : (Expr.sent source source false false (.argument .source)
          (.argument .destination)).Readies pool mapping _ :=
        Expr.readies_sent false false hargument fun _ => rfl
      obtain ⟨code, n, hready, -⟩ := hsent 0
      exact ⟨_, hready⟩
    · rename_i hsource hany
      obtain ⟨rfl, rfl⟩ := hself hany
      exact absurd hsource hany
    · rename_i a b ha hb
      obtain ⟨rfl, rfl⟩ := hself (by simp [hb])
      rw [if_pos (Kind.primitive.inj (ha.symm.trans hb))]
      exact ⟨_, rfl, Program.exists_ready_ofExpr rfl ⟨_, hargument 0⟩⟩
    · rename_i hb _ hprimitive
      obtain ⟨rfl, rfl⟩ := hself (by simp [hb])
      exact (hprimitive _ hb).elim
    · rename_i hany hprimitive _
      obtain ⟨rfl, rfl⟩ := hself hany
      have hkind := ht.kind_eq_record hany hprimitive hcollection
      obtain ⟨program, hprogram⟩ := exists_recordProgram h hm hs.descriptor hkind
      rw [hprogram]
      obtain ⟨zero, hzero⟩ := h.exists_zeroValue hs.descriptor
      obtain ⟨origin, horigin⟩ := h.exists_origin hs.descriptor
      obtain ⟨⟨code, n⟩, hcode⟩ :=
        exists_ready_of_recordProgram hpool hprogram hzero hzero horigin 0
      have hvalid := (recordProgram_sound hprogram).validate
      exact ⟨_, rfl, _, ReadyM.bind_eq_ok_iff.mpr
        ⟨_, n, Program.ready_eq_ok_iff.mpr ⟨hvalid, code, n, hcode, rfl⟩, rfl⟩⟩

/-- There is a routine from each shape to any that takes as much. -/
theorem Mapping.Standard.exists_body (h : pool.Copyable) (hpool : Pool.initial.GrowsTo pool)
    (hm : mapping.Standard) {source target below : ShapeId} {known : Descriptor}
    (hs : pool.Below source below known) (hincludes : pool.Includes source target) :
    ∃ body, mapping.body pool source target = .ok body := by
  obtain ⟨below', known', ht, hcase⟩ := hincludes
  have hsame : known'.kind = .any ∨ below = below' := hcase.imp_right fun hs' => (hs'.unique hs).1
  obtain ⟨plan, hplan, ⟨body, n⟩, hready⟩ := exists_generatedPlan h hpool hm hs.self ht.self hsame
  have hwhole : mapping.plan pool source target = .ok plan := by
    unfold Mapping.plan converterProgram
    simp only [converterFor_eq_none hm.converters, Option.map_none, hs.strip, ht.strip,
      Pool.orCompileError, bind, Except.bind]
    exact hplan
  exact ⟨body, Except.bind_eq_ok_iff.mpr ⟨plan, hwhole,
    Except.map_eq_ok_iff.mpr ⟨(body, n), hready, rfl⟩⟩⟩

end

end Reshape
