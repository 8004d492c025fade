import Reshape.Proofs.Routine.Collecting
import Reshape.Proofs.Routine.Imaging
import Reshape.Proofs.Routine.Typing

/-!
# What shallow routines hand on

A shallow routine without converters answers the value that it is given if that passes as it is
into the shape below its target (`Pool.Passes`, `Routine.run_passes`) : a primitive into a primitive
of its own kind, and everything into a shape of the kind `any`. What it makes of anything else is no
instance that was there before (`Routine.run_renews`), not even where the value has the shape that
is asked for. `Routine.run_hands` says both at once.
-/

set_option linter.unusedSectionVars false

namespace Reshape

/-! ## Heaps that grow -/

/-- The converter takes no instance away, and changes none in its shape. -/
def Converter.Grows (c : Converter) : Prop :=
  ∀ (v state : Value) (heap : Heap), Contract.Grown heap (c.apply v state heap).2

namespace Contract

/-- Instances are never taken away, and keep their shapes. -/
def growth : Contract where
  allows m := m.converters = []
  inv _ := True
  later := Grown
  source _ _ _ := True
  target _ _ _ := True
  result _ _ _ := True
  filling start heap _ _ _ := Grown start heap
  building start heap _ _ := Grown start heap

/-- The same for mappings with converters. -/
def growing : Contract :=
  growth.about fun m => ∀ c ∈ m.converters, c.converter.Grows

section

variable (allows : Mapping → Prop)

theorem growth_soundValues (pool : Pool) : (growth.about allows).SoundValues pool where
  refl _ := .refl _
  trans := Grown.trans
  tokens _ _ := ⟨trivial, .refl _⟩
  source_later _ _ := trivial
  target_later _ _ := trivial
  result_later _ _ := trivial
  source_below _ _ := trivial
  source_own _ _ _ := trivial
  source_unboxed _ := trivial
  source_null := trivial
  target_null := trivial
  target_below _ _ := trivial
  result_null := trivial
  result_below _ _ := trivial
  result_any _ _ _ := trivial
  result_unboxed _ := trivial
  result_box _ := trivial

theorem growth_soundTransfers (pool : Pool) : (growth.about allows).SoundTransfers pool where
  primitive _ _ _ _ _ _ := trivial
  converted _ _ _ := trivial
  shared _ _ _ := trivial
  member _ _ _ _ _ := trivial

theorem grown_of_makes {pool : Pool} {shape : ShapeId} {known : Descriptor} {heap : Heap}
    {made : Value × Heap} (h : Origin.Makes pool shape known heap made) : Grown heap made.2 :=
  fun a i hi => ⟨id, by rw [h.kept a i hi]; cases i <;> rfl⟩

theorem growth_soundRecords (pool : Pool) : (growth.about allows).SoundRecords pool where
  origin _ ht ho := ⟨trivial, grown_of_makes (ho.makes ht.descriptor _)⟩
  fill_new _ _ ht _ ho _ := grown_of_makes (ho.makes ht.descriptor _)
  fill_supplied _ _ _ _ _ _ := .refl _
  fill_start hf := hf
  fill_later hf hl _ := Grown.trans hf hl
  fill_current _ _ _ _ _ := trivial
  fill_write _ _ _ hf _ := ⟨trivial, fun _ _ _ => trivial, Grown.trans hf (.writeMember _ _ _ _)⟩
  fill_done _ := trivial

theorem growth_soundCollections (pool : Pool) : (growth.about allows).SoundCollections pool where
  element _ _ _ _ _ := trivial
  verbatim _ _ _ _ _ _ := trivial
  new _ _ _ _ := ⟨trivial, .alloc _ _, trivial⟩
  build_new _ ht _ ho _ _ := grown_of_makes (ho.makes ht.descriptor _)
  build_supplied _ _ _ _ _ := .refl _
  build_start hb := hb
  build_later hb hl _ := Grown.trans hb hl
  build_push _ _ _ hb _ := ⟨trivial, fun _ _ _ => trivial, Grown.trans hb (.push _ _ _)⟩
  build_done _ := trivial

end

theorem growth_sound {pool : Pool} (hpool : Pool.initial.GrowsTo pool) : growth.Sound pool where
  grows := hpool
  converters hm := hm
  values := growth_soundValues growth.allows pool
  transfers := growth_soundTransfers growth.allows pool
  records := growth_soundRecords growth.allows pool
  collections := growth_soundCollections growth.allows pool

theorem growing_soundWith {pool : Pool} (hpool : Pool.initial.GrowsTo pool) (state : Value) :
    growing.SoundWith pool state where
  grows := hpool
  converters hm c hc _ _ _ _ _ _ := ⟨trivial, hm c hc _ _ _, fun _ _ => trivial⟩
  values := growth_soundValues _ pool
  transfers := growth_soundTransfers _ pool
  records := growth_soundRecords _ pool
  collections := growth_soundCollections _ pool

theorem Grown.shapes {start heap : Heap} (h : Grown start heap) :
    ∀ a i, start.get? a = some i → (heap.get? a).map Instance.shape = some i.shape := by
  intro a i hi
  obtain ⟨f, hf⟩ := h a i hi
  rw [hf, Option.map_some, Instance.shape_mapContents]

end Contract

/-! ## What is made anew -/

/-- The value refers to no instance of the heap. -/
def Value.NewTo (heap : Heap) (v : Value) : Prop :=
  ∀ a, v.bare = .ref a → heap.get? a = none

namespace Value.NewTo

variable {heap : Heap} {v : Value}

theorem null : Value.NewTo heap .null :=
  fun _ h => nomatch h

theorem of_primitive {p : Primitive} (h : v.IsPrimitive p) : v.NewTo heap := by
  intro a ha
  have hwithin : v.Within fun _ => False := h.within
  exact ((Value.Within.iff_of_bare ha).mp hwithin).elim

theorem placed (h : v.NewTo heap) (inline : Bool) : (Transfer.placed inline v).NewTo heap := by
  cases inline with
  | false => exact h
  | true => exact fun a ha => h a (v.bare_unboxed ▸ ha)

end Value.NewTo

/-- What an origin makes is new. -/
theorem Origin.Makes.newTo {pool : Pool} {shape : ShapeId} {known : Descriptor} {heap : Heap}
    {made : Value × Heap} (h : Makes pool shape known heap made) : made.1.NewTo heap := by
  cases h with
  | value hzero =>
    intro a ha
    have hwithin := Heap.within_box (Pool.within_of_zeroValue hzero fun _ => False) heap
    exact ((Value.Within.iff_of_bare ha).mp hwithin).elim
  | object _ _ _ | seq _ =>
    intro a ha
    obtain rfl := Value.ref.inj ha
    exact Heap.get?_size heap
  | null => exact .null

/-- If the computation ends with a value, that is no instance of the session that it starts from. -/
def RunM.Renews (s : Session) (x : RunM Value) : Prop :=
  Ensures x s (fun w _ => w.NewTo s.heap) fun _ _ => True

/-- What a primitive is converted into is no instance at all. -/
theorem RunM.convert_renews (s : Session) (v : Value) (p : Primitive) :
    RunM.Renews s (RunM.onHeapExcept .primitive (Heap.convert v p)) := by
  obtain ⟨-, hok⟩ := Heap.convert_spec v p s.heap
  unfold Renews Ensures onHeapExcept
  rcases hconvert : Heap.convert v p s.heap with ⟨e | w, heap⟩
  · trivial
  · rw [hconvert] at hok
    rcases hok w rfl with rfl | hprimitive
    · exact .null
    · exact .of_primitive hprimitive

section

variable {mappings : Mapping → Prop} {id : MappingId} {pool : Pool} {s : Session} {r : Routine}
  {depth : Nat} {frame : Frame} {invoke : Invoke} {p : Value → Prop}

/-- What a routine for two shapes that is found on the way makes of a value. -/
theorem Transfer.byLink_ensures (h : s.Serves mappings pool r)
    (hlinkage : frame.linkage = r.linkage) {link : Link} {v : Value} (reuse : Bool)
    (hnull : v = .null → p .null)
    (hrun : ∀ found s₁,
      s.Locates r link.source link.target (Session.resolve r.linkage link) found s₁ →
      s₁.Serves mappings pool found →
        Ensures (invoke found v .null frame.state) s₁ (fun w _ => p w) fun _ _ => True) :
    Ensures (byLink invoke frame link (return v) (reused reuse (return .null))) s (fun w _ => p w)
      fun _ _ => True := by
  have hreused : (reused reuse (return .null) : RunM Value) = return .null := by
    cases reuse <;> rfl
  unfold byLink
  rw [pure_bind, hreused, pure_bind, hlinkage]
  split
  · rename_i hv
    exact Ensures.pure (hnull (Value.isNull_iff.mp hv))
  · refine Ensures.bind ((h.locates_linked link).mono ?_ fun _ _ _ => trivial)
    rintro found s₁ ⟨hfound, hserves⟩
    exact hrun found s₁ hfound ⟨hserves.coherent, hserves.pool_eq, hfound.knows⟩

/-- What is sent on by its shape ends as the routine for that shape does ; null and what has no
shape become null. -/
theorem Transfer.byShape_ensures (h : s.Serves mappings pool r)
    (hlinkage : frame.linkage = r.linkage) {target : Option ShapeId} {v : Value} (reuse : Bool)
    (hnone : s.heap.shape? v = none → p .null)
    (hrun : ∀ own found s₁, s.heap.shape? v = some own →
      s.Locates r own (target.getD own)
        (Session.resolveDynamic r.linkage own (target.getD own)) found s₁ →
      s₁.Serves mappings pool found →
        Ensures (invoke found v .null frame.state) s₁ (fun w _ => p w) fun _ _ => True) :
    Ensures (byShape invoke frame target (return v) (reused reuse (return .null))) s
      (fun w _ => p w) fun _ _ => True := by
  have hreused : (reused reuse (return .null) : RunM Value) = return .null := by
    cases reuse <;> rfl
  unfold byShape
  rw [pure_bind, hreused]
  refine .of_eq (get_bind _ s) ?_
  cases hshape : s.heap.shape? v with
  | none => exact Ensures.pure (hnone hshape)
  | some own =>
    dsimp only
    rw [pure_bind, hlinkage]
    refine Ensures.bind ((h.locates_dynamic own (target.getD own)).mono ?_ fun _ _ _ => trivial)
    rintro found s₁ ⟨hfound, hserves⟩
    exact hrun own found s₁ hshape hfound ⟨hserves.coherent, hserves.pool_eq, hfound.knows⟩

theorem Transfer.placed_ensures {x : RunM Value} {q : Value → Prop}
    (h : Ensures x s (fun w _ => p w) fun _ _ => True) {inline : Bool}
    (hq : ∀ w, p w → q (placed inline w)) :
    Ensures (placed inline <$> x) s (fun w _ => q w) fun _ _ => True := by
  rw [map_eq_pure_bind]
  exact Ensures.bind (h.mono (fun w _ hw => Ensures.pure (hq w hw)) fun _ _ _ => trivial)

/-! ### Records -/

/-- The record stays the reference that it is, or none, whatever is written to its members. -/
theorem RecordForm.fillAll_bare (form : RecordForm) (source record : Value)
    (members : List MemberTransfer) :
    Ensures (form.fillAll invoke frame source record members) s
      (fun record' _ => ∀ a, record'.bare = .ref a → record.bare = .ref a) fun _ _ => True := by
  induction members generalizing s record with
  | nil => exact Ensures.pure fun _ ha => ha
  | cons m members ih =>
    rw [fillAll_cons]
    have hfill : Ensures (form.fill invoke frame source record m) s
        (fun record' _ => ∀ a, record'.bare = .ref a → record.bare = .ref a) fun _ _ => True :=
      Ensures.bind ((Ensures.trivial _ s).mono (fun _ _ _ _ => Heap.bare_writeMember)
        fun _ _ _ => trivial)
    refine Ensures.bind (hfill.mono ?_ fun _ _ _ => trivial)
    intro record' s₁ hrecord
    exact (ih record').mono (fun _ _ hrest a ha => hrecord a (hrest a ha)) fun _ _ _ => trivial

theorem RecordForm.renews {form : RecordForm} {known : Descriptor}
    (hknown : pool.descriptor form.target = .ok known)
    (horigin : form.origin.For pool form.target known) (hnone : frame.destination = .null) :
    RunM.Renews s (form.run invoke frame) := by
  unfold RecordForm.run
  split
  · exact Ensures.pure .null
  · have hnew := (horigin.makes hknown s.heap).newTo
    unfold destination
    rw [hnone]
    change Ensures (form.convert invoke frame _ (form.origin.make s.heap).1.unboxed)
      { s with heap := (form.origin.make s.heap).2 } _ _
    unfold convert
    split
    · exact Ensures.pure .null
    · refine Ensures.bind ((form.fillAll_bare _ _ _).mono ?_ fun _ _ _ => trivial)
      intro record s₁ hrecord
      have hresult : record.NewTo s.heap := fun a ha =>
        hnew a (by rw [← Value.bare_unboxed]; exact hrecord a ha)
      unfold result
      split
      · exact fun a ha => hresult a (by rw [← ha]; exact (record.bare_box s₁.heap).symm)
      · exact Ensures.pure hresult

/-! ### Collections -/

variable (hid : ∀ m, mappings m → m.id = id → m.converters = [])

include hid

/-- What routines are run within one under these mappings. -/
theorem Session.Serves.growing (h : s.Serves mappings pool r) (hkey : r.key.mapping = id)
    (hlinkage : frame.linkage = r.linkage) :
    Contract.growth.Held pool mappings s ∧
      Contract.Within .growth pool mappings (Routine.run depth) frame r := by
  obtain ⟨owner, howned⟩ := h.coherent
  have hsound : Contract.growth.Sound pool := Contract.growth_sound (h.pool_eq ▸ howned.pool)
  refine ⟨⟨h.coherent, h.pool_eq, trivial⟩, hlinkage, fun hheld hr hkey' => ?_⟩
  exact hsound.run_meets hid depth hheld hr (hkey'.trans hkey) frame.state

/-- A collection that is not supplied is made anew. -/
theorem CollectionMapper.For.renews {m : Mapping} (hm : m.converters = [])
    {source target : ShapeId} {sourceShape targetShape : Descriptor} {mapper : CollectionMapper}
    (hmapper : mapper.For pool m source target sourceShape targetShape)
    (ht : pool.Below target target targetShape) (h : s.Serves mappings pool r)
    (hkey : r.key.mapping = id) (hlinkage : frame.linkage = r.linkage)
    (hnone : frame.destination = .null) :
    RunM.Renews s (mapper.run (Routine.run depth) frame) := by
  obtain ⟨hheld, hwithin⟩ := h.growing hid hkey hlinkage
  obtain ⟨owner, howned⟩ := h.coherent
  have hsound : Contract.growth.Sound pool := Contract.growth_sound (h.pool_eq ▸ howned.pool)
  obtain ⟨family, element, hkind⟩ := CollectionKind.exists_collection_of_ofDescriptor? hmapper.kind
  have hwhole (items : List Value) : RunM.Renews s (do
      let items ← mapper.mapElements (Routine.run depth) frame items
      RunM.onHeap (Heap.alloc (.seq mapper.target items.toArray))) := by
    have hgives : Contract.growth.Gives pool mappings s
        (mapper.mapElements (Routine.run depth) frame items) _ :=
      Contract.mapElements_gives (hsound.with _) hwithin hm ht hmapper hkind h.knows hheld
        fun _ _ => trivial
    refine Ensures.bind (Ensures.mono hgives ?_ fun _ _ _ => trivial)
    rintro items s₁ ⟨hleads, -⟩ a ha
    obtain rfl := Value.ref.inj ha
    exact Heap.get?_eq_none_iff.mpr (Heap.size_le_of_shapes hleads.later.shapes)
  unfold CollectionMapper.run
  split
  · exact Ensures.pure .null
  · cases hk : mapper.kind with
    | array | typedList | untypedList => exact hwhole _
    | genericInsertable =>
      have hcontainer : Ensures (mapper.container? (Routine.run depth) frame) s
          (fun a? _ => ∀ a, a? = some a → s.heap.get? a = none) fun _ _ => True := by
        unfold Ensures
        rw [hmapper.container?_eq hk ht hnone]
        by_cases hmade : targetShape.valueType = false ∧ targetShape.defaultConstructor = true
        · rw [if_pos hmade]
          rintro a ⟨⟩
          exact Heap.get?_size s.heap
        · rw [if_neg hmade]
          exact nofun
      refine Ensures.bind (hcontainer.mono ?_ fun _ _ _ => trivial)
      intro a? s₁ ha?
      cases a? with
      | none => exact Ensures.pure Value.NewTo.null
      | some a =>
        refine Ensures.bind ((Ensures.trivial _ _).mono ?_ fun _ _ _ => trivial)
        intro _ s₂ _
        refine Ensures.bind ((Ensures.trivial _ _).mono ?_ fun _ _ _ => trivial)
        exact fun _ s₃ _ => Ensures.pure fun b hb => ha? b (congrArg some (Value.ref.inj hb))

end

/-! ## What passes -/

/-- Values of the first shape pass for values of the second as they are. -/
def Pool.Passes (pool : Pool) (source target : ShapeId) : Prop :=
  ∃ below known below' known', pool.Below source below known ∧ pool.Below target below' known' ∧
    (known'.kind = .any ∨ ∃ p, known'.kind = .primitive p ∧
      (known.kind = .any ∨ known.kind = .primitive p))

/-- To look at the shape of a value makes no difference to whether it passes. -/
theorem Pool.passes_any_iff {pool : Pool} (hpool : Pool.initial.GrowsTo pool)
    {own target below : ShapeId} {known : Descriptor} (hown : pool.Below own below known)
    (htakes : pool.Takes target own) :
    pool.Passes ShapeId.any target ↔ pool.Passes own target := by
  constructor
  · rintro ⟨_, _, below', known', -, ht, hany | ⟨p, hp, -⟩⟩
    · exact ⟨_, _, _, _, hown, ht, Or.inl hany⟩
    · obtain rfl := htakes.eq ht (by simp [hp])
      exact ⟨_, _, _, _, ht.self, ht, Or.inr ⟨p, hp, Or.inr hp⟩⟩
  · rintro ⟨_, _, _, _, -, ht, hcase⟩
    exact ⟨_, _, _, _, .any hpool, ht, hcase.imp_right fun ⟨p, hp, _⟩ => ⟨p, hp, Or.inl rfl⟩⟩

/-- Without converters, a shallow routine into a shape of the kind `any` answers its source. -/
theorem Mapping.run_into_any {pool : Pool} {mapping : Mapping} (hmode : mapping.copyMode = .shallow)
    (hconverters : mapping.converters = []) {source target below : ShapeId} {known : Descriptor}
    {body : Body} (h : mapping.body pool source target = .ok body)
    (ht : pool.Below target below known) (hany : known.kind = .any) (invoke : Invoke)
    (frame : Frame) : body.run invoke frame = return frame.source := by
  obtain ⟨plan, hplan, h⟩ := Except.bind_eq_ok_iff.mp h
  obtain ⟨⟨_, n⟩, hready, heq⟩ := Except.map_eq_ok_iff.mp h
  cases heq
  unfold Mapping.plan converterProgram at hplan
  simp only [converterFor_eq_none hconverters, Option.map_none] at hplan
  obtain ⟨_, -, hplan⟩ := Except.bind_eq_ok_iff.mp hplan
  obtain ⟨_, htarget, hplan⟩ := Except.bind_eq_ok_iff.mp hplan
  rw [Pool.orCompileError_eq_ok_iff, ht.strip] at htarget
  cases htarget
  unfold generatedPlan at hplan
  obtain ⟨_, -, hplan⟩ := Except.bind_eq_ok_iff.mp hplan
  obtain ⟨_, hknown, hplan⟩ := Except.bind_eq_ok_iff.mp hplan
  rw [Pool.orCompileError_eq_ok_iff, ht.descriptor] at hknown
  cases hknown
  simp only [Descriptor.isCollection, hany, Bool.false_eq_true, if_false, anyProgram, hmode]
    at hplan
  cases hplan
  obtain ⟨_, rfl, hrun⟩ := Program.exists_transfer_of_ofExpr (p := (· = .same))
    (fun n => ⟨_, n, rfl, .same, rfl, trivial, rfl⟩) hready
  exact hrun invoke frame

section

variable {mappings : Mapping → Prop} {id : MappingId} {pool : Pool} {s : Session} {r : Routine}

/-- The form that a routine without converters is run as. -/
theorem Session.Serves.exists_form (h : s.Serves mappings pool r)
    (hid : ∀ m, mappings m → m.id = id → m.converters = []) (hkey : r.key.mapping = id) :
    ∃ below sourceShape below' targetShape form, pool.Below r.key.source below sourceShape ∧
      pool.Below r.key.target below' targetShape ∧ r.linkage.mapping.converters = [] ∧
      Form.For pool r.linkage.mapping below below' sourceShape targetShape form ∧
      ∀ depth v d state, r.run (depth + 1) v d state =
        form.run (Routine.run depth) ⟨v, d, state, r.linkage⟩ := by
  obtain ⟨owner, howned⟩ := h.coherent
  obtain ⟨-, -, hmapping, hmade⟩ := howned.madeIn h.knows
  have hconverters := hid _ hmapping (hmade.mapping.symm.trans hkey)
  have hpool := howned.pool
  rw [h.pool_eq] at hmade hpool
  obtain ⟨below, sourceShape, below', targetShape, hs, ht, form, hrun, hform⟩ :=
    Mapping.exists_form hpool hconverters hmade.body
  refine ⟨below, sourceShape, below', targetShape, form, hs, ht, hconverters, hform, ?_⟩
  intro depth v d state
  rw [Routine.run_succ, hrun]

variable (hid : ∀ m, mappings m → m.id = id → m.converters = [])

include hid

/-- Into a record or a collection, nothing passes. -/
theorem Routine.run_renews_of_kind {below : ShapeId} {known : Descriptor}
    (hany : known.kind ≠ .any) (hprimitive : ∀ p, known.kind ≠ .primitive p) (depth : Nat)
    (h : s.Serves mappings pool r) (hkey : r.key.mapping = id)
    (ht : pool.Below r.key.target below known) (v state : Value) :
    RunM.Renews s (r.run depth v .null state) := by
  induction depth generalizing s r with
  | zero => exact Ensures.throw trivial
  | succ depth ih =>
    obtain ⟨_, sourceShape, below', known', form, hs, ht', hconverters, hform, hrun⟩ :=
      h.exists_form hid hkey
    obtain ⟨rfl, rfl⟩ := ht.unique ht'
    have hfound {search : RunM Routine} {found : Routine} {s₁ : Session} {source target : ShapeId}
        (htarget : pool.Below target below' known') (hl : s.Locates r source target search found s₁)
        (hserves : s₁.Serves mappings pool found) :
        Ensures (found.run depth v .null state) s₁ (fun w _ => w.NewTo s.heap) fun _ _ => True := by
      rw [← hl.heap]
      exact ih hserves (by rw [hl.key]; exact hkey) (by rw [hl.key]; exact htarget)
    rw [hrun]
    cases hform with
    | transfer _ hcase hcarries =>
      have hsource : sourceShape.kind = .any := by
        rcases hcase with hsource | hkind | ⟨p, hkind⟩
        · exact hsource
        · exact absurd hkind hany
        · exact absurd hkind (hprimitive p)
      cases hcarries with
      | primitive _ hkind | convert _ hkind _ _ => exact absurd hkind (hprimitive _)
      | shared _ _ hshared =>
        rcases hshared with rfl | hkind
        · obtain ⟨-, rfl⟩ := hs.self.unique ht'.self
          exact absurd hsource hany
        · exact absurd hkind hany
      | linked _ _ _ =>
        exact Transfer.placed_ensures (Transfer.byLink_ensures h rfl _ (fun _ => .null)
          fun _ _ hl hserves => hfound ht.self hl hserves) fun _ hw => hw.placed _
      | dynamic _ _ =>
        exact Transfer.placed_ensures (Transfer.byShape_ensures h rfl _ (fun _ => .null)
          fun _ _ _ _ hl hserves => hfound ht.self hl hserves) fun _ hw => hw.placed _
      | copied _ hkind | copiedByShape _ hkind => exact absurd hkind hany
    | @record form _ _ hrecord =>
      rw [← hrecord.target_eq] at ht'
      exact RecordForm.renews ht'.descriptor (hrecord.target_eq ▸ hrecord.origin) rfl
    | collection hmapper => exact hmapper.renews hid hconverters ht.self h hkey rfl rfl
    | unresolved _ _ => exact Ensures.pure Value.NewTo.null

/-- Primitives of one kind pass. -/
theorem Routine.run_primitive {below below' : ShapeId} {known known' : Descriptor} {p : Primitive}
    (hs : pool.Below r.key.source below known) (hsource : known.kind = .primitive p)
    (ht : pool.Below r.key.target below' known') (htarget : known'.kind = .primitive p)
    (depth : Nat) (h : s.Serves mappings pool r) (hkey : r.key.mapping = id) (v d state : Value) :
    Ensures (r.run depth v d state) s (fun w _ => w = v) fun _ _ => True := by
  cases depth with
  | zero => exact Ensures.throw trivial
  | succ depth =>
    obtain ⟨_, _, _, _, form, hs', ht', -, hform, hrun⟩ := h.exists_form hid hkey
    obtain ⟨rfl, rfl⟩ := hs.unique hs'
    obtain ⟨rfl, rfl⟩ := ht.unique ht'
    obtain ⟨t, rfl, hcarries⟩ := hform.exists_transfer (.inr ⟨p, htarget⟩)
    rw [hrun]
    rcases hcarries.into_primitive htarget with ⟨-, rfl⟩ | ⟨q, hne, hq, -⟩ | ⟨hany, -⟩
    · exact Ensures.pure rfl
    · exact absurd (Kind.primitive.inj (hq.symm.trans hsource)) hne
    · cases hany.symm.trans hsource

end

section

variable {mappings : Mapping → Prop} {id : MappingId} {pool : Pool} {s : Session} {r : Routine}
  (hid : ∀ m, mappings m → m.id = id → m.copyMode = .shallow ∧ m.converters = [])
  (h : s.Serves mappings pool r) (hkey : r.key.mapping = id)

include hid h hkey

/-- Everything passes into a shape of the kind `any`. -/
theorem Routine.run_into_any {below : ShapeId} {known : Descriptor}
    (ht : pool.Below r.key.target below known) (hany : known.kind = .any) (depth : Nat)
    (v d state : Value) :
    Ensures (r.run depth v d state) s (fun w _ => w = v) fun _ _ => True := by
  cases depth with
  | zero => exact Ensures.throw trivial
  | succ depth =>
    obtain ⟨owner, howned⟩ := h.coherent
    obtain ⟨-, -, hmapping, hmade⟩ := howned.madeIn h.knows
    obtain ⟨hmode, hconverters⟩ := hid _ hmapping (hmade.mapping.symm.trans hkey)
    rw [h.pool_eq] at hmade
    rw [Routine.run_succ, Mapping.run_into_any hmode hconverters hmade.body ht hany]
    exact Ensures.pure rfl

variable {v : Value} {own : ShapeId} (hown : s.heap.shape? v = some own)
  (htakes : pool.Takes r.key.target own)

include hown htakes

/-- What passes is what the routine answers, perhaps out of its box. -/
theorem Routine.run_passes (hpasses : pool.Passes r.key.source r.key.target) (depth : Nat)
    (state : Value) :
    Ensures (r.run depth v .null state) s (fun w _ => w = v ∨ w = v.unboxed) fun _ _ => True := by
  have hnone (m : Mapping) (hm : mappings m) (heq : m.id = id) : m.converters = [] :=
    (hid m hm heq).2
  obtain ⟨below, known, below', known', hs, ht, hany | ⟨p, hp, hsource⟩⟩ := hpasses
  · exact (Routine.run_into_any hid h hkey ht hany depth v .null state).mono
      (fun _ _ hw => Or.inl hw) fun _ _ _ => trivial
  rcases hsource with hany | hp'
  · -- The routine looks at the shape of the value, and that is the one below the target.
    obtain rfl := htakes.eq ht (by simp [hp])
    cases depth with
    | zero => exact Ensures.throw trivial
    | succ depth =>
      obtain ⟨_, _, _, _, form, hs', ht', -, hform, hrun⟩ := h.exists_form hnone hkey
      obtain ⟨rfl, rfl⟩ := hs.unique hs'
      obtain ⟨rfl, rfl⟩ := ht.unique ht'
      obtain ⟨t, rfl, hcarries⟩ := hform.exists_transfer (.inr ⟨p, hp⟩)
      rw [hrun]
      rcases hcarries.into_primitive hp with ⟨hq, -⟩ | ⟨q, -, hq, -⟩ | ⟨-, reuse, inline, rfl⟩
      · cases hany.symm.trans hq
      · cases hany.symm.trans hq
      · refine Transfer.placed_ensures
          (Transfer.byShape_ensures (p := (· = v)) h rfl reuse ?_ ?_) ?_
        · exact fun hshape => nomatch hown.symm.trans hshape
        · intro own' found s₁ hshape hl hserves
          obtain rfl := Option.some.inj (hown.symm.trans hshape)
          exact Routine.run_primitive hnone (by rw [hl.key]; exact ht.self) hp
            (by rw [hl.key]; exact ht.self) hp depth hserves (by rw [hl.key]; exact hkey) v .null
            state
        · rintro w rfl
          cases inline with
          | false => exact Or.inl rfl
          | true => exact Or.inr rfl
  · exact (Routine.run_primitive hnone hs hp' ht hp depth h hkey v .null state).mono
      (fun _ _ hw => Or.inl hw) fun _ _ _ => trivial

/-- What does not pass is made anew. -/
theorem Routine.run_renews (hpasses : ¬pool.Passes r.key.source r.key.target) (depth : Nat)
    (state : Value) : RunM.Renews s (r.run depth v .null state) := by
  have hnone (m : Mapping) (hm : mappings m) (heq : m.id = id) : m.converters = [] :=
    (hid m hm heq).2
  cases depth with
  | zero => exact Ensures.throw trivial
  | succ depth =>
    obtain ⟨_, sourceShape, _, targetShape, form, hs, ht, -, hform, hrun⟩ :=
      h.exists_form hnone hkey
    by_cases hprimitive : ∃ p, targetShape.kind = .primitive p
    · obtain ⟨p, hp⟩ := hprimitive
      obtain ⟨t, rfl, hcarries⟩ := hform.exists_transfer (.inr ⟨p, hp⟩)
      rw [hrun]
      rcases hcarries.into_primitive hp with ⟨hq, -⟩ | ⟨q, -, hq, rfl⟩ | ⟨hany, -⟩
      · exact absurd ⟨_, _, _, _, hs, ht, Or.inr ⟨p, hp, Or.inr hq⟩⟩ hpasses
      · exact RunM.convert_renews s v p
      · exact absurd ⟨_, _, _, _, hs, ht, Or.inr ⟨p, hp, Or.inl hany⟩⟩ hpasses
    · refine Routine.run_renews_of_kind hnone (fun hany => hpasses ?_)
        (fun p hp => hprimitive ⟨p, hp⟩) (depth + 1) h hkey ht v state
      exact ⟨_, _, _, _, hs, ht, Or.inl hany⟩

omit hown htakes

/-- What a routine from the one shape into the other makes of a value. -/
structure Value.Handed (pool : Pool) (heap : Heap) (source target : ShapeId) (v w : Value) :
    Prop where
  untyped {below : ShapeId} {known : Descriptor} (ht : pool.Below target below known)
    (hany : known.kind = .any) : w = v
  passed {a : Address} {i : Instance} (ha : v = .ref a) (hi : heap.get? a = some i)
    (htakes : pool.Takes target i.shape) (hpasses : pool.Passes source target) : w = v
  renewed {a : Address} {i : Instance} (ha : v = .ref a) (hi : heap.get? a = some i)
    (htakes : pool.Takes target i.shape) (hpasses : ¬pool.Passes source target) : w.NewTo heap

/-- What a shallow routine answers is handed on from its source, or made anew. -/
theorem Routine.run_hands (depth : Nat) (v state : Value) :
    Ensures (r.run depth v .null state) s
      (fun w _ => v.Handed pool s.heap r.key.source r.key.target w) fun _ _ => True := by
  have huntyped : Ensures (r.run depth v .null state) s (fun w _ => ∀ below known,
      pool.Below r.key.target below known → known.kind = .any → w = v) fun _ _ => True := by
    by_cases hany : ∃ below known, pool.Below r.key.target below known ∧ known.kind = .any
    · obtain ⟨below, known, ht, hany⟩ := hany
      exact (Routine.run_into_any hid h hkey ht hany depth v .null state).mono
        (fun _ _ hw _ _ _ _ => hw) fun _ _ _ => trivial
    · exact (Ensures.trivial _ s).mono
        (fun _ _ _ below known ht hkind => absurd ⟨below, known, ht, hkind⟩ hany)
        fun _ _ _ => trivial
  have hinstance : Ensures (r.run depth v .null state) s (fun w _ => ∀ a i, v = .ref a →
      s.heap.get? a = some i → pool.Takes r.key.target i.shape →
        (pool.Passes r.key.source r.key.target → w = v) ∧
        (¬pool.Passes r.key.source r.key.target → w.NewTo s.heap)) fun _ _ => True := by
    by_cases hv : ∃ a i, v = .ref a ∧ s.heap.get? a = some i ∧ pool.Takes r.key.target i.shape
    · obtain ⟨a, i, rfl, hi, htakes⟩ := hv
      have hown : s.heap.shape? (.ref a) = some i.shape := congrArg (Option.map _) hi
      by_cases hpasses : pool.Passes r.key.source r.key.target
      · refine (Routine.run_passes hid h hkey hown htakes hpasses depth state).mono ?_
          fun _ _ _ => trivial
        exact fun w _ hw _ _ _ _ _ => ⟨fun _ => or_self_iff.mp hw, fun hnot => absurd hpasses hnot⟩
      · refine (Routine.run_renews hid h hkey hown htakes hpasses depth state).mono ?_
          fun _ _ _ => trivial
        exact fun w _ hw _ _ _ _ _ => ⟨fun hyes => absurd hyes hpasses, fun _ => hw⟩
    · exact (Ensures.trivial _ s).mono
        (fun _ _ _ a i ha hi htakes => absurd ⟨a, i, ha, hi, htakes⟩ hv) fun _ _ _ => trivial
  refine (huntyped.and hinstance).mono ?_ fun _ _ _ => trivial
  rintro w - ⟨huntyped, hinstance⟩
  exact ⟨fun ht hany => huntyped _ _ ht hany,
    fun ha hi htakes hpasses => (hinstance _ _ ha hi htakes).1 hpasses,
    fun ha hi htakes hpasses => (hinstance _ _ ha hi htakes).2 hpasses⟩

end

end Reshape
