import Reshape.Proofs.Routine.Handing

/-!
# What collections share

Under a shallow mapping a collection may hold the very elements of its source. Whether it takes all
elements as they are is decided once, by the two declared shapes, before anything is known of the
elements (`CollectionPlan.Aliases`). Where it does not, each element goes through a routine, and is
the same instance afterwards only if that routine hands it on. So an element may be made anew
although it has the shape that is asked for : one of a list that declares nothing, or one whose
declared shape is nullable.
-/

set_option linter.unusedSectionVars false

namespace Reshape

/-! ## Elements -/

/-- A shallow mapping takes elements of the one declared shape as they are into a collection that
declares the other. Nothing but the two shapes themselves is compared, nullable or not. -/
def CollectionPlan.Aliases (plan : CollectionPlan) (source target : ShapeId) : Prop :=
  plan.kind = .untypedList ∨ plan.kind = .genericInsertable ∨ source = target ∨
    target = ShapeId.any

/-- Elements that are not taken as they are go through a routine into their declared shape. -/
inductive CollectionPlan.Sends (plan : CollectionPlan) (source target : ShapeId) : Prop
  | verbatim (h : plan.Aliases source target) (hroute : plan.route = .verbatim)
  | static (h : ¬plan.Aliases source target) (hroute : plan.route = .static source target)
  | dynamic (h : ¬plan.Aliases source target) (hany : source = ShapeId.any)
    (hroute : plan.route = .dynamic (some target))

theorem CollectionPlan.Sends.route_of_aliases {plan : CollectionPlan} {source target : ShapeId}
    (h : plan.Sends source target) (haliases : plan.Aliases source target) :
    plan.route = .verbatim := by
  cases h with
  | verbatim _ hroute => exact hroute
  | «static» hnot _ | dynamic hnot _ _ => exact absurd haliases hnot

/-- In shallow mode, a route sends elements from the one element shape to the other. -/
theorem CollectionPlan.sends_of_route {plan : CollectionPlan} {source : ShapeId}
    {element : Option ShapeId}
    (h : plan.route = elementRoute plan.kind .shallow source element) :
    plan.Sends source (element.getD ShapeId.any) := by
  have hdeclared (hlist : plan.kind ≠ .untypedList) (hgeneric : plan.kind ≠ .genericInsertable)
      {target : ShapeId} (hroute : plan.route =
        if source = target ∨ target = ShapeId.any then .verbatim
        else if source = ShapeId.any then
          .dynamic (if target = ShapeId.any then none else some target)
        else .static source target) : plan.Sends source target := by
    by_cases hshared : source = target ∨ target = ShapeId.any
    · rw [if_pos hshared] at hroute
      exact .verbatim (Or.inr (Or.inr hshared)) hroute
    · have hnot : ¬plan.Aliases source target := by
        rintro (hk | hk | h)
        · exact hlist hk
        · exact hgeneric hk
        · exact hshared h
      rw [if_neg hshared, if_neg fun hany => hshared (Or.inr hany)] at hroute
      split at hroute
      · rename_i hany
        exact .dynamic hnot hany hroute
      · exact .static hnot hroute
  cases hk : plan.kind with
  | untypedList =>
    rw [hk] at h
    exact .verbatim (Or.inl hk) h
  | genericInsertable =>
    rw [hk] at h
    exact .verbatim (Or.inr (Or.inl hk)) h
  | array | typedList =>
    refine hdeclared (by simp [hk]) (by simp [hk]) ?_
    rw [h, elementRoute_of_whole (by simp [hk])]
    simp only [true_and]

theorem Mapping.sends_of_plan {pool : Pool} {mapping : Mapping} {from' into source target : ShapeId}
    {plan : CollectionPlan} (hmode : mapping.copyMode = .shallow)
    (hplan : mapping.plan pool from' into = .ok (.collection plan))
    (h : plan.ElementShapes pool from' source target) : plan.Sends source target := by
  obtain ⟨element?, rfl, hroute⟩ := route_of_plan hplan h
  exact CollectionPlan.sends_of_route (hmode ▸ hroute)

/-- A routine that goes by the shape of the value makes of it what one for `any` makes of it. -/
theorem Value.Handed.of_own {pool : Pool} (hpool : Pool.initial.GrowsTo pool) {heap : Heap}
    {own target below : ShapeId} {known : Descriptor} {v w : Value}
    (h : v.Handed pool heap own target w) (hown : heap.shape? v = some own)
    (hbelow : pool.Below own below known) : v.Handed pool heap ShapeId.any target w := by
  have hiff {a : Address} {i : Instance} (ha : v = .ref a) (hi : heap.get? a = some i)
      (htakes : pool.Takes target i.shape) :
      pool.Passes ShapeId.any target ↔ pool.Passes own target := by
    subst ha
    rw [Heap.shape?, hi] at hown
    obtain rfl := Option.some.inj hown
    exact pool.passes_any_iff hpool hbelow htakes
  exact ⟨h.untyped, fun ha hi ht hp => h.passed ha hi ht ((hiff ha hi ht).mp hp),
    fun ha hi ht hp => h.renewed ha hi ht fun hyes => hp ((hiff ha hi ht).mpr hyes)⟩

/-- What becomes of an element `x` of a collection, and when it is still the same instance. -/
structure CollectionPlan.Shares (plan : CollectionPlan) (pool : Pool) (heap : Heap)
    (source target : ShapeId) (x y : Value) : Prop where
  aliased (h : plan.Aliases source target) : y = x
  untyped {below : ShapeId} {known : Descriptor} (ht : pool.Below target below known)
    (hany : known.kind = .any) (htype : known.valueType = false)
    (hx : x = .null ∨ heap.shape? x ≠ none) : y = x
  same {a : Address} {i : Instance} (ha : x = .ref a) (hi : heap.get? a = some i)
    (htakes : pool.Takes target i.shape) :
    y.sameInstance x = true ↔ plan.Aliases source target ∨ pool.Passes source target

/-- The elements `ys` are what becomes of the elements `xs`, each at its own position. -/
def CollectionPlan.SharesAll (plan : CollectionPlan) (pool : Pool) (heap : Heap)
    (source target : ShapeId) (xs ys : List Value) : Prop :=
  ys.length = xs.length ∧ ∀ (i : Nat) (x y : Value), xs[i]? = some x → ys[i]? = some y →
    plan.Shares pool heap source target x y

section

variable {plan : CollectionPlan} {pool : Pool} {heap : Heap} {source target : ShapeId} {x y : Value}
  {xs ys : List Value}

theorem CollectionPlan.SharesAll.nil : plan.SharesAll pool heap source target [] [] :=
  ⟨rfl, fun _ _ _ hx _ => nomatch hx⟩

theorem CollectionPlan.SharesAll.cons (h : plan.Shares pool heap source target x y)
    (hs : plan.SharesAll pool heap source target xs ys) :
    plan.SharesAll pool heap source target (x :: xs) (y :: ys) := by
  refine ⟨congrArg Nat.succ hs.1, fun i x' y' hx hy => ?_⟩
  cases i with
  | zero =>
    cases hx
    cases hy
    exact h
  | succ i => exact hs.2 i x' y' hx hy

/-- Instances that are changed or made later make no difference. -/
theorem CollectionPlan.Shares.of_grown {start : Heap} (h : plan.Shares pool heap source target x y)
    (hgrown : Contract.Grown start heap) : plan.Shares pool start source target x y := by
  refine ⟨h.aliased, fun ht hany htype hx => h.untyped ht hany htype (hx.imp_right fun hne => ?_),
    fun ha hi htakes => ?_⟩
  · obtain ⟨own, hown⟩ := Option.ne_none_iff_exists'.mp hne
    simp [Heap.shape?_eq_of_shapes hgrown.shapes hown]
  · obtain ⟨f, hf⟩ := hgrown _ _ hi
    exact h.same ha hf ((Instance.shape_mapContents f _).symm ▸ htakes)

theorem CollectionPlan.Shares.of_aliases (h : plan.Aliases source target) :
    plan.Shares pool heap source target x x := by
  refine ⟨fun _ => rfl, fun _ _ _ _ => rfl, ?_⟩
  rintro a - rfl - -
  exact iff_of_true (BEq.rfl (a := a)) (Or.inl h)

theorem CollectionPlan.SharesAll.of_aliases (h : plan.Aliases source target) :
    plan.SharesAll pool heap source target xs xs := by
  refine ⟨rfl, fun i x y hx hy => ?_⟩
  obtain rfl := Option.some.inj (hx.symm.trans hy)
  exact .of_aliases h

/-- What was handed on is shared, and is put in place as it came. -/
theorem Value.Handed.shares {inline : Bool} (h : x.Handed pool heap source target y)
    (haliases : ¬plan.Aliases source target)
    (hinline : ∀ below known, pool.Below target below known → known.valueType = false →
      inline = false) :
    plan.Shares pool heap source target x (Transfer.placed inline y) := by
  refine ⟨fun hyes => absurd hyes haliases, fun ht hany htype _ => ?_, ?_⟩
  · rw [hinline _ _ ht htype, h.untyped ht hany]
    rfl
  · rintro a i rfl hi htakes
    rw [or_iff_right haliases]
    by_cases hpasses : pool.Passes source target
    · obtain rfl := h.passed rfl hi htakes hpasses
      refine iff_of_true ?_ hpasses
      cases inline <;> exact BEq.rfl (a := a)
    · refine iff_of_false (fun hsame => ?_) hpasses
      have hnew := (h.renewed rfl hi htakes hpasses).placed inline
      generalize Transfer.placed inline y = w at hsame hnew
      cases w with
      | ref b =>
        obtain rfl : b = a := eq_of_beq hsame
        cases (hnew b rfl).symm.trans hi
      | _ => cases hsame

end

section

variable {mappings : Mapping → Prop} {id : MappingId} {pool : Pool} {s : Session} {r : Routine}
  {plan : CollectionPlan} {mapper : CollectionMapper} {source target : ShapeId} {depth : Nat}
  {frame : Frame}
  (hid : ∀ m, mappings m → m.id = id → m.copyMode = .shallow ∧ m.converters = [])
  (hkey : r.key.mapping = id) (hlinkage : frame.linkage = r.linkage)
  (hm : mapper.Realizes pool plan) (hsends : plan.Sends source target)
  (hinline : ∀ below known, pool.Below target below known → known.valueType = false →
    mapper.inlineElements = false)

include hid hkey hlinkage hm hsends hinline

/-- An element of the collection shares with the one it came from what its two shapes allow. -/
theorem CollectionMapper.Realizes.mapElement_shares (h : s.Serves mappings pool r) (x : Value) :
    Ensures (mapper.mapElement (Routine.run depth) frame x) s
      (fun y _ => plan.Shares pool s.heap source target x y)
      fun _ _ => ¬plan.Aliases source target := by
  obtain ⟨owner, howned⟩ := h.coherent
  have hpool : Pool.initial.GrowsTo pool := h.pool_eq ▸ howned.pool
  have hpath := hm.path
  have hnone (haliases : ¬plan.Aliases source target) (hx : s.heap.shape? x = none) :
      plan.Shares pool s.heap source target x (Transfer.placed mapper.inlineElements .null) := by
    have hplaced : Transfer.placed mapper.inlineElements .null = .null := by
      cases mapper.inlineElements <;> rfl
    rw [hplaced]
    refine ⟨fun hyes => absurd hyes haliases, fun _ _ _ hcase => ?_, ?_⟩
    · exact (hcase.resolve_right fun hne => hne hx).symm
    · rintro a i rfl hi -
      rw [Heap.shape?, hi] at hx
      cases hx
  rw [CollectionMapper.mapElement_eq, CollectionMapper.transfer]
  cases hsends with
  | verbatim haliases hroute =>
    rw [hroute] at hpath
    rw [hpath.eq_verbatim]
    exact Ensures.pure (.of_aliases haliases)
  | «static» haliases hroute =>
    rw [hroute] at hpath
    obtain ⟨link, hpath⟩ := hpath.exists_link
    rw [hpath]
    refine Ensures.mono (Transfer.placed_ensures
      (p := fun w => plan.Shares pool s.heap source target x
        (Transfer.placed mapper.inlineElements w))
      (Transfer.byLink_ensures h hlinkage false ?_ ?_)
      fun _ hw => hw) (fun _ _ hy => hy) fun _ _ _ => haliases
    · rintro rfl
      exact hnone haliases rfl
    · intro found s₁ hl hserves
      have hhands := Routine.run_hands hid hserves (by rw [hl.key]; exact hkey) depth x frame.state
      rw [hl.key, hl.heap] at hhands
      exact hhands.mono (fun w _ hw => hw.shares haliases hinline) fun _ _ _ => trivial
  | dynamic haliases hany hroute =>
    subst hany
    rw [hroute] at hpath
    rw [hpath.eq_dynamic]
    refine Ensures.mono (Transfer.placed_ensures (p := fun w => plan.Shares pool s.heap ShapeId.any
      target x (Transfer.placed mapper.inlineElements w))
      (Transfer.byShape_ensures h hlinkage false (hnone haliases) ?_) fun _ hw => hw)
      (fun _ _ hy => hy) fun _ _ _ => haliases
    intro own found s₁ hown hl hserves
    have hkey' : found.key.mapping = id := by rw [hl.key]; exact hkey
    obtain ⟨_, _, -, -, -, hb, -⟩ := hserves.exists_form (fun m hm heq => (hid m hm heq).2) hkey'
    have hhands := Routine.run_hands hid hserves hkey' depth x frame.state
    rw [hl.key] at hb hhands
    rw [hl.heap] at hhands
    exact hhands.mono (fun w _ hw => (hw.of_own hpool hown hb).shares haliases hinline)
      fun _ _ _ => trivial

variable {m : Mapping} (hnone : m.converters = []) {from' : ShapeId}
  {sourceShape targetShape : Descriptor}
  (hmapper : mapper.For pool m from' plan.target sourceShape targetShape)
  (ht : pool.Below plan.target plan.target targetShape)

include hnone hmapper ht

/-- Elements are converted one by one, and what is known of them at the start stays true. -/
theorem CollectionMapper.Realizes.mapElements_shares {start : Heap}
    (hgrown : Contract.Grown start s.heap) (h : s.Serves mappings pool r) (xs : List Value) :
    Ensures (mapper.mapElements (Routine.run depth) frame xs) s
      (fun ys _ => plan.SharesAll pool start source target xs ys)
      fun _ _ => ¬plan.Aliases source target := by
  unfold CollectionMapper.mapElements
  induction xs generalizing s with
  | nil => exact Ensures.pure .nil
  | cons x xs ih =>
    obtain ⟨hheld, hwithin⟩ := h.growing (fun m hm heq => (hid m hm heq).2) hkey hlinkage
    obtain ⟨owner, howned⟩ := h.coherent
    have hsound : Contract.growth.Sound pool := Contract.growth_sound (h.pool_eq ▸ howned.pool)
    obtain ⟨family, element, hkind⟩ :=
      CollectionKind.exists_collection_of_ofDescriptor? hmapper.kind
    have hgrows : Contract.growth.Gives pool mappings s
        (mapper.mapElement (Routine.run depth) frame x) _ :=
      Contract.mapElement_gives (hsound.with _) hwithin hnone ht hmapper hkind h.knows hheld trivial
    rw [List.mapM_cons]
    refine Ensures.bind (((hm.mapElement_shares hid hkey hlinkage hsends hinline h x).and
      hgrows).mono ?_ fun _ _ hstop => hstop.1)
    rintro y s₁ ⟨hy, hleads, -⟩
    refine Ensures.bind ((ih (hgrown.trans hleads.later) ⟨hleads.held.coherent, hleads.held.pool_eq,
      hleads.knows r h.knows⟩).mono ?_ fun _ _ hstop => hstop)
    exact fun ys s₂ hys => Ensures.pure (.cons (hy.of_grown hgrown) hys)

end

/-! ## Containers -/

/-- An empty sequence that is made adds nothing to what there is to enumerate. -/
theorem Heap.elements?_alloc_empty {heap : Heap} {v : Value} {es : List Value}
    (h : heap.elements? v = some es) (shape : ShapeId) :
    (heap.alloc (.seq shape #[])).2.elements? v = some es := by
  cases v with
  | ref a =>
    rw [elements?_ref] at h ⊢
    cases hi : heap.get? a with
    | none => simp [hi] at h
    | some i =>
      rw [hi] at h
      rw [get?_alloc_of_get? hi]
      rcases i with _ | _ | ⟨_, _ | b⟩
      · cases h
      · exact h
      · exact h
      · dsimp only at h ⊢
        rw [← h, streamItems_sequence, streamItems_sequence, get?_alloc]
        by_cases hb : b = ⟨heap.size⟩
        · subst hb
          rw [if_pos rfl, get?_size]
        · rw [if_neg fun heq => hb (congrArg Address.mk heq)]
  | _ => cases h

/-- The container that elements are appended to : one supplied, with what it holds, or a new one. -/
inductive CollectionPlan.Holds (plan : CollectionPlan) (heap : Heap) (destination : Value) :
    Address → List Value → Prop
  | supplied {a : Address} {items : List Value} (hdestination : destination = .ref a)
    (h : heap.get? a = some (.seq plan.target items.toArray)) : Holds plan heap destination a items
  | new {a : Address} (h : heap.get? a = none) : Holds plan heap destination a []

/-- There is neither a supplied container nor a way to make one. -/
structure CollectionPlan.Lacks (plan : CollectionPlan) (s : Session) (destination : Value) :
    Prop where
  kind : plan.kind = .genericInsertable
  unsupplied : CollectionMapper.sequenceAt? s.heap plan.target destination = none
  constructible : ¬plan.Constructible s.pool

section

variable {mapper : CollectionMapper} {invoke : Invoke} {frame : Frame} {s : Session}

/-- Elements that are taken as they are end up behind what is there already. -/
theorem CollectionMapper.appendElements_verbatim (hpath : mapper.path = .verbatim) {a : Address}
    {shape : ShapeId} (xs items : List Value)
    (h : s.heap.get? a = some (.seq shape items.toArray)) :
    ∃ s', mapper.appendElements invoke frame a xs s = .ok () s' ∧
      s'.heap.get? a = some (.seq shape (items ++ xs).toArray) := by
  unfold appendElements
  induction xs generalizing s items with
  | nil => exact ⟨s, rfl, by rw [List.append_nil]; exact h⟩
  | cons x xs ih =>
    have hone : mapper.appendElement invoke frame a x s = .ok () (s.push a x) := by
      unfold appendElement
      rw [mapElement_eq, transfer, hpath]
      rfl
    have hpush : (s.push a x).heap.get? a = some (.seq shape (items ++ [x]).toArray) := by
      rw [Session.push, Heap.get?_push, if_pos rfl, h, Option.map_some, Instance.mapContents,
        List.push_toArray]
    obtain ⟨s', hs', hget⟩ := ih (items ++ [x]) hpush
    refine ⟨s', ?_, by rw [hget, List.append_assoc]; rfl⟩
    exact (bind_of_eq_ok hone).trans hs'

/-- The container that elements are put into is the one supplied or a new one, or there is none for
want of a constructor. -/
theorem CollectionMapper.For.container?_cases {pool : Pool} {m : Mapping} {from' : ShapeId}
    {sourceShape targetShape : Descriptor} {plan : CollectionPlan}
    (hmapper : mapper.For pool m from' plan.target sourceShape targetShape)
    (hgeneric : mapper.kind = .genericInsertable)
    (ht : pool.Below plan.target plan.target targetShape) {source : Value} {es : List Value}
    (hes : s.heap.elements? source = some es) :
    (mapper.container? invoke frame s = .ok none s ∧
        sequenceAt? s.heap plan.target frame.destination = none ∧ ¬plan.Constructible pool) ∨
      ∃ a items s₁, mapper.container? invoke frame s = .ok (some a) s₁ ∧
        plan.Holds s.heap frame.destination a items ∧
        s₁.heap.get? a = some (.seq plan.target items.toArray) ∧
        s₁.heap.elements? source = some es := by
  cases hsequence : sequenceAt? s.heap plan.target frame.destination with
  | some a =>
    obtain ⟨hdestination, items, hitems⟩ := sequenceAt?_eq_some_iff.mp hsequence
    refine Or.inr ⟨a, items.toList, s, ?_, .supplied hdestination hitems, hitems, hes⟩
    unfold container?
    rw [get_bind, hmapper.target_eq, hsequence]
    rfl
  | none =>
    have hsequence' : sequenceAt? s.heap mapper.target frame.destination = none := by
      rw [hmapper.target_eq]
      exact hsequence
    let bare : Frame := { frame with destination := .null }
    have hnew : mapper.container? invoke bare s = _ :=
      hmapper.container?_eq hgeneric ht rfl invoke s
    rw [container?_of_sequenceAt?_eq_none rfl] at hnew
    rw [container?_of_sequenceAt?_eq_none hsequence']
    obtain ⟨family, element, hkind⟩ :=
      CollectionKind.exists_collection_of_ofDescriptor? hmapper.kind
    by_cases hmade : targetShape.valueType = false ∧ targetShape.defaultConstructor = true
    · rw [if_pos hmade] at hnew
      exact Or.inr ⟨_, [], _, hnew, .new (Heap.get?_size _), Heap.get?_alloc_size ..,
        Heap.elements?_alloc_empty hes plan.target⟩
    · rw [if_neg hmade] at hnew
      exact Or.inl ⟨hnew, rfl, fun hc => hmade (hc.flags ht.descriptor hkind)⟩

end

/-! ## Collections -/

/-- A collection of a declared element shape that is no value type stores nothing in place. -/
theorem CollectionMapper.Realizes.inline_eq_false {pool : Pool} {plan : CollectionPlan}
    {mapper : CollectionMapper} (hm : mapper.Realizes pool plan) {from' source target : ShapeId}
    (hshapes : plan.ElementShapes pool from' source target) {below : ShapeId} {known : Descriptor}
    (ht : pool.Below target below known) (htype : known.valueType = false) :
    mapper.inlineElements = false := by
  rw [← Bool.not_eq_true, hm.inline]
  rintro ⟨_, element, _, _, hknown, helement, hbelow, htrue⟩
  obtain ⟨_, _, _, -, hknown', -, rfl⟩ := hshapes
  cases hknown.symm.trans hknown'
  rw [helement, Option.getD_some] at ht
  obtain ⟨rfl, rfl⟩ := ht.unique hbelow
  cases htype.symm.trans htrue

/-- What the computation ends with is null where there is no container, or a collection of what
becomes of the elements. -/
def CollectionPlan.SharesBy (plan : CollectionPlan) (s : Session) (from' into : ShapeId)
    (destination : Value) (xs : List Value) (x : RunM Value) : Prop :=
  Ensures x s
    (fun w s' => w = .null ∧ plan.Lacks s destination ∨
      ∃ a before ys, w = .ref a ∧ plan.Holds s.heap destination a before ∧
        s'.heap.get? a = some (.seq plan.target (before ++ ys).toArray) ∧
        plan.SharesAll s.pool s.heap from' into xs ys)
    fun _ _ => ¬plan.Aliases from' into

section

variable {mappings : Mapping → Prop} {id : MappingId} {s : Session} {r : Routine}
  {plan : CollectionPlan} {mapper : CollectionMapper} {from' into below : ShapeId} {depth : Nat}
  {frame : Frame} {m : Mapping} {sourceShape targetShape : Descriptor} {xs : List Value}
  (hm : mapper.Realizes s.pool plan)
  (hmapper : mapper.For s.pool m below plan.target sourceShape targetShape)
  (ht : s.pool.Below plan.target plan.target targetShape)

include hm hmapper ht

/-- An array or a list is made once there is something of each element. -/
theorem CollectionMapper.Realizes.whole_shares (hsends : plan.Sends from' into)
    (hid : ∀ m, mappings m → m.id = id → m.copyMode = .shallow ∧ m.converters = [])
    (hkey : r.key.mapping = id) (hlinkage : frame.linkage = r.linkage)
    (hinline : ∀ below known, s.pool.Below into below known → known.valueType = false →
      mapper.inlineElements = false) (hnone : m.converters = [])
    (h : s.Serves mappings s.pool r) (destination : Value) :
    plan.SharesBy s from' into destination xs (do
      let items ← mapper.mapElements (Routine.run depth) frame xs
      RunM.onHeap (Heap.alloc (.seq mapper.target items.toArray))) := by
  obtain ⟨hheld, hwithin⟩ := h.growing (fun m hm heq => (hid m hm heq).2) hkey hlinkage
  obtain ⟨owner, howned⟩ := h.coherent
  have hsound : Contract.growth.Sound s.pool := Contract.growth_sound howned.pool
  obtain ⟨family, element, hkind⟩ := CollectionKind.exists_collection_of_ofDescriptor? hmapper.kind
  have hgrows : Contract.growth.Gives s.pool mappings s
      (mapper.mapElements (Routine.run depth) frame xs) _ :=
    Contract.mapElements_gives (hsound.with _) hwithin hnone ht hmapper hkind h.knows hheld
      fun _ _ => trivial
  refine Ensures.bind (((hm.mapElements_shares hid hkey hlinkage hsends hinline hnone hmapper ht
    (.refl _) h xs).and hgrows).mono ?_ fun _ _ hstop => hstop.1)
  rintro ys s₁ ⟨hys, hleads, -⟩
  refine Or.inr ⟨⟨s₁.heap.size⟩, [], ys, rfl, .new ?_, ?_, hys⟩
  · exact Heap.get?_eq_none_iff.mpr (Heap.size_le_of_shapes hleads.later.shapes)
  · rw [hm.target]
    exact Heap.get?_alloc_size ..

/-- Elements are appended to any other container as they are. -/
theorem CollectionMapper.Realizes.appended_shares (hgeneric : plan.kind = .genericInsertable)
    (hpath : mapper.path = .verbatim) {source destination : Value}
    (hsource : s.heap.elements? source = some xs) (hdestination : frame.destination = destination) :
    plan.SharesBy s from' into destination xs (do
      match ← mapper.container? (Routine.run depth) frame with
      | none => return .null
      | some a =>
        mapper.appendElements (Routine.run depth) frame a (← CollectionMapper.sourceElements source)
        return .ref a) := by
  subst hdestination
  refine Ensures.bind ?_
  unfold Ensures
  rcases hmapper.container?_cases (hm.kind.trans hgeneric) ht hsource with
    ⟨hcontainer, hsequence, hnot⟩ | ⟨a, items, s₁, hcontainer, hholds, hget, helements⟩
  · rw [hcontainer]
    exact Or.inl ⟨rfl, hgeneric, hsequence, hnot⟩
  · rw [hcontainer]
    dsimp only
    obtain ⟨s', happend, hget'⟩ : ∃ s',
        mapper.appendElements (Routine.run depth) frame a xs s₁ = .ok () s' ∧ _ :=
      CollectionMapper.appendElements_verbatim hpath xs items hget
    have hread : CollectionMapper.sourceElements source s₁ = .ok xs s₁ := by
      change EStateM.Result.ok ((s₁.heap.elements? source).getD [source]) s₁ = _
      rw [helements, Option.getD_some]
    refine Ensures.of_ok (((bind_of_eq_ok hread).trans (bind_of_eq_ok happend)).trans rfl) ?_
    exact Or.inr ⟨a, items, xs, rfl, hholds, hget', .of_aliases (Or.inr (Or.inl hgeneric))⟩

end

/-- Which elements of a source are shared with the collection that a shallow routine without
converters makes of it, be it declared or not what they are. All of them are if the collection is
an untyped list or an insertable container, or if the two declared element shapes are one or the
second is `any`, and such a run cannot fail. Otherwise an instance that has the shape that the
collection asks for is still made anew, unless it passes for its declared shape. -/
theorem Session.Reachable.shares_elements {mappings : Mapping → Prop} {s : Session}
    (hs : s.Reachable mappings) {r : Routine} (hr : s.Knows r)
    (hshallow : ∀ m, mappings m → m.id = r.key.mapping →
      m.copyMode = .shallow ∧ m.converters = []) {plan : CollectionPlan}
    (hplan : r.linkage.mapping.plan s.pool r.key.source r.key.target = .ok (.collection plan))
    {from' into : ShapeId} (hshapes : plan.ElementShapes s.pool r.key.source from' into)
    {source : Value} {xs : List Value} (hsource : s.heap.elements? source = some xs) (depth : Nat)
    (destination state : Value) :
    Ensures (r.run (depth + 1) source destination state) s
      (fun w s' => w = .null ∧ plan.Lacks s destination ∨
        ∃ a before ys, w = .ref a ∧ plan.Holds s.heap destination a before ∧
          s'.heap.get? a = some (.seq plan.target (before ++ ys).toArray) ∧
          plan.SharesAll s.pool s.heap from' into xs ys)
      fun _ _ => ¬plan.Aliases from' into := by
  have hserves : s.Serves mappings s.pool r := ⟨hs.coherent, rfl, hr⟩
  obtain ⟨owner, howned⟩ := hserves.coherent
  obtain ⟨-, -, hmapping, hmade⟩ := howned.madeIn hr
  obtain ⟨hmode, hnone⟩ := hshallow _ hmapping hmade.mapping.symm
  obtain ⟨mapper, hbody, hm, -⟩ := hmade.exists_mapper hplan
  obtain ⟨_, _, below, sourceShape, targetShape, hbody', hready, hsourceShape, ht, hcollection⟩ :=
    hmade.exists_ready hplan
  cases hbody.symm.trans hbody'
  have hmapper := CollectionPlan.for_of_ready ht.self hcollection hready
  have hsends := Mapping.sends_of_plan hmode hplan hshapes
  have hnull : ¬source.isNull = true := by
    intro hnull
    rw [Value.isNull_iff.mp hnull] at hsource
    cases hsource
  have hwhole : plan.SharesBy s from' into destination xs (do
      let items ← mapper.mapElements (Routine.run depth) ⟨source, destination, state, r.linkage⟩
        ((s.heap.elements? source).getD [source])
      RunM.onHeap (Heap.alloc (.seq mapper.target items.toArray))) := by
    rw [hsource]
    exact hm.whole_shares hmapper ht.self hsends hshallow rfl rfl
      (fun _ _ => hm.inline_eq_false hshapes) hnone hserves destination
  rw [Routine.run_succ, hbody, Body.run]
  unfold CollectionMapper.run
  dsimp only
  rw [if_neg hnull]
  split
  · exact hwhole
  · exact hwhole
  · exact hwhole
  · rename_i hk
    have hgeneric : plan.kind = .genericInsertable := hm.kind.symm.trans hk
    have hpath := hm.path
    rw [hsends.route_of_aliases (Or.inr (Or.inl hgeneric))] at hpath
    exact hm.appended_shares hmapper ht.self hgeneric hpath.eq_verbatim hsource rfl

/-! ## A list of points that declares nothing -/

namespace Undeclared

def point : Descriptor :=
  .ofRecord "Point" [⟨"x", ShapeId.int, {}⟩]

def operations : List Pool.Operation :=
  [.register point, .listOf ⟨7⟩]

/-- A point, and a list of it. -/
def heap : Heap where
  instances := #[.object ⟨7⟩ #[.int 1], .seq ShapeId.untypedList #[.ref ⟨0⟩]]

def mapping : Mapping where
  id := ⟨"shallow"⟩
  copyMode := .shallow

def session : Session :=
  .compiling operations heap mapping ShapeId.untypedList ⟨8⟩

def routine : Routine :=
  Session.compiled operations heap mapping ShapeId.untypedList ⟨8⟩

def plan : CollectionPlan where
  kind := .typedList
  target := ⟨8⟩
  route := .dynamic (some ⟨7⟩)
  inlineElements := false
  construct := none

theorem knows : session.Knows routine := by
  have hcached : (session.cached? ⟨0⟩ ⟨ShapeId.untypedList, ⟨8⟩, mapping.id⟩).isSome = true := rfl
  exact (Session.knows_of_cached? hcached).1

theorem plan_eq : routine.linkage.mapping.plan session.pool routine.key.source routine.key.target =
    .ok (.collection plan) :=
  rfl

theorem elementShapes :
    plan.ElementShapes session.pool routine.key.source ShapeId.any ⟨7⟩ :=
  ⟨ShapeId.untypedList, .ofCollection "list" .untypedList none,
    .ofCollection "List<Point>" .list (some ⟨7⟩), ⟨rfl, rfl⟩, rfl, rfl, rfl⟩

theorem below_point : session.pool.Below ⟨7⟩ ⟨7⟩ point :=
  ⟨rfl, rfl⟩

theorem not_aliases : ¬plan.Aliases ShapeId.any ⟨7⟩ := by
  rintro (h | h | h | h) <;> cases h

theorem not_passes : ¬session.pool.Passes ShapeId.any ⟨7⟩ := by
  rintro ⟨_, _, _, _, -, ht, hkind⟩
  obtain ⟨-, rfl⟩ := below_point.unique ht
  rcases hkind with hkind | ⟨p, hkind, -⟩ <;> cases hkind

end Undeclared

/-- The list holds a point already, and the list of points that is made of it holds another one. -/
theorem Session.Reachable.shares_elements_undeclared : ∃ a y s',
    Undeclared.routine.run 2 (.ref ⟨1⟩) .null .null Undeclared.session = .ok (.ref a) s' ∧
      s'.heap.get? a = some (.seq ⟨8⟩ #[y]) ∧
      Undeclared.session.pool.Takes ⟨7⟩ ⟨7⟩ ∧
      Undeclared.session.heap.shape? (.ref ⟨0⟩) = some ⟨7⟩ ∧ ¬y.sameInstance (.ref ⟨0⟩) = true := by
  have htakes : Undeclared.session.pool.Takes ⟨7⟩ ⟨7⟩ := ⟨_, _, Undeclared.below_point, Or.inr rfl⟩
  have hreachable : Undeclared.session.Reachable (· = Undeclared.mapping) :=
    reachable_compiling Undeclared.operations Undeclared.heap Undeclared.mapping
      ShapeId.untypedList ⟨8⟩
  have helements : Undeclared.session.heap.elements? (.ref ⟨1⟩) = some [.ref ⟨0⟩] := rfl
  have hrun : Ensures (Undeclared.routine.run 2 (.ref ⟨1⟩) .null .null) Undeclared.session _ _ :=
    Session.Reachable.shares_elements hreachable Undeclared.knows (fun m hm _ => by
      subst hm; exact ⟨rfl, rfl⟩) Undeclared.plan_eq Undeclared.elementShapes helements 1 .null .null
  obtain ⟨s', hok⟩ : ∃ s', Undeclared.routine.run 2 (.ref ⟨1⟩) .null .null Undeclared.session =
      .ok (.ref ⟨3⟩) s' := ⟨_, rfl⟩
  obtain ⟨hnull, -⟩ | ⟨a, before, ys, ha, hholds, hget, hlength, hall⟩ := hrun.of_run hok
  · cases hnull
  · obtain rfl := Value.ref.inj ha
    obtain ⟨y, rfl⟩ := List.length_eq_one_iff.mp hlength
    cases hholds with
    | supplied hdestination _ => cases hdestination
    | new _ =>
      refine ⟨⟨3⟩, y, s', hok, hget, htakes, rfl, fun hsame => ?_⟩
      rcases ((hall 0 (.ref ⟨0⟩) y rfl rfl).same rfl rfl htakes).mp hsame with haliases | hpasses
      · exact Undeclared.not_aliases haliases
      · exact Undeclared.not_passes hpasses

end Reshape
