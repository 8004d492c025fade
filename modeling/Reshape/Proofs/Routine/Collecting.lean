import Reshape.Proofs.Routine.Confined
import Reshape.Proofs.Session.Coherence

/-!
# Collections, element by element

What a routine makes of a source that a collection is planned for (`Routine.run_collection`). It
converts the elements one after the other, each on its own (`Routine.Element`) : null stays null, an
element that is taken as it is stays what it is, and any other one goes once through the routine for
the two shapes that the plan asks for. The results make a new collection, in the same order. The
first element that fails ends the run with its error, and no later one is looked at.

The routine for two shapes is the one that the search for it ends with, and it has been compiled for
them in the pool (`Session.Locates`). So no other items come of the elements than these
(`Routine.Collects.unique`).

A generic container is made first and filled while elements are converted. Nothing refers to it
until it is done, so that no conversion of an element gets at it.
-/

set_option linter.unusedSectionVars false

namespace Reshape

/-! ## Elements -/

/-- How the routine looks for the one that takes an element along the route, and for which two
shapes. -/
inductive Routine.Seeks (r : Routine) (route : ElementRoute) (heap : Heap) (v : Value) :
    ShapeId → ShapeId → RunM Routine → Prop
  /-- All elements go through one routine, and there is a link to it. -/
  | static {link : Link} (hroute : route = .static link.source link.target)
    (hlink : r.elementLink? = some link) :
    Seeks r route heap v link.source link.target (Session.resolve r.linkage link)
  /-- The shape of the value decides, and is kept if no other one is declared. -/
  | dynamic {source : ShapeId} {target : Option ShapeId} (hroute : route = .dynamic target)
    (hshape : heap.shape? v = some source) :
    Seeks r route heap v source (target.getD source)
      (Session.resolveDynamic r.linkage source (target.getD source))

/-- The declared element shape of the collection is that of a value type. -/
def CollectionPlan.TakesInline (plan : CollectionPlan) (pool : Pool) : Prop :=
  ∃ known element below known', pool.descriptor plan.target = .ok known ∧
    known.element? = some element ∧ pool.Below element below known' ∧ known'.valueType = true

/-- The result of a conversion is stored as this value, out of its box for a value type. -/
structure CollectionPlan.Stores (plan : CollectionPlan) (pool : Pool) (result stored : Value) :
    Prop where
  inline : plan.TakesInline pool → stored = result.unboxed
  reference : ¬plan.TakesInline pool → stored = result

/-- The search ends with the routine for two shapes, under the mapping of `r`. It has been compiled
in the pool, and is known now. No value has changed, and no converter has been called. -/
structure Session.Locates (s : Session) (r : Routine) (source target : ShapeId)
    (search : RunM Routine) (found : Routine) (s' : Session) : Prop where
  search_eq : search s = .ok found s'
  key : found.key = ⟨source, target, r.key.mapping⟩
  made : found.MadeIn s.pool
  knows : s'.Knows found
  pool : s'.pool = s.pool
  heap : s'.heap = s.heap
  calls : s'.calls = s.calls

/-- The search ends with the reason why there is no routine for two shapes. -/
structure Session.Misses (s : Session) (r : Routine) (source target : ShapeId)
    (search : RunM Routine) (stop : Stop) (s' : Session) : Prop where
  search_eq : search s = .error stop s'
  refuses : r.linkage.Refuses s source target stop
  heap : s'.heap = s.heap
  calls : s'.calls = s.calls

section

variable (r : Routine) (plan : CollectionPlan) (depth : Nat) (state : Value)

/-- From a session to the next, the element becomes this value. -/
inductive Routine.Element : Session → Value → Value → Session → Prop
  | null {s : Session} : Element s .null .null s
  | verbatim {s : Session} {v : Value} (hv : v ≠ .null) (hroute : plan.route = .verbatim) :
    Element s v v s
  /-- A box around null has no shape that a routine could be found for. -/
  | shapeless {s : Session} {v : Value} {target : Option ShapeId} (hv : v ≠ .null)
    (hroute : plan.route = .dynamic target) (hshape : s.heap.shape? v = none) :
    Element s v .null s
  | converted {s s₁ s' : Session} {v w stored : Value} {source target : ShapeId}
    {search : RunM Routine} {found : Routine} (hv : v ≠ .null)
    (hseeks : r.Seeks plan.route s.heap v source target search)
    (hfound : s.Locates r source target search found s₁)
    (hrun : found.run depth v .null state s₁ = .ok w s') (hstored : plan.Stores s.pool w stored) :
    Element s v stored s'

/-- From a session on, the element fails with this error, and leaves a session behind. -/
inductive Routine.ElementFails : Session → Value → Stop → Session → Prop
  /-- There is no routine for the two shapes. -/
  | missing {s s' : Session} {v : Value} {source target : ShapeId} {search : RunM Routine}
    {stop : Stop} (hv : v ≠ .null) (hseeks : r.Seeks plan.route s.heap v source target search)
    (hmisses : s.Misses r source target search stop s') : ElementFails s v stop s'
  | failed {s s₁ s' : Session} {v : Value} {source target : ShapeId} {search : RunM Routine}
    {found : Routine} {stop : Stop} (hv : v ≠ .null)
    (hseeks : r.Seeks plan.route s.heap v source target search)
    (hfound : s.Locates r source target search found s₁)
    (hrun : found.run depth v .null state s₁ = .error stop s') : ElementFails s v stop s'

/-- From a session to the last, the elements become these values, one after the other. What
becomes of an element is stored in between. -/
inductive Routine.Elements (store : Value → Session → Session) :
    Session → List Value → List Value → Session → Prop
  | nil {s : Session} : Elements store s [] [] s
  | cons {s s₁ s' : Session} {v w : Value} {vs ws : List Value}
    (h : r.Element plan depth state s v w s₁) (hs : Elements store (store w s₁) vs ws s') :
    Elements store s (v :: vs) (w :: ws) s'

/-- The elements up to some element become these values, and that element fails. -/
def Routine.ElementsFail (store : Value → Session → Session) (s : Session) (vs : List Value)
    (stop : Stop) (s' : Session) : Prop :=
  ∃ before v after ws s₁, vs = before ++ v :: after ∧
    r.Elements plan depth state store s before ws s₁ ∧ r.ElementFails plan depth state s₁ v stop s'

end

/-! ## Plans and mappers -/

section

variable {pool : Pool} {mapping : Mapping} {source target : ShapeId} {plan : CollectionPlan}

theorem storesInline_iff {element? : Option ShapeId} {inline : Bool}
    (h : storesInline pool element? = .ok inline) : inline = true ↔
      ∃ element below known, element? = some element ∧ pool.Below element below known ∧
        known.valueType = true := by
  cases element? with
  | none =>
    cases h
    simp
  | some element =>
    obtain ⟨below, hbelow, h⟩ := Except.bind_eq_ok_iff.mp h
    obtain ⟨known, hknown, h⟩ := Except.bind_eq_ok_iff.mp h
    rw [Pool.orCompileError_eq_ok_iff] at hbelow hknown
    cases h
    constructor
    · exact fun htype => ⟨element, below, known, rfl, ⟨hbelow, hknown⟩, htype⟩
    · rintro ⟨_, _, _, heq, hbelow', htype⟩
      cases heq
      obtain ⟨rfl, rfl⟩ := Pool.Below.unique ⟨hbelow, hknown⟩ hbelow'
      exact htype

theorem target_and_inline_of_planCollection {sourceShape targetShape : Descriptor}
    (h : planCollection pool mapping source sourceShape target targetShape = .ok (some plan)) :
    plan.target = target ∧ storesInline pool targetShape.element? = .ok plan.inlineElements := by
  unfold planCollection at h
  split at h
  · cases h
  · obtain ⟨_, hinline, h⟩ := Except.bind_eq_ok_iff.mp h
    obtain ⟨_, -, h⟩ := Except.bind_eq_ok_iff.mp h
    cases h
    exact ⟨rfl, hinline⟩

/-- The route of a plan is the one for the element shapes of source and destination. -/
theorem route_of_planCollection {pool : Pool} {mapping : Mapping} {source target : ShapeId}
    {sourceShape targetShape : Descriptor} {plan : CollectionPlan}
    (h : planCollection pool mapping source sourceShape target targetShape = .ok (some plan)) :
    plan.route = elementRoute plan.kind mapping.copyMode (sourceElement source sourceShape)
      targetShape.element? := by
  unfold planCollection at h
  split at h
  · cases h
  · obtain ⟨_, -, h⟩ := Except.bind_eq_ok_iff.mp h
    obtain ⟨_, -, h⟩ := Except.bind_eq_ok_iff.mp h
    cases h
    rfl

/-- What is planned as a collection is no program of a converter. -/
theorem RoutinePlan.of_match_eq_collection {custom : Option Program}
    {rest : Except CompileError RoutinePlan} {plan : CollectionPlan}
    (h : (match custom with
      | some p => Except.ok (RoutinePlan.program p)
      | none => rest) = .ok (.collection plan)) : rest = .ok (.collection plan) := by
  cases custom with
  | some p => cases h
  | none => exact h

/-- A collection is planned for the shapes below, which have no converter. -/
theorem Mapping.exists_planCollection
    (h : mapping.plan pool source target = .ok (.collection plan)) :
    ∃ below sourceShape targetShape, pool.Below source below sourceShape ∧
      pool.Below target plan.target targetShape ∧
      planCollection pool mapping below sourceShape plan.target targetShape = .ok (some plan) := by
  unfold Mapping.plan at h
  obtain ⟨below, hbelow, h⟩ := Except.bind_eq_ok_iff.mp (RoutinePlan.of_match_eq_collection h)
  obtain ⟨below', hbelow', h⟩ := Except.bind_eq_ok_iff.mp h
  have h := RoutinePlan.of_match_eq_collection h
  obtain ⟨sourceShape, hsource, h⟩ := Except.bind_eq_ok_iff.mp h
  obtain ⟨targetShape, htarget, h⟩ := Except.bind_eq_ok_iff.mp h
  rw [Pool.orCompileError_eq_ok_iff] at hbelow hbelow' hsource htarget
  split at h
  · obtain ⟨plan?, hplan, h⟩ := Except.bind_eq_ok_iff.mp h
    cases plan? with
    | none => cases h
    | some plan' =>
      cases h
      obtain ⟨rfl, -⟩ := target_and_inline_of_planCollection hplan
      exact ⟨below, sourceShape, targetShape, ⟨hbelow, hsource⟩, ⟨hbelow', htarget⟩, hplan⟩
  · split at h
    case h_3 =>
      split at h
      · cases h
      · split at h <;> cases h
    case h_5 =>
      obtain ⟨program, -, h⟩ := Except.bind_eq_ok_iff.mp h
      cases h
    all_goals cases h

/-- The shapes that the elements of the source and of the collection are declared to have. -/
def CollectionPlan.ElementShapes (plan : CollectionPlan) (pool : Pool)
    (from' source target : ShapeId) : Prop :=
  ∃ below sourceShape targetShape, pool.Below from' below sourceShape ∧
    pool.descriptor plan.target = .ok targetShape ∧ source = sourceElement below sourceShape ∧
    target = targetShape.element?.getD ShapeId.any

theorem Mapping.route_of_plan {element element' : ShapeId}
    (hplan : mapping.plan pool source target = .ok (.collection plan))
    (h : plan.ElementShapes pool source element element') :
    ∃ element?, element' = element?.getD ShapeId.any ∧
      plan.route = elementRoute plan.kind mapping.copyMode element element? := by
  obtain ⟨below, sourceShape, targetShape, hs, ht, hplan⟩ := exists_planCollection hplan
  obtain ⟨_, _, _, hs', ht', rfl, rfl⟩ := h
  obtain ⟨rfl, rfl⟩ := hs.unique hs'
  cases ht.descriptor.symm.trans ht'
  exact ⟨_, rfl, route_of_planCollection hplan⟩

/-- The mapper does what the plan says. -/
structure CollectionMapper.Realizes (pool : Pool) (plan : CollectionPlan)
    (mapper : CollectionMapper) : Prop where
  kind : mapper.kind = plan.kind
  target : mapper.target = plan.target
  path : plan.route.Leads mapper.path
  inline : mapper.inlineElements = true ↔ plan.TakesInline pool

/-- A new instance of the collection can be made from nothing. -/
def CollectionPlan.Constructible (plan : CollectionPlan) (pool : Pool) : Prop :=
  ∃ t, Template.ofShape pool plan.target = .ok t ∧ t.isConstructible = true

/-- The zero value of a collection is null, so that one of a value type cannot be made. -/
theorem CollectionPlan.Constructible.flags {known : Descriptor} (h : plan.Constructible pool)
    (hknown : pool.descriptor plan.target = .ok known) {family : Family}
    {element : Option ShapeId} (hkind : known.kind = .collection family element) :
    known.valueType = false ∧ known.defaultConstructor = true := by
  obtain ⟨t, ht, hconstructible⟩ := h
  obtain ⟨known', hknown', ht⟩ := Except.bind_eq_ok_iff.mp ht
  cases hknown.symm.trans hknown'
  cases htype : known.valueType with
  | true =>
    have hzero : pool.zeroValue plan.target = .ok .null := by
      rw [Pool.zeroValue, Pool.zeroValueWithin]
      simp only [hknown, hkind, bind, Except.bind]
      rfl
    rw [htype, if_pos rfl, hzero] at ht
    cases ht
    cases hconstructible
  | false =>
    cases hconstructor : known.defaultConstructor with
    | true => exact ⟨rfl, rfl⟩
    | false =>
      rw [htype, hconstructor] at ht
      cases ht
      cases hconstructible

/-- A routine that a collection is planned for has its plan made ready as a mapper. -/
theorem Routine.MadeIn.exists_ready {r : Routine} (h : r.MadeIn pool)
    (hplan : r.linkage.mapping.plan pool r.key.source r.key.target = .ok (.collection plan)) :
    ∃ mapper n below sourceShape targetShape, r.body = .collection mapper ∧
      plan.ready pool r.linkage.mapping 0 = .ok (mapper, n) ∧
      pool.Below r.key.source below sourceShape ∧ pool.Below r.key.target plan.target targetShape ∧
      planCollection pool r.linkage.mapping below sourceShape plan.target targetShape =
        .ok (some plan) := by
  have hbody := h.body
  obtain ⟨plan', hplan', hready⟩ := Except.bind_eq_ok_iff.mp hbody
  cases hplan.symm.trans hplan'
  obtain ⟨⟨body, n⟩, hready, heq⟩ := Except.map_eq_ok_iff.mp hready
  obtain rfl : body = r.body := heq
  obtain ⟨mapper, n₁, hmapper, hready⟩ := ReadyM.bind_eq_ok_iff.mp hready
  obtain ⟨below, sourceShape, targetShape, hsource, htarget, hcollection⟩ :=
    Mapping.exists_planCollection hplan
  exact ⟨mapper, n₁, below, sourceShape, targetShape,
    (congrArg Prod.fst (Except.ok.inj hready)).symm, hmapper, hsource, htarget, hcollection⟩

/-- The body of a routine that a collection is planned for. -/
theorem Routine.MadeIn.exists_mapper {r : Routine} (h : r.MadeIn pool)
    (hplan : r.linkage.mapping.plan pool r.key.source r.key.target = .ok (.collection plan)) :
    ∃ mapper, r.body = .collection mapper ∧ mapper.Realizes pool plan ∧
      (plan.kind = .genericInsertable → plan.Constructible pool →
        mapper.MakesEmpty plan.target) := by
  obtain ⟨mapper, n, below, sourceShape, targetShape, hbody, hmapper, -, htarget, hcollection⟩ :=
    h.exists_ready hplan
  have hfor := CollectionPlan.for_of_ready htarget.self hcollection hmapper
  have hfields : mapper.kind = plan.kind ∧ mapper.inlineElements = plan.inlineElements ∧
      plan.route.Leads mapper.path := by
    obtain ⟨construct, _, -, hmapper⟩ := ReadyM.bind_eq_ok_iff.mp hmapper
    obtain ⟨path, _, hpath, hmapper⟩ := ReadyM.bind_eq_ok_iff.mp hmapper
    cases hmapper
    exact ⟨rfl, rfl, ElementRoute.leads_of_ready hpath⟩
  have hinline : plan.inlineElements = true ↔ plan.TakesInline pool := by
    have hstores := (target_and_inline_of_planCollection hcollection).2
    rw [storesInline_iff hstores]
    constructor
    · rintro ⟨element, below, known, helement, hbelow, htype⟩
      exact ⟨targetShape, element, below, known, htarget.descriptor, helement, hbelow, htype⟩
    · rintro ⟨known, element, below, known', hknown, helement, hbelow, htype⟩
      cases htarget.descriptor.symm.trans hknown
      exact ⟨element, below, known', helement, hbelow, htype⟩
  refine ⟨mapper, hbody, ⟨hfields.1, hfor.target_eq, hfields.2.2, hfields.2.1 ▸ hinline⟩, ?_⟩
  intro hgeneric hconstructible
  obtain ⟨program, origin, hprogram, hrun, horigin⟩ := hfor.construct (hfields.1.trans hgeneric)
  obtain ⟨family, element, hkind⟩ :=
    CollectionKind.exists_collection_of_ofDescriptor? hfor.kind
  obtain ⟨htype, hconstructor⟩ := hconstructible.flags htarget.descriptor hkind
  refine ⟨program, hprogram, fun invoke frame => ?_⟩
  rw [hrun, Origin.run, horigin.make_eq_alloc htarget.descriptor htype hconstructor hkind]

end

/-! ## One element -/

/-- The session is coherent, over the pool, and knows the routine. -/
structure Session.Serves (mappings : Mapping → Prop) (pool : Pool) (r : Routine) (s : Session) :
    Prop where
  coherent : s.Coherent mappings
  pool_eq : s.pool = pool
  knows : s.Knows r

/-- The search ends with the routine for two shapes, and the session serves `r` as before, or with
the reason why there is no such routine. -/
def Session.SearchesFor (mappings : Mapping → Prop) (pool : Pool) (r : Routine) (s : Session)
    (source target : ShapeId) (search : RunM Routine) : Prop :=
  Ensures search s
    (fun found s₁ => s.Locates r source target search found s₁ ∧ s₁.Serves mappings pool r)
    fun stop s₁ => s.Misses r source target search stop s₁

section

variable {mappings : Mapping → Prop} {pool : Pool} {r : Routine} {s : Session}
  {plan : CollectionPlan} {mapper : CollectionMapper} {depth : Nat} {state : Value}

theorem Session.Evolves.serves {owner : Nat → Linkage} {s₀ : Session}
    (h : s₀.Evolves mappings owner s) (h₀ : s₀.Serves mappings pool r) :
    s.Serves mappings pool r := by
  obtain ⟨owner', -, howned⟩ := h.owned
  exact ⟨⟨owner', howned⟩, h.pool.trans h₀.pool_eq, h.knows r h₀.knows⟩

theorem Session.Serves.withHeap (h : s.Serves mappings pool r) (heap : Heap) :
    Session.Serves mappings pool r { s with heap := heap } := by
  obtain ⟨owner, howned⟩ := h.coherent
  exact ⟨⟨owner, howned.withHeap heap⟩, h.pool_eq, h.knows⟩

/-- What comes of looking for the routine for two shapes. -/
theorem Session.Serves.locates {owner : Nat → Linkage} (h : s.Serves mappings pool r)
    (howned : s.Owned mappings owner) {source target : ShapeId} {search : RunM Routine}
    (hsearch : s.Searches mappings owner r.linkage source target search) :
    s.SearchesFor mappings pool r source target search := by
  obtain ⟨-, -, -, hmade⟩ := howned.madeIn h.knows
  refine ((Ensures.outcome search s).and hsearch).mono ?_ ?_
  · rintro found s₁ ⟨heq, hfinds, hcalls⟩
    obtain ⟨_, -, howned₁⟩ := hfinds.evolves.owned
    obtain ⟨-, -, -, hmade₁⟩ := howned₁.madeIn hfinds.knows
    refine ⟨⟨heq, ?_, hfinds.evolves.pool ▸ hmade₁, hfinds.knows, hfinds.evolves.pool, hfinds.heap,
      hcalls⟩, hfinds.evolves.serves h⟩
    rw [hfinds.answers.key, hmade.mapping]
  · rintro stop s₁ ⟨heq, ⟨-, hheap⟩, hcalls, hrefuses⟩
    exact ⟨heq, hrefuses, hheap, hcalls⟩

/-- A routine found through a link is one for the shapes of the link. -/
theorem Session.Serves.locates_linked (h : s.Serves mappings pool r) (link : Link) :
    s.SearchesFor mappings pool r link.source link.target (Session.resolve r.linkage link) := by
  obtain ⟨owner, howned⟩ := h.coherent
  obtain ⟨hlt, howner, -, -⟩ := howned.madeIn h.knows
  exact h.locates howned (Session.resolve_searches howned hlt howner link)

/-- A routine found for the shape of a value is one for the two shapes asked for. -/
theorem Session.Serves.locates_dynamic (h : s.Serves mappings pool r) (source target : ShapeId) :
    s.SearchesFor mappings pool r source target
      (Session.resolveDynamic r.linkage source target) := by
  obtain ⟨owner, howned⟩ := h.coherent
  obtain ⟨-, -, hmapping, -⟩ := howned.madeIn h.knows
  exact h.locates howned (Session.resolveDynamic_searches howned hmapping source target)

theorem Routine.elementLink?_eq (hbody : r.body = .collection mapper) {link : Link}
    (hpath : mapper.path = .linked link) : r.elementLink? = some link := by
  unfold elementLink? CollectionMapper.link?
  rw [hbody]
  dsimp only
  rw [hpath]

theorem CollectionMapper.Realizes.stores (hm : mapper.Realizes pool plan) (w : Value) :
    plan.Stores pool w (if mapper.inlineElements then w.unboxed else w) := by
  cases hinline : mapper.inlineElements with
  | true => exact ⟨fun _ => rfl, fun hno => absurd (hm.inline.mp hinline) hno⟩
  | false =>
    exact ⟨fun htakes => by simp [hm.inline.mpr htakes] at hinline, fun _ => rfl⟩

/-- An element that goes through the routine for two shapes. -/
theorem CollectionMapper.Realizes.found_does (hm : mapper.Realizes pool plan)
    (h : s.Serves mappings pool r) {v : Value} (hv : v ≠ .null) {source target : ShapeId}
    {search : RunM Routine} (hseeks : r.Seeks plan.route s.heap v source target search)
    (hsearch : s.SearchesFor mappings pool r source target search) :
    Ensures (do
        let found ← search
        let mapped ← found.run depth v .null state
        return if mapper.inlineElements then mapped.unboxed else mapped) s
      (fun w s' => r.Element plan depth state s v w s' ∧ s'.Serves mappings pool r)
      fun stop s' => r.ElementFails plan depth state s v stop s' := by
  refine Ensures.bind (hsearch.mono ?_ ?_)
  · rintro found s₁ ⟨hfound, hserves⟩
    obtain ⟨owner, howned⟩ := hserves.coherent
    have hrun := (Ensures.outcome (found.run depth v .null state) s₁).and
      (Routine.run_evolving depth owner s₁ found howned hfound.knows v .null state)
    refine Ensures.bind (hrun.mono ?_ ?_)
    · rintro w s' ⟨hrun, hevolves⟩
      refine Ensures.pure ⟨?_, hevolves.serves hserves⟩
      exact .converted hv hseeks hfound hrun (h.pool_eq ▸ hm.stores w)
    · exact fun stop s' hstop => .failed hv hseeks hfound hstop.1
  · exact fun stop s₁ hmisses => .missing hv hseeks hmisses

/-- What the mapper does to an element. -/
theorem CollectionMapper.Realizes.mapElement_does (hm : mapper.Realizes pool plan)
    (hbody : r.body = .collection mapper) (h : s.Serves mappings pool r) {frame : Frame}
    (hlinkage : frame.linkage = r.linkage) (v : Value) :
    Ensures (mapper.mapElement (Routine.run depth) frame v) s
      (fun w s' => r.Element plan depth frame.state s v w s' ∧ s'.Serves mappings pool r)
      fun stop s' => r.ElementFails plan depth frame.state s v stop s' := by
  have hpath := hm.path
  unfold CollectionMapper.mapElement
  rw [hlinkage]
  split
  · rename_i hnull
    rw [Value.isNull_iff] at hnull
    subst hnull
    exact Ensures.pure ⟨.null, h⟩
  · rename_i hnull
    have hv : v ≠ .null := fun heq => hnull (Value.isNull_iff.mpr heq)
    split
    · rename_i heq
      rw [heq] at hpath
      cases hroute : plan.route <;> rw [hroute] at hpath <;> cases hpath
      exact Ensures.pure ⟨.verbatim hv hroute, h⟩
    · rename_i link heq
      rw [heq] at hpath
      cases hroute : plan.route <;> rw [hroute] at hpath <;> cases hpath
      exact hm.found_does h hv (.static hroute (Routine.elementLink?_eq hbody heq))
        (h.locates_linked _)
    · rename_i target heq
      rw [heq] at hpath
      cases hroute : plan.route <;> rw [hroute] at hpath <;> cases hpath
      refine .of_eq (get_bind _ s) ?_
      cases hshape : s.heap.shape? v with
      | none => exact Ensures.pure ⟨.shapeless hv hroute hshape, h⟩
      | some shape =>
        exact hm.found_does h hv (.dynamic hroute hshape)
          (h.locates_dynamic shape (target.getD shape))

end

/-! ## Element after element -/

section

variable {r : Routine} {plan : CollectionPlan} {depth : Nat} {state : Value}
  {store : Value → Session → Session} {s s₁ s' : Session} {v w : Value} {vs ws : List Value}
  {stop : Stop}

/-- There are as many results as elements. -/
theorem Routine.Elements.length_eq (h : r.Elements plan depth state store s vs ws s') :
    ws.length = vs.length := by
  induction h with
  | nil => rfl
  | cons _ _ ih => rw [List.length_cons, List.length_cons, ih]

theorem CollectionPlan.Stores.unique {pool : Pool} {y w' : Value} (h : plan.Stores pool y w)
    (h' : plan.Stores pool y w') : w' = w := by
  by_cases htakes : plan.TakesInline pool
  · exact (h'.inline htakes).trans (h.inline htakes).symm
  · exact (h'.reference htakes).trans (h.reference htakes).symm

/-- A routine is looked for in one way only. -/
theorem Routine.Seeks.unique {route : ElementRoute} {heap : Heap} {source target : ShapeId}
    {search : RunM Routine} {source' target' : ShapeId} {search' : RunM Routine}
    (h : r.Seeks route heap v source target search)
    (h' : r.Seeks route heap v source' target' search') : search' = search := by
  cases h with
  | static hroute hlink =>
    cases h' with
    | static _ hlink' =>
      cases hlink.symm.trans hlink'
      rfl
    | dynamic hroute' _ => cases hroute.symm.trans hroute'
  | dynamic hroute hshape =>
    cases h' with
    | static hroute' _ => cases hroute.symm.trans hroute'
    | dynamic hroute' hshape' =>
      cases hroute.symm.trans hroute'
      cases hshape.symm.trans hshape'
      rfl

theorem Routine.Seeks.ne_verbatim {route : ElementRoute} {heap : Heap} {source target : ShapeId}
    {search : RunM Routine} (h : r.Seeks route heap v source target search) :
    route ≠ .verbatim := by
  cases h with
  | static hroute _ | dynamic hroute _ => exact hroute ▸ nofun

/-- What has no shape is not looked for by its shape. -/
theorem Routine.Seeks.shape?_ne_none {heap : Heap} {target? : Option ShapeId}
    {source target : ShapeId} {search : RunM Routine}
    (h : r.Seeks (.dynamic target?) heap v source target search) : heap.shape? v ≠ none := by
  cases h with
  | static hroute _ => cases hroute
  | dynamic _ hshape => exact hshape ▸ nofun

/-- An element becomes one value only. -/
theorem Routine.Element.unique {w' : Value} (h : r.Element plan depth state s v w s₁)
    (h' : r.Element plan depth state s v w' s') : w' = w ∧ s' = s₁ := by
  cases h with
  | null =>
    cases h' with
    | null => exact ⟨rfl, rfl⟩
    | verbatim hv | shapeless hv | converted hv => exact absurd rfl hv
  | verbatim hv hroute =>
    cases h' with
    | null => exact absurd rfl hv
    | verbatim => exact ⟨rfl, rfl⟩
    | shapeless _ hroute' => cases hroute.symm.trans hroute'
    | converted _ hseeks => exact absurd hroute hseeks.ne_verbatim
  | shapeless hv hroute hshape =>
    cases h' with
    | null => exact absurd rfl hv
    | verbatim _ hroute' => cases hroute.symm.trans hroute'
    | shapeless => exact ⟨rfl, rfl⟩
    | converted _ hseeks => exact absurd hshape (hroute ▸ hseeks).shape?_ne_none
  | converted hv hseeks hfound hrun hstored =>
    cases h' with
    | null => exact absurd rfl hv
    | verbatim _ hroute => exact absurd hroute hseeks.ne_verbatim
    | shapeless _ hroute hshape => exact absurd hshape (hroute ▸ hseeks).shape?_ne_none
    | converted _ hseeks' hfound' hrun' hstored' =>
      have hfound' := hseeks.unique hseeks' ▸ hfound'.search_eq
      cases hfound.search_eq.symm.trans hfound'
      cases hrun.symm.trans hrun'
      exact ⟨hstored.unique hstored', rfl⟩

/-- No other values come of the elements. -/
theorem Routine.Elements.unique {ws' : List Value} {s'' : Session}
    (h : r.Elements plan depth state store s vs ws s')
    (h' : r.Elements plan depth state store s vs ws' s'') : ws' = ws ∧ s'' = s' := by
  induction h generalizing ws' s'' with
  | nil =>
    cases h'
    exact ⟨rfl, rfl⟩
  | cons helement _ ih =>
    cases h' with
    | cons helement' hs' =>
      obtain ⟨rfl, rfl⟩ := helement.unique helement'
      obtain ⟨rfl, rfl⟩ := ih hs'
      exact ⟨rfl, rfl⟩

/-- The first element fails. -/
theorem Routine.ElementFails.head (h : r.ElementFails plan depth state s v stop s') :
    r.ElementsFail plan depth state store s (v :: vs) stop s' :=
  ⟨[], v, vs, [], s, rfl, .nil, h⟩

/-- A later element fails. -/
theorem Routine.ElementsFail.cons (h : r.Element plan depth state s v w s₁)
    (hs : r.ElementsFail plan depth state store (store w s₁) vs stop s') :
    r.ElementsFail plan depth state store s (v :: vs) stop s' := by
  obtain ⟨before, v', after, ws, s₂, rfl, hbefore, hfails⟩ := hs
  exact ⟨v :: before, v', after, w :: ws, s₂, rfl, .cons h hbefore, hfails⟩

end

section

variable {mappings : Mapping → Prop} {pool : Pool} {r : Routine} {s : Session}
  {plan : CollectionPlan} {mapper : CollectionMapper} {depth : Nat} {frame : Frame}

/-- The results are held back until all elements have been converted. -/
theorem CollectionMapper.Realizes.mapElements_does (hm : mapper.Realizes pool plan)
    (hbody : r.body = .collection mapper)
    (hlinkage : frame.linkage = r.linkage) (vs : List Value) (h : s.Serves mappings pool r) :
    Ensures (mapper.mapElements (Routine.run depth) frame vs) s
      (fun ws s' => r.Elements plan depth frame.state (fun _ s => s) s vs ws s')
      fun stop s' => r.ElementsFail plan depth frame.state (fun _ s => s) s vs stop s' := by
  unfold CollectionMapper.mapElements
  induction vs generalizing s with
  | nil => exact Ensures.pure .nil
  | cons v vs ih =>
    rw [List.mapM_cons]
    refine Ensures.bind ((hm.mapElement_does hbody h hlinkage v).mono ?_
      fun stop s' hstop => hstop.head)
    rintro w s₁ ⟨helement, hserves⟩
    refine Ensures.bind ((ih hserves).mono ?_ fun stop s' hstop => .cons helement hstop)
    exact fun ws s' hws => Ensures.pure (.cons helement hws)

/-- The session in which a value has been appended to a sequence. -/
def Session.push (a : Address) (w : Value) (s : Session) : Session :=
  { s with heap := s.heap.push a w }

/-- The sequence at the place holds these items, and nothing else refers to it. -/
structure Session.Fills (mappings : Mapping → Prop) (pool : Pool) (r : Routine) (a : Address)
    (target : ShapeId) (items : List Value) (s : Session) : Prop where
  serves : s.Serves mappings pool r
  container : s.heap.get? a = some (.seq target items.toArray)
  hidden : Heap.Confined (· ≠ a) s.heap s.heap

variable {a : Address} {target : ShapeId} {items : List Value}
  (hmappings : ∀ m, mappings m → m.Confined (· ≠ a)) (hstate : frame.state.Within (· ≠ a))

theorem Session.Fills.push (h : s.Fills mappings pool r a target items) (w : Value) :
    (s.push a w).Fills mappings pool r a target (items ++ [w]) := by
  have hget (b : Address) : (s.push a w).heap.get? b =
      if a = b then (s.heap.get? b).map (Instance.mapContents (·.push w)) else s.heap.get? b :=
    Heap.get?_push a w s.heap b
  refine ⟨h.serves.withHeap _, ?_, Nat.le_refl _, fun _ _ => rfl, fun b i hb hi => ?_⟩
  · rw [hget, if_pos rfl, h.container, Option.map_some, Instance.mapContents, List.push_toArray]
  · rw [hget, if_neg (Ne.symm hb)] at hi
    exact h.hidden.parts b i hb hi

include hmappings hstate

/-- An element is converted without the sequence, and then appended to it. -/
theorem CollectionMapper.Realizes.appendElement_does (hm : mapper.Realizes pool plan)
    (hbody : r.body = .collection mapper) (hlinkage : frame.linkage = r.linkage)
    (h : s.Fills mappings pool r a target items) {v : Value} (hv : v.Within (· ≠ a)) :
    Ensures (mapper.appendElement (Routine.run depth) frame a v) s
      (fun _ s' => ∃ w s₁, r.Element plan depth frame.state s v w s₁ ∧ s' = s₁.push a w ∧
        s'.Fills mappings pool r a target (items ++ [w]))
      fun stop s' => r.ElementFails plan depth frame.state s v stop s' := by
  obtain ⟨owner, howned⟩ := h.serves.coherent
  obtain ⟨hlt, howner, -, -⟩ := howned.madeIn h.serves.knows
  have hnew (b : Address) (hb : s.heap.size ≤ b.index) : b ≠ a := by
    rintro rfl
    exact absurd (Heap.lt_size_of_get? h.container) (Nat.not_lt.mpr hb)
  have hconfines : Session.Confines (· ≠ a)
      (fun s' => s.Evolves mappings owner s' ∧ Heap.Confined (· ≠ a) s.heap s'.heap)
      (Routine.run depth) ⟨.null, .null, frame.state, frame.linkage⟩ :=
    howned.confines (Routine.run_confined hmappings depth) (Routine.run_evolving depth)
      (hlinkage ▸ hlt) (hlinkage ▸ howner) hnew .null .null hstate
  refine Ensures.bind (((hm.mapElement_does hbody h.serves hlinkage v).and
    (hconfines.mapElement mapper hv s ⟨.refl howned, h.hidden⟩)).mono ?_
      fun stop s' hstop => hstop.1)
  rintro w s₁ ⟨⟨helement, hserves⟩, ⟨-, hconfined⟩, -⟩
  have hfills : s₁.Fills mappings pool r a target items :=
    ⟨hserves, (hconfined.kept a fun hne => hne rfl).trans h.container, hconfined.self⟩
  exact ⟨w, s₁, helement, rfl, hfills.push w⟩

/-- The sequence gets one result after the other. -/
theorem CollectionMapper.Realizes.appendElements_does (hm : mapper.Realizes pool plan)
    (hbody : r.body = .collection mapper) (hlinkage : frame.linkage = r.linkage) (vs : List Value)
    (hvs : ∀ v ∈ vs, v.Within (· ≠ a)) (h : s.Fills mappings pool r a target items) :
    Ensures (mapper.appendElements (Routine.run depth) frame a vs) s
      (fun _ s' => ∃ ws, r.Elements plan depth frame.state (Session.push a) s vs ws s' ∧
        s'.heap.get? a = some (.seq target (items ++ ws).toArray))
      fun stop s' => r.ElementsFail plan depth frame.state (Session.push a) s vs stop s' := by
  unfold CollectionMapper.appendElements
  induction vs generalizing s items with
  | nil => exact Ensures.pure ⟨[], .nil, by rw [List.append_nil]; exact h.container⟩
  | cons v vs ih =>
    obtain ⟨hv, hvs⟩ := List.forall_mem_cons.mp hvs
    refine Ensures.bind ((hm.appendElement_does hmappings hstate hbody hlinkage h hv).mono ?_
      fun stop s' hstop => hstop.head)
    rintro - s' ⟨w, s₁, helement, rfl, hfills⟩
    refine (ih hvs hfills).mono ?_ fun stop s' hstop => .cons helement hstop
    rintro - s' ⟨ws, hws, hcontainer⟩
    exact ⟨w :: ws, .cons helement hws, by rw [hcontainer, List.append_assoc]; rfl⟩

end

/-! ## Collections -/

/-- The session with a new sequence of the shape. -/
def Session.withSequence (target : ShapeId) (items : List Value) (s : Session) : Session :=
  { s with heap := (s.heap.alloc (.seq target items.toArray)).2 }

/-- Nothing refers to a place where there is no instance, and converters get at no instance that is
made later unless they are given it. -/
structure Session.Whole (mappings : Mapping → Prop) (s : Session) (values : List Value) :
    Prop where
  parts : ∀ a i, s.heap.get? a = some i → ∀ w ∈ i.parts, w.Within (·.index < s.heap.size)
  values : ∀ v ∈ values, v.Within (·.index < s.heap.size)
  converters : ∀ p : Address → Prop, (∀ a, a.index < s.heap.size → p a) →
    ∀ m, mappings m → m.Confined p

/-- A new container can be made, and none is supplied. -/
structure CollectionPlan.Unsupplied (plan : CollectionPlan) (s : Session) (destination : Value) :
    Prop where
  constructible : plan.Constructible s.pool
  unsupplied : CollectionMapper.sequenceAt? s.heap plan.target destination = none

/-- Arrays and lists are made of all results at once. Any other container is made first, and gets
one result after the other. -/
inductive Routine.Collects (r : Routine) (plan : CollectionPlan) (depth : Nat) (state : Value)
    (s : Session) (xs : List Value) : Address → List Value → Session → Prop
  | whole {ws : List Value} {s₁ : Session} (hkind : plan.kind ≠ .genericInsertable)
    (h : r.Elements plan depth state (fun _ s => s) s xs ws s₁) :
    Collects r plan depth state s xs ⟨s₁.heap.size⟩ ws (s₁.withSequence plan.target ws)
  | filled {ws : List Value} {s' : Session} (hkind : plan.kind = .genericInsertable)
    (h : r.Elements plan depth state (Session.push ⟨s.heap.size⟩)
      (s.withSequence plan.target []) xs ws s') :
    Collects r plan depth state s xs ⟨s.heap.size⟩ ws s'

/-- Some element fails, and what has been made until then is left behind. -/
inductive Routine.CollectsNot (r : Routine) (plan : CollectionPlan) (depth : Nat) (state : Value)
    (s : Session) (xs : List Value) (stop : Stop) (s' : Session) : Prop
  | whole (hkind : plan.kind ≠ .genericInsertable)
    (h : r.ElementsFail plan depth state (fun _ s => s) s xs stop s') :
    CollectsNot r plan depth state s xs stop s'
  | filled (hkind : plan.kind = .genericInsertable)
    (h : r.ElementsFail plan depth state (Session.push ⟨s.heap.size⟩)
      (s.withSequence plan.target []) xs stop s') : CollectsNot r plan depth state s xs stop s'

/-- What the computation ends with is a new collection, or the error of the first element that
fails. -/
def Routine.CollectsBy (r : Routine) (plan : CollectionPlan) (depth : Nat) (state : Value)
    (s : Session) (xs : List Value) (x : RunM Value) : Prop :=
  Ensures x s
    (fun w s' => ∃ a items, w = .ref a ∧ s.heap.get? a = none ∧
      s'.heap.get? a = some (.seq plan.target items.toArray) ∧
      r.Collects plan depth state s xs a items s')
    fun stop s' => r.CollectsNot plan depth state s xs stop s'

section

variable {mappings : Mapping → Prop} {r : Routine} {s : Session} {plan : CollectionPlan}
  {mapper : CollectionMapper} {depth : Nat} {source destination state : Value}

/-- The elements of the source are the same once the container is there. -/
theorem Session.Whole.elements?_withSequence {values : List Value} (h : s.Whole mappings values)
    (hsource : source ∈ values) (target : ShapeId) :
    (s.withSequence target []).heap.elements? source = s.heap.elements? source :=
  Heap.elements?_eq_of_within (h.values source hsource) (fun a i _ => h.parts a i) fun a ha => by
    unfold withSequence
    rw [Heap.get?_alloc, if_neg (Nat.ne_of_lt ha)]

/-- The new container is at a place of its own. -/
theorem Session.Whole.fills {values : List Value} {pool : Pool} (h : s.Whole mappings values)
    (hserves : s.Serves mappings pool r) (target : ShapeId) :
    (s.withSequence target []).Fills mappings pool r ⟨s.heap.size⟩ target [] := by
  refine ⟨hserves.withHeap _, Heap.get?_alloc_size .., Nat.le_refl _, fun _ _ => rfl, ?_⟩
  intro a i ha hi w hw
  have hne : a.index ≠ s.heap.size := fun heq => ha (congrArg Address.mk heq)
  unfold withSequence at hi
  rw [Heap.get?_alloc, if_neg hne] at hi
  refine (h.parts a i hi w hw).imp fun b hb => ?_
  rintro rfl
  exact Nat.lt_irrefl _ hb

/-- No instance is taken away while elements are converted. -/
theorem Session.Whole.mapElements_grows {values : List Value} {pool : Pool}
    (h : s.Whole mappings values) (hserves : s.Serves mappings pool r) (mapper : CollectionMapper)
    (vs : List Value) :
    Ensures (mapper.mapElements (Routine.run depth) ⟨source, destination, state, r.linkage⟩ vs) s
      (fun _ s' => s.heap.size ≤ s'.heap.size) fun _ s' => s.heap.size ≤ s'.heap.size := by
  obtain ⟨owner, howned⟩ := hserves.coherent
  obtain ⟨hlt, howner, -, -⟩ := howned.madeIn hserves.knows
  have hwithin (v : Value) : v.Within fun _ => True := fun _ _ => trivial
  have hclosed : Heap.Confined (fun _ => True) s.heap s.heap :=
    ⟨Nat.le_refl _, fun _ _ => rfl, fun _ _ _ _ w _ => hwithin w⟩
  have hconfines : Session.Confines (fun _ => True)
      (fun s' => s.Evolves mappings owner s' ∧ Heap.Confined (fun _ => True) s.heap s'.heap)
      (Routine.run depth) ⟨source, destination, state, r.linkage⟩ :=
    howned.confines (Routine.run_confined (h.converters _ fun _ _ => trivial) depth)
      (Routine.run_evolving depth) hlt howner (fun _ _ => trivial) (hwithin _) (hwithin _)
      (hwithin _)
  refine (hconfines.mapElements mapper (fun v _ => hwithin v) s ⟨.refl howned, hclosed⟩).mono ?_ ?_
  · exact fun _ s' hs' => hs'.1.2.size
  · exact fun _ s' hs' => hs'.2.size

/-- Arrays and lists. -/
theorem CollectionMapper.Realizes.run_whole {values : List Value} {pool : Pool}
    (hm : mapper.Realizes pool plan) (hbody : r.body = .collection mapper)
    (h : s.Whole mappings values) (hserves : s.Serves mappings pool r) (hsource : source ≠ .null)
    (hkind : plan.kind ≠ .genericInsertable) :
    r.CollectsBy plan depth state s ((s.heap.elements? source).getD [source])
      (mapper.run (Routine.run depth) ⟨source, destination, state, r.linkage⟩) := by
  refine .of_eq (mapper.run_of_whole (hm.kind ▸ hkind) hsource s) ?_
  refine Ensures.bind (((hm.mapElements_does hbody rfl _ hserves).and
    (h.mapElements_grows hserves mapper _)).mono ?_ fun stop s' hstop => .whole hkind hstop.1)
  rintro items s₁ ⟨hitems, hsize⟩
  rw [hm.target]
  exact ⟨⟨s₁.heap.size⟩, items, rfl, Heap.get?_eq_none_iff.mpr hsize, Heap.get?_alloc_size ..,
    .whole hkind hitems⟩

/-- Containers of another kind. -/
theorem CollectionMapper.Realizes.run_filled {pool : Pool}
    (hm : mapper.Realizes pool plan) (hbody : r.body = .collection mapper)
    (h : s.Whole mappings [source, state]) (hserves : s.Serves mappings pool r)
    (hsource : source ≠ .null) (hkind : plan.kind = .genericInsertable)
    (hempty : mapper.MakesEmpty plan.target)
    (hnone : CollectionMapper.sequenceAt? s.heap plan.target destination = none) :
    r.CollectsBy plan depth state s ((s.heap.elements? source).getD [source])
      (mapper.run (Routine.run depth) ⟨source, destination, state, r.linkage⟩) := by
  have hnull : ¬source.isNull = true := fun hnull => hsource (Value.isNull_iff.mp hnull)
  have hwithin {v : Value} (hv : v ∈ [source, state]) : v.Within (· ≠ ⟨s.heap.size⟩) := by
    refine (h.values v hv).imp fun a ha => ?_
    rintro rfl
    exact Nat.lt_irrefl _ ha
  have hmappings : ∀ m, mappings m → m.Confined (· ≠ ⟨s.heap.size⟩) := by
    refine h.converters _ fun a ha => ?_
    rintro rfl
    exact Nat.lt_irrefl _ ha
  have hcontainer : mapper.container? (Routine.run depth)
      ⟨source, destination, state, r.linkage⟩ s =
        .ok (some ⟨s.heap.size⟩) (s.withSequence plan.target []) :=
    hempty.container?_eq_ok _ (hm.target.symm ▸ hnone)
  have hfills := h.fills hserves plan.target
  have helements := h.elements?_withSequence List.mem_cons_self plan.target
  unfold CollectionMapper.run
  dsimp only
  rw [if_neg hnull, hm.kind, hkind]
  refine Ensures.bind ?_
  unfold Ensures
  rw [hcontainer]
  change Ensures (mapper.appendElements _ _ _
    (((s.withSequence plan.target []).heap.elements? source).getD [source]) >>= _) _ _ _
  rw [helements]
  refine Ensures.bind ((hm.appendElements_does hmappings (hwithin (by simp)) hbody rfl _
    (by rw [← helements]; exact hfills.hidden.elements (hwithin List.mem_cons_self)) hfills).mono ?_
      fun stop s' hstop => .filled hkind hstop)
  rintro - s' ⟨items, hitems, hget⟩
  exact Ensures.pure ⟨⟨s.heap.size⟩, items, rfl, Heap.get?_size _, hget, .filled hkind hitems⟩

/-- There are as many items as elements. -/
theorem Routine.Collects.length_eq {xs items : List Value} {a : Address} {s' : Session}
    (h : r.Collects plan depth state s xs a items s') : items.length = xs.length := by
  cases h with
  | whole _ h => exact h.length_eq
  | filled _ h => exact h.length_eq

/-- No other items come of the elements. -/
theorem Routine.Collects.unique {xs items items' : List Value} {a b : Address} {s' s'' : Session}
    (h : r.Collects plan depth state s xs a items s')
    (h' : r.Collects plan depth state s xs b items' s'') : b = a ∧ items' = items ∧ s'' = s' := by
  cases h with
  | whole hkind h =>
    cases h' with
    | whole _ h' =>
      obtain ⟨rfl, rfl⟩ := h.unique h'
      exact ⟨rfl, rfl, rfl⟩
    | filled hkind' => exact absurd hkind' hkind
  | filled hkind h =>
    cases h' with
    | whole hkind' => exact absurd hkind hkind'
    | filled _ h' =>
      obtain ⟨rfl, rfl⟩ := h.unique h'
      exact ⟨rfl, rfl, rfl⟩

/-- A routine that a collection is planned for makes a new collection of what becomes of the
elements of the source, or ends with the error of the first one that fails. -/
theorem Routine.run_collection (hs : s.Reachable mappings) (hr : s.Knows r)
    (hplan : r.linkage.mapping.plan s.pool r.key.source r.key.target = .ok (.collection plan))
    (hsource : source ≠ .null) (hwhole : s.Whole mappings [source, state])
    (hnew : plan.kind = .genericInsertable → plan.Unsupplied s destination) :
    Ensures (r.run (depth + 1) source destination state) s
      (fun w s' => ∃ a items, w = .ref a ∧ s.heap.get? a = none ∧
        s'.heap.get? a = some (.seq plan.target items.toArray) ∧
        items.length = ((s.heap.elements? source).getD [source]).length ∧
        r.Collects plan depth state s ((s.heap.elements? source).getD [source]) a items s')
      fun stop s' =>
        r.CollectsNot plan depth state s ((s.heap.elements? source).getD [source]) stop s' := by
  have hserves : s.Serves mappings s.pool r := ⟨hs.coherent, rfl, hr⟩
  obtain ⟨owner, howned⟩ := hserves.coherent
  obtain ⟨-, -, -, hmade⟩ := howned.madeIn hr
  obtain ⟨mapper, hbody, hm, hempty⟩ := hmade.exists_mapper hplan
  have hrun : r.CollectsBy plan depth state s ((s.heap.elements? source).getD [source])
      (r.run (depth + 1) source destination state) := by
    unfold Routine.run
    simp only [hbody]
    by_cases hkind : plan.kind = .genericInsertable
    · obtain ⟨hconstructible, hnone⟩ := hnew hkind
      exact hm.run_filled hbody hwhole hserves hsource hkind (hempty hkind hconstructible) hnone
    · exact hm.run_whole hbody hwhole hserves hsource hkind
  refine hrun.mono ?_ fun _ _ h => h
  rintro w s' ⟨a, items, hw, ha, hget, hcollects⟩
  exact ⟨a, items, hw, ha, hget, hcollects.length_eq, hcollects⟩

end

/-! ## A bag of integers -/

namespace Bag

def operations : List Pool.Operation :=
  [.insertable "Bag" (some ShapeId.int)]

/-- A list of a text, of null and of an integer. -/
def heap : Heap where
  instances := #[.seq ShapeId.untypedList #[.str ⟨0⟩ "7", .null, .int 2]]
  tokens := 1

def session : Session :=
  .compiling operations heap Mapping.initial ShapeId.untypedList ⟨7⟩

def routine : Routine :=
  Session.compiled operations heap Mapping.initial ShapeId.untypedList ⟨7⟩

def plan : CollectionPlan where
  kind := .genericInsertable
  target := ⟨7⟩
  route := .dynamic (some ShapeId.int)
  inlineElements := true
  construct := some ⟨[], .returns (.newInstance ⟨7⟩)⟩

theorem reachable : session.Reachable (· = Mapping.initial) :=
  Session.reachable_compiling operations heap Mapping.initial ShapeId.untypedList ⟨7⟩

theorem knows : session.Knows routine :=
  (@Session.knows_of_cached? session ⟨0⟩ ⟨ShapeId.untypedList, ⟨7⟩, Mapping.initial.id⟩ rfl).1

theorem plan_eq : routine.linkage.mapping.plan session.pool routine.key.source routine.key.target =
    .ok (.collection plan) :=
  rfl

theorem heap_eq : session.heap = heap :=
  (Session.pool_and_heap_compiling operations heap Mapping.initial ShapeId.untypedList ⟨7⟩).2

theorem whole : session.Whole (· = Mapping.initial) [.ref ⟨0⟩, .null] := by
  have hlt : 0 < heap.size := Nat.zero_lt_one
  refine ⟨fun a i hi w hw => ?_, fun v hv => ?_, fun p _ m hm => ?_⟩
  · rw [heap_eq] at hi
    obtain rfl : a = ⟨0⟩ := congrArg Address.mk (Nat.lt_one_iff.mp (Heap.lt_size_of_get? hi))
    obtain rfl := Option.some.inj hi
    change w ∈ [.str ⟨0⟩ "7", .null, .int 2] at hw
    simp only [List.mem_cons, List.not_mem_nil, or_false] at hw
    rcases hw with rfl | rfl | rfl
    · have hstr : Value.IsPrimitive .str (.str ⟨0⟩ "7") := trivial
      exact hstr.within
    · exact .null
    · have hint : Value.IsPrimitive .int (.int 2) := trivial
      exact hint.within
  · rw [heap_eq]
    simp only [List.mem_cons, List.not_mem_nil, or_false] at hv
    rcases hv with rfl | rfl
    · exact Value.Within.ref.mpr hlt
    · exact .null
  · subst hm
    exact fun c hc => nomatch hc

end Bag

/-- The text becomes an integer, and null stays null. Nothing else comes of the three elements. -/
theorem Routine.run_collection_bag : ∃ a items s',
    Bag.routine.run 2 (.ref ⟨0⟩) .null .null Bag.session = .ok (.ref a) s' ∧
      items = [.int 7, .null, .int 2] ∧ Bag.session.heap.get? a = none ∧
      s'.heap.get? a = some (.seq ⟨7⟩ items.toArray) ∧
      Bag.routine.Collects Bag.plan 1 .null Bag.session [.str ⟨0⟩ "7", .null, .int 2] a items s' ∧
      ∀ b items' s'', Bag.routine.Collects Bag.plan 1 .null Bag.session
        [.str ⟨0⟩ "7", .null, .int 2] b items' s'' → items' = [.int 7, .null, .int 2] := by
  have hrun : Ensures (Bag.routine.run 2 (.ref ⟨0⟩) .null .null) Bag.session _ _ :=
    Routine.run_collection Bag.reachable Bag.knows Bag.plan_eq nofun Bag.whole
      fun _ => ⟨⟨_, rfl, rfl⟩, rfl⟩
  obtain ⟨s', hok, hresult⟩ : ∃ s', Bag.routine.run 2 (.ref ⟨0⟩) .null .null Bag.session =
      .ok (.ref ⟨1⟩) s' ∧ s'.heap.get? ⟨1⟩ = some (.seq ⟨7⟩ #[.int 7, .null, .int 2]) :=
    ⟨_, rfl, rfl⟩
  unfold Ensures at hrun
  rw [hok] at hrun
  obtain ⟨a, items, ha, hnew, hitems, -, hcollects⟩ := hrun
  obtain rfl := Value.ref.inj ha
  have heq : items = [.int 7, .null, .int 2] := by
    rw [hresult] at hitems
    exact (Array.mk.inj (Instance.seq.inj (Option.some.inj hitems)).2).symm
  exact ⟨⟨1⟩, items, s', hok, heq, hnew, hitems, hcollects, fun b items' s'' h =>
    (hcollects.unique h).2.1.trans heq⟩

end Reshape
