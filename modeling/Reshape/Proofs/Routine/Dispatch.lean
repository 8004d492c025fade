import Reshape.Proofs.Routine.Bodies
import Reshape.Proofs.Routine.Copying
import Reshape.Proofs.Routine.Frame
import Reshape.Proofs.Routine.Imaging
import Reshape.Proofs.Routine.Request
import Reshape.Proofs.Value.Conformance

/-!
# Dispatch

Under a deep mapping without converters, the routine from `any` does with a value what the routine
from the shape of the value does, into whatever destination : the same value comes of it or the same
error, with the same values in the heap and the same calls (`Session.Reachable.dispatch_coherent`).

The two take different ways. The routine from `any` may have to look at the shape of the value, or
of each element, where the other one has a link ; and to copy into `any` is to ask for one routine
more. What they ask for is akin all the same (`Pool.Akin`) : both pairs of shapes are for values of
that shape, and lead to the same target, or to targets that take such values as they are. Routines
for akin pairs end alike (`Routine.run_dispatches`), by induction on the depth of the one run ; the
other may need another depth.
-/

set_option linter.unusedSectionVars false

namespace Reshape

/-! ## Routines for one value -/

/-- A deep mapping without converters, in a pool in which `any` and the primitives are the only
shapes of their kinds. -/
structure Dispatcher (mappings : Mapping → Prop) (mapping : Mapping) (pool : Pool) : Prop where
  grows : Pool.initial.GrowsTo pool
  any : ∀ id known, pool.descriptor id = .ok known → known.kind = .any → id = ShapeId.any
  primitive : ∀ id known p, pool.descriptor id = .ok known → known.kind = .primitive p →
    id = p.shape
  allows : mappings mapping
  unique : ∀ m m', mappings m → mappings m' → m.id = m'.id → m = m'
  deep : mapping.copyMode = .deep
  converters : mapping.converters = []

/-- Both pairs of shapes are for values of the shape `own`, and for the same target, or else, where
nothing is supplied, for targets that take these values. -/
structure Pool.Akin (pool : Pool) (own : ShapeId) (d : Value) (S T S' T' : ShapeId) : Prop where
  left : pool.Takes S own
  right : pool.Takes S' own
  target : pool.stripNullable T = pool.stripNullable T' ∨
    d = .null ∧ pool.Takes T own ∧ pool.Takes T' own

section

variable {mappings : Mapping → Prop} {mapping : Mapping} {pool : Pool}
  {typed : Address → ShapeId → Prop} {start : Heap} {s t : Session} {r r' : Routine}
  {S T S' T' own place place' : ShapeId} {x y : RunM Routine} {v v' d : Value}

theorem Pool.Akin.symm (h : pool.Akin own d S T S' T') : pool.Akin own d S' T' S T :=
  ⟨h.right, h.left, h.target.imp Eq.symm fun h => ⟨h.1, h.2.2, h.2.1⟩⟩

variable (hc : Dispatcher mappings mapping pool)

include hc

/-- A place takes the values that conform to its shape. -/
theorem Dispatcher.takes (htyped : start.TypedBy pool typed) (hv : v.Fits pool typed place)
    (hown : start.shape? v = some own) : pool.Takes place own := by
  induction hv with
  | null => cases hown
  | @primitive p v _ hv hp =>
    obtain rfl : own = p.shape := by
      cases p <;> cases v <;> first | exact hv.elim | exact (Option.some.inj hown).symm
    obtain ⟨below, known, hb, hkind⟩ := hp
    exact ⟨below, known, hb, hkind.imp_right (hc.primitive _ _ _ hb.descriptor)⟩
  | struct hp _ _ _ _ _ _ =>
    obtain rfl := Option.some.inj hown
    exact hp
  | boxed _ _ ih => exact ih hown
  | ref ha hp =>
    obtain ⟨i, hi, rfl, -⟩ := htyped _ _ ha
    rw [Heap.shape?, hi] at hown
    obtain rfl := Option.some.inj hown
    exact hp

/-- Below a place that takes values of the shape there is `any` or the shape. -/
theorem Dispatcher.below_of_takes {known : Descriptor} (hb : pool.Below own own known)
    (h : pool.Takes place own) :
    pool.Below place ShapeId.any (.ofAny "any") ∨ pool.Below place own known := by
  obtain ⟨below, known', hb', hany | rfl⟩ := h
  · obtain rfl := hc.any _ _ hb'.descriptor hany
    obtain rfl := Except.ok.inj ((Pool.descriptor_any hc.grows).symm.trans hb'.descriptor)
    exact Or.inl hb'
  · obtain ⟨-, rfl⟩ := hb.unique hb'.self
    exact Or.inr hb'

theorem Dispatcher.exists_below_of_takes {known : Descriptor} (hb : pool.Below own own known)
    (h : pool.Takes place own) : ∃ source sourceShape, pool.Below place source sourceShape ∧
      (source = ShapeId.any ∨ source = own) := by
  rcases hc.below_of_takes hb h with h | h
  · exact ⟨_, _, h, Or.inl rfl⟩
  · exact ⟨_, _, h, Or.inr rfl⟩

/-! ## Runs without a destination -/

section

variable (htyped : start.TypedBy pool typed) (hs : s.Holds mappings pool start)

include htyped

omit hc in
theorem Heap.TypedBy.kept {heap : Heap} (hk : start.Kept heap) : heap.TypedBy pool typed := by
  intro a own ha
  obtain ⟨i, hi, hshape, hfits⟩ := htyped a own ha
  exact ⟨i, hk a i hi, hshape, hfits.mono (fun _ _ h => h) fun _ b _ _ _ hb => hk b _ hb⟩

include hs

/-- A routine that makes a new value changes nothing that was there. -/
theorem Routine.Live.run_precedes (hr : r.Live mapping.id s) (hv : v.Fits pool typed r.key.source)
    (depth : Nat) (state : Value) :
    Ensures (r.run depth v .null state) s (fun _ => s.Precedes mappings)
      fun _ => s.Precedes mappings := by
  obtain ⟨owner, howned, -⟩ := hr.exists_owner hs
  let c := Contract.owning pool typed s.heap .null
  have hinv : Contract.Owns s.heap .null s.heap := by
    refine ⟨Nat.le_refl _, fun _ _ => rfl, fun a i ha hi => ?_⟩
    rcases ha with hle | hreach
    · exact absurd (Heap.lt_size_of_get? hi) (Nat.not_lt.mpr hle)
    · exact absurd hreach (Heap.not_reaches .null a)
  have hallows (m : Mapping) (hm : mappings m) (hid : m.id = mapping.id) : c.allows m := by
    obtain rfl := hc.unique _ _ hm hc.allows hid
    exact ⟨hc.converters, hc.deep⟩
  have hgives := (Contract.owning_sound (Heap.TypedBy.kept htyped hs.kept) hc.grows).run_meets
    hallows depth ⟨hs.coherent, hs.pool_eq, hinv⟩ hr.knows hr.mapping state v .null (Or.inl hv)
    .null
  have hevolves := Routine.run_evolving depth owner s r howned hr.knows v .null state
  have hprecedes (s' : Session) (hl : c.Leads pool mappings s s')
      (he : s.Evolves mappings owner s') : s.Precedes mappings s' := by
    refine ⟨hl.held.coherent, he.pool, he.alive, hl.knows, fun a i hi => ?_⟩
    refine (hl.held.inv.foreign a ?_).trans hi
    rintro (hle | hreach)
    · exact absurd (Heap.lt_size_of_get? hi) (Nat.not_lt.mpr hle)
    · exact absurd hreach (Heap.not_reaches .null a)
  exact (hgives.and hevolves).mono (fun _ s' h => hprecedes s' h.1.1 h.2)
    fun _ s' h => hprecedes s' h.1 h.2

theorem Session.Asks.precedes (hx : s.Asks mappings mapping S T x) (hv : v.Fits pool typed S)
    (depth : Nat) (state : Value) :
    Ensures (x >>= fun r => r.run depth v .null state) s (fun _ => s.Precedes mappings)
      fun _ => s.Precedes mappings := by
  obtain ⟨owner, linkage, -, rfl, halive, hsearches⟩ := hx
  refine Ensures.bind (hsearches.mono ?_ fun _ s' h => .of_evolves h.1.1 h.1.2)
  rintro r s₁ ⟨hfinds, -⟩
  obtain ⟨hl, -, hr, rfl, -⟩ := hfinds.live halive
  have hrun := hr.run_precedes hc htyped (hs.precedes hl) hv depth state
  exact hrun.mono (fun _ _ h => hl.trans h) fun _ _ h => hl.trans h

end

/-! ## Elements -/

/-- Run to the depth, routines for one value under akin pairs of shapes end alike. -/
def Dispatches (mappings : Mapping → Prop) (mapping : Mapping) (pool : Pool)
    (typed : Address → ShapeId → Prop) (start : Heap) (state : Value) (depth : Nat) : Prop :=
  ∀ {s t : Session} {S T S' T' own : ShapeId} {x y : RunM Routine} {v d : Value},
    s.Same t → s.Holds mappings pool start → t.Holds mappings pool start →
    s.Asks mappings mapping S T x → t.Asks mappings mapping S' T' y →
    v.Fits pool typed own → start.shape? v = some own → pool.Akin own d S T S' T' →
    Attained Session.Same (x >>= fun r => r.run depth v d state)
      (fun n => y >>= fun r => r.run n v d state) s t

/-- Both mappers take the value through routines under akin pairs of shapes, and store what comes of
it in the same way. -/
def CollectionMapper.Akin (pool : Pool) (typed : Address → ShapeId → Prop) (start : Heap)
    (mapper mapper' : CollectionMapper) (e : Value) : Prop :=
  ∀ own, start.shape? e = some own → e.Fits pool typed own → ∃ S T S' T' inline,
    mapper.transfer.Asks own S T false inline ∧ mapper'.transfer.Asks own S' T' false inline ∧
      pool.Akin own .null S T S' T'

section

variable (htyped : start.TypedBy pool typed) {state : Value} {depth : Nat}
  (ih : Dispatches mappings mapping pool typed start state depth)
  {mapper mapper' : CollectionMapper} {frame frame' : Frame} (hlinkage : frame.linkage = r.linkage)
  (hlinkage' : frame'.linkage = r'.linkage) (hstate : frame.state = state)
  (hstate' : frame'.state = state)

include htyped ih hlinkage hlinkage' hstate hstate'

/-- Two mappers that are akin make the same of an element, if the second has depth enough. -/
theorem CollectionMapper.Akin.mapElement_attained {e : Value}
    (h : mapper.Akin pool typed start mapper' e) (he : e.Fits pool typed place) (hsame : s.Same t)
    (hs : s.Holds mappings pool start) (ht : t.Holds mappings pool start)
    (hr : r.Live mapping.id s) (hr' : r'.Live mapping.id t) :
    Attained (fun s' t' => s'.Same t' ∧ s.Precedes mappings s' ∧ t.Precedes mappings t')
      (mapper.mapElement (Routine.run depth) frame e)
      (fun n => mapper'.mapElement (Routine.run n) frame' e) s t := by
  by_cases hnull : e = .null
  · subst hnull
    exact .of_alike ⟨rfl, hsame, .refl hs.coherent, .refl ht.coherent⟩
  obtain ⟨own, known, hown, hb, -, hself⟩ := he.exists_own htyped hc.grows hnull
  obtain ⟨S, T, S', T', inline, hasks, hasks', hakin⟩ := h own hown hself
  obtain ⟨x, hx, hrun⟩ := Transfer.run_asks hc.allows hc.unique hs hr hasks hlinkage
    (hs.kept.shape?_eq hown) .null
  obtain ⟨y, hy, hrun'⟩ := Transfer.run_asks hc.allows hc.unique ht hr' hasks' hlinkage'
    (ht.kept.shape?_eq hown) .null
  have hfits (place : ShapeId) (htakes : pool.Takes place own) : e.Fits pool typed place :=
    hself.of_includes (htakes.includes hb)
  have hfound := ((ih hsame hs ht hx hy hself hown hakin).and
    (hx.precedes hc htyped hs (hfits S hakin.left) depth state)
    (fun n => hy.precedes hc htyped ht (hfits S' hakin.right) n state)).map
      (Transfer.placed inline)
  refine .of_eq ?_ (fun n => ?_) hfound
  · rw [mapElement_eq, hrun, hstate]
    rfl
  · rw [mapElement_eq, hrun', hstate']
    rfl

/-- Two mappers that are akin make the same of elements in a row. -/
theorem CollectionMapper.mapElements_attained {es : List Value}
    (h : ∀ e ∈ es, mapper.Akin pool typed start mapper' e)
    (hes : ∀ e ∈ es, e.Fits pool typed place) (hsame : s.Same t)
    (hs : s.Holds mappings pool start) (ht : t.Holds mappings pool start)
    (hr : r.Live mapping.id s) (hr' : r'.Live mapping.id t) :
    Attained Session.Same (mapper.mapElements (Routine.run depth) frame es)
      (fun n => mapper'.mapElements (Routine.run n) frame' es) s t := by
  unfold mapElements
  induction es generalizing s t with
  | nil => exact .of_alike ⟨rfl, hsame⟩
  | cons e es ih' =>
    simp only [List.mapM_cons]
    refine ((h e List.mem_cons_self).mapElement_attained hc htyped ih hlinkage hlinkage' hstate
      hstate' (hes e List.mem_cons_self) hsame hs ht hr hr').bind (fun _ _ h => h.1) ?_
    rintro w s₁ t₁ ⟨hsame₁, hl, hl'⟩
    refine (ih' (fun e he => h e (List.mem_cons_of_mem _ he))
      (fun e he => hes e (List.mem_cons_of_mem _ he)) hsame₁ (hs.precedes hl) (ht.precedes hl')
      (hr.precedes hl) (hr'.precedes hl')).bind (fun _ _ h => h) ?_
    exact fun ws _ _ hsame₂ => .of_alike ⟨rfl, hsame₂⟩

/-- An array or a list is made of what the elements become. -/
theorem CollectionMapper.run_attained (hwhole : mapper.kind = .array ∨ mapper.kind = .typedList)
    (hkind : mapper'.kind = mapper.kind) (htarget : mapper'.target = mapper.target)
    (hnull : frame.source ≠ .null) (hnull' : frame'.source ≠ .null)
    (hv : frame.source.Fits pool typed place) (hv' : frame'.source.Fits pool typed place')
    (helements : (start.elements? frame'.source).getD [frame'.source] =
      (start.elements? frame.source).getD [frame.source]) {element : ShapeId}
    (h : ∀ e ∈ (start.elements? frame.source).getD [frame.source],
      mapper.Akin pool typed start mapper' e ∧ e.Fits pool typed element) (hsame : s.Same t)
    (hs : s.Holds mappings pool start) (ht : t.Holds mappings pool start)
    (hr : r.Live mapping.id s) (hr' : r'.Live mapping.id t) :
    Attained Session.Same (mapper.run (Routine.run depth) frame)
      (fun n => mapper'.run (Routine.run n) frame') s t := by
  have hrun (mapper : CollectionMapper) (hwhole : mapper.kind = .array ∨ mapper.kind = .typedList)
      (frame : Frame) (hnull : frame.source ≠ .null) {place : ShapeId}
      (hv : frame.source.Fits pool typed place) (invoke : Invoke) (s : Session)
      (hs : s.Holds mappings pool start) :
      mapper.run invoke frame s = (do
        let items ← mapper.mapElements invoke frame
          ((start.elements? frame.source).getD [frame.source])
        RunM.onHeap (Heap.alloc (.seq mapper.target items.toArray)) : RunM Value) s := by
    have helements : sourceElements frame.source s =
        .ok ((start.elements? frame.source).getD [frame.source]) s := by
      change EStateM.Result.ok ((s.heap.elements? frame.source).getD [frame.source]) s = _
      rw [Heap.Kept.elements?_eq htyped hv hs.kept]
    unfold run
    rw [if_neg (by simpa using hnull)]
    rcases hwhole with hk | hk <;>
    · rw [hk]
      dsimp only
      change EStateM.bind (sourceElements frame.source) _ s = _
      unfold EStateM.bind
      rw [helements]
  have hitems := mapElements_attained hc htyped ih hlinkage hlinkage' hstate hstate'
    (fun e he => (h e he).1) (fun e he => (h e he).2) hsame hs ht hr hr'
  refine .of_eq (hrun mapper hwhole frame hnull hv _ s hs) (fun n => hrun mapper' (hkind ▸ hwhole)
    frame' hnull' hv' _ t ht) ?_
  rw [helements, htarget]
  exact hitems.bind (fun _ _ h => h) fun _ _ _ hsame₁ => .of_alike (hsame₁.onHeap _)

end

/-- Elements go through routines for akin pairs of shapes, whether these are known beforehand or
not. -/
theorem CollectionMapper.akin_of_between (htyped : start.TypedBy pool typed)
    {mapper mapper' : CollectionMapper} {X X' : ShapeId} (E : ShapeId)
    (hpath : mapper.path = .between X E) (hpath' : mapper'.path = .between X' E)
    (hinline : mapper'.inlineElements = mapper.inlineElements) {e : Value}
    (he : e.Fits pool typed X) (he' : e.Fits pool typed X') :
    mapper.Akin pool typed start mapper' e := by
  intro own hown hself
  have hasks (mapper : CollectionMapper) (X : ShapeId) (hpath : mapper.path = .between X E)
      (he : e.Fits pool typed X) : ∃ S T, mapper.transfer.Asks own S T false mapper.inlineElements ∧
        pool.Takes S own ∧ (T = E ∨ E = ShapeId.any ∧ T = own) := by
    rw [transfer, hpath]
    unfold ElementPath.between
    by_cases hX : X = ShapeId.any
    · rw [if_pos hX]
      refine ⟨own, _, .dynamic _ _ _, hc.takes htyped hself hown, ?_⟩
      by_cases hE : E = ShapeId.any
      · rw [if_pos hE]
        exact Or.inr ⟨hE, rfl⟩
      · rw [if_neg hE]
        exact Or.inl rfl
    · rw [if_neg hX]
      exact ⟨X, E, .linked ⟨⟨0⟩, X, E⟩ _ _, hc.takes htyped he hown, Or.inl rfl⟩
  have hany (hE : E = ShapeId.any) : pool.Takes E own := hE ▸ ⟨_, _, .any hc.grows, Or.inl rfl⟩
  have hown := hc.takes htyped hself hown
  obtain ⟨S, T, hS, htakes, hT⟩ := hasks mapper X hpath he
  obtain ⟨S', T', hS', htakes', hT'⟩ := hasks mapper' X' hpath' he'
  refine ⟨S, T, S', T', _, hS, hinline ▸ hS', htakes, htakes', ?_⟩
  rcases hT with rfl | ⟨hE, rfl⟩ <;> rcases hT' with rfl | ⟨hE', rfl⟩
  · exact Or.inl rfl
  · exact Or.inr ⟨rfl, hany hE', hown⟩
  · exact Or.inr ⟨rfl, hown, hany hE⟩
  · exact Or.inl rfl

/-! ## One target -/

section

variable (htyped : start.TypedBy pool typed) {depth : Nat} {state : Value}
  (ih : ∀ n < depth, Dispatches mappings mapping pool typed start state n) (hsame : s.Same t)
  (hs : s.Holds mappings pool start) (ht : t.Holds mappings pool start)
  (hx : s.Asks mappings mapping S T x) (hy : t.Asks mappings mapping S' T' y)
  (hown : start.shape? v = some own) {source source' target : ShapeId}
  {sourceShape sourceShape' targetShape : Descriptor} (hS : pool.Below S source sourceShape)
  (hS' : pool.Below S' source' sourceShape') (hT : pool.Below T target targetShape)
  (hT' : pool.Below T' target targetShape)

include hs hx hown hS hT in
/-- Into `any`, the routine only asks for one that copies the value. -/
theorem Session.Asks.step_into_any (hany : targetShape.kind = .any)
    (hsource : source = ShapeId.any ∨ source = own) (d state : Value) :
    (∃ s', (x >>= fun r => r.run 0 v d state) s = .error .tooDeep s') ∧
      ∃ x₁ s₁, s.Precedes mappings s₁ ∧ s.Same s₁ ∧ s₁.Asks mappings mapping own own x₁ ∧
        ∀ n, (x >>= fun r => r.run (n + 1) v d state) s =
          (x₁ >>= fun r => r.run n v .null state) s₁ := by
  have hbody := Mapping.body_into_any hc.converters hc.deep hS hT hany
  have hcopy : (Transfer.copy source).Proper ∧
      (Transfer.copy source).Asks own own own false false := by
    unfold Transfer.copy
    by_cases heq : source = ShapeId.any
    · rw [if_pos heq]
      exact ⟨nofun, .dynamic none _ _⟩
    · obtain rfl := hsource.resolve_left heq
      rw [if_neg heq]
      exact ⟨trivial, .linked ⟨⟨0⟩, source, source⟩ _ _⟩
  exact ⟨hx.run_zero hc.allows hc.unique hs ⟨_, hbody⟩ v d state,
    hx.step hc.allows hc.unique hs hcopy.1 hbody (hs.kept.shape?_eq hown) hcopy.2 d state⟩

include hsame hs ht hx hy

theorem Session.Asks.attained_of_body
    (hbody : mapping.body pool S T = mapping.body pool S' T') (depth : Nat) (v d state : Value) :
    Attained Session.Same (x >>= fun r => r.run depth v d state)
      (fun n => y >>= fun r => r.run n v d state) s t := by
  refine hx.attained hc.allows hc.unique (ht.pool_eq.trans hs.pool_eq.symm) hsame hy ?_ depth v d
    state
  rw [hs.pool_eq, hbody]

include hown hS hS' hT hT'

/-- Into `any` the value goes as a copy of its own shape. -/
theorem Session.Asks.attained_into_any (hany : targetShape.kind = .any)
    (hsource : source = ShapeId.any ∨ source = own)
    (hsource' : source' = ShapeId.any ∨ source' = own) (d : Value) :
    Attained Session.Same (x >>= fun r => r.run depth v d state)
      (fun n => y >>= fun r => r.run n v d state) s t := by
  obtain ⟨hzero, x₁, s₁, hl, hsame₁, hx₁, hrun⟩ :=
    hx.step_into_any hc hs hown hS hT hany hsource d state
  obtain ⟨-, y₁, t₁, hl', hsame₁', hy₁, hrun'⟩ :=
    hy.step_into_any hc ht hown hS' hT' hany hsource' d state
  cases depth with
  | zero => exact .inl hzero
  | succ depth =>
    refine .of_succ (.of_eq (hrun depth) hrun' ?_)
    exact attained_of_body hc ((hsame₁.symm.trans hsame).trans hsame₁') (hs.precedes hl)
      (ht.precedes hl') hx₁ hy₁ rfl depth v .null state

/-- From `any`, the shape of the value decides ; from that shape, it has decided. -/
theorem Session.Asks.attained_into_single (hany : targetShape.kind ≠ .any)
    (hcollection : targetShape.isCollection = false) {known : Descriptor}
    (hb : pool.Below own own known)
    (hsource : source = ShapeId.any ∨ source = own)
    (hsource' : source' = ShapeId.any ∨ source' = own) (d : Value) :
    Attained Session.Same (x >>= fun r => r.run depth v d state)
      (fun n => y >>= fun r => r.run n v d state) s t := by
  have hproper : (Transfer.dynamic (some target) true false).Proper := by
    intro heq
    obtain rfl := Option.some.inj heq
    exact hany (hT.self.kind_eq_any hc.grows)
  have hstrip := hT.strip.trans hT'.strip.symm
  rcases hsource with rfl | rfl
  · have hbody := Mapping.body_from_any hc.converters hS (hS.kind_eq_any hc.grows) hT hany
      hcollection
    rcases hsource' with rfl | rfl
    · exact attained_of_body hc hsame hs ht hx hy
        (Mapping.body_congr hc.converters (hS.strip.trans hS'.strip.symm) hstrip) depth v d state
    cases depth with
    | zero => exact .inl (hx.run_zero hc.allows hc.unique hs ⟨_, hbody⟩ v d state)
    | succ depth =>
      obtain ⟨x₁, s₁, hl, hsame₁, hx₁, hrun⟩ := hx.step hc.allows hc.unique hs hproper hbody
        (hs.kept.shape?_eq hown) (.dynamic (some target) true false) d state
      refine .of_eq (hrun depth) (fun _ => rfl) ?_
      exact attained_of_body hc (hsame₁.symm.trans hsame) (hs.precedes hl) ht hx₁ hy
        (Mapping.body_congr hc.converters (hb.strip.trans hS'.strip.symm)
          (hT.self.strip.trans hT'.strip.symm)) depth v d state
  · rcases hsource' with rfl | rfl
    · have hbody' := Mapping.body_from_any hc.converters hS' (hS'.kind_eq_any hc.grows) hT' hany
        hcollection
      obtain ⟨y₁, t₁, hl', hsame₁, hy₁, hrun'⟩ := hy.step hc.allows hc.unique ht hproper hbody'
        (ht.kept.shape?_eq hown) (.dynamic (some target) true false) d state
      refine .of_succ (.of_eq rfl hrun' ?_)
      exact attained_of_body hc (hsame.trans hsame₁) hs (ht.precedes hl') hx hy₁
        (Mapping.body_congr hc.converters (hS.strip.trans hb.strip.symm)
          (hT.strip.trans hT'.self.strip.symm)) depth v d state
    · exact attained_of_body hc hsame hs ht hx hy
        (Mapping.body_congr hc.converters (hS.strip.trans hS'.strip.symm) hstrip) depth v d state

omit hown

include htyped ih

/-- Into an array or a list, elements go through routines for akin pairs of shapes. -/
theorem Session.Asks.attained_into_whole {kind : CollectionKind}
    (hkind : CollectionKind.ofDescriptor? targetShape = some kind)
    (hwhole : kind = .array ∨ kind = .typedList) {inline : Bool}
    (hinline : storesInline pool targetShape.element? = .ok inline) (hnull : v ≠ .null)
    (hnull' : v' ≠ .null) (hv : v.Fits pool typed S) (hv' : v'.Fits pool typed S')
    (helements : (start.elements? v').getD [v'] = (start.elements? v).getD [v]) (d : Value) :
    Attained Session.Same (x >>= fun r => r.run depth v d state)
      (fun n => y >>= fun r => r.run n v' d state) s t := by
  let mapper (source : ShapeId) : CollectionMapper :=
    ⟨kind, target, .between source (targetShape.element?.getD ShapeId.any), inline, none⟩
  have hbody {S source : ShapeId} {sourceShape : Descriptor}
      (hS : pool.Below S source sourceShape) {T : ShapeId} (hT : pool.Below T target targetShape) :
      mapping.body pool S T = .ok (.collection (mapper (sourceElement source sourceShape))) := by
    rw [Mapping.body_into_whole hc.converters hc.deep hS hT hkind hwhole, hinline]
    rfl
  cases depth with
  | zero => exact .inl (hx.run_zero hc.allows hc.unique hs ⟨_, hbody hS hT⟩ v d state)
  | succ depth =>
    obtain ⟨r, s₁, hxs, hl, hsame₁, hr, hrbody⟩ :=
      hx.opens hc.allows hc.unique hs (hbody hS hT)
    obtain ⟨r', t₁, hyt, hl', hsame₁', hr', hrbody'⟩ :=
      hy.opens hc.allows hc.unique ht (hbody hS' hT')
    have hfound {x : RunM Routine} {r : Routine} {s s₁ : Session} (hxs : x s = .ok r s₁)
        {mapper : CollectionMapper} (hrbody : r.body = .collection mapper) (n : Nat) (v : Value) :
        (x >>= fun r => r.run (n + 1) v d state) s =
          mapper.run (Routine.run n) ⟨v, d, state, r.linkage⟩ s₁ := by
      rw [bind_of_eq_ok hxs, Routine.run_succ, hrbody, Body.run]
    refine .of_succ (.of_eq (hfound hxs hrbody depth v) (fun n => hfound hyt hrbody' n v') ?_)
    have hes := htyped.fits_element hS.self ((Value.Fits.below_iff hS).mpr hv)
    have hes' := htyped.fits_element hS'.self ((Value.Fits.below_iff hS').mpr hv')
    rw [helements] at hes'
    have hakin (e : Value) (he : e ∈ (start.elements? v).getD [v]) :
        (mapper (sourceElement source sourceShape)).Akin pool typed start
          (mapper (sourceElement source' sourceShape')) e := by
      refine CollectionMapper.akin_of_between hc htyped (targetShape.element?.getD ShapeId.any)
        ?_ ?_ ?_ (hes e he) (hes' e he) <;> rfl
    exact CollectionMapper.run_attained hc htyped (ih depth (Nat.lt_succ_self _)) rfl rfl rfl rfl
      hwhole rfl rfl hnull hnull' hv hv' helements (fun e he => ⟨hakin e he, hes e he⟩)
      ((hsame₁.symm.trans hsame).trans hsame₁') (hs.precedes hl) (ht.precedes hl') hr hr'

end

section

variable (htyped : start.TypedBy pool typed) {depth : Nat} {state : Value} {known : Descriptor}
  (ih : ∀ n < depth, Dispatches mappings mapping pool typed start state n) (hsame : s.Same t)
  (hs : s.Holds mappings pool start) (ht : t.Holds mappings pool start)
  (hx : s.Asks mappings mapping S T x) (hy : t.Asks mappings mapping S' T' y)
  (hself : v.Fits pool typed own) (hown : start.shape? v = some own) (hb : pool.Below own own known)
  (hS : pool.Takes S own) (hS' : pool.Takes S' own)

include htyped ih hsame hs ht hx hy hself hown hb hS hS'

/-- Routines into one target end alike, whether they are for `any` or for the shape of the value. -/
theorem Session.Asks.attained_of_strip_eq (hT : pool.stripNullable T = pool.stripNullable T')
    (d : Value) :
    Attained Session.Same (x >>= fun r => r.run depth v d state)
      (fun n => y >>= fun r => r.run n v d state) s t := by
  have hfits {place : ShapeId} (h : pool.Takes place own) : v.Fits pool typed place :=
    hself.of_includes (h.includes hb)
  obtain ⟨source, sourceShape, hsource, hor⟩ := hc.exists_below_of_takes hb hS
  obtain ⟨source', sourceShape', hsource', hor'⟩ := hc.exists_below_of_takes hb hS'
  cases hstrip : pool.stripNullable T with
  | error e =>
    refine attained_of_body hc hsame hs ht hx hy ?_ depth v d state
    exact (Mapping.body_of_strip_eq_error hc.converters hsource hsource' hstrip).trans
      (Mapping.body_congr hc.converters rfl hT)
  | ok target =>
    obtain ⟨targetShape, htarget, -⟩ := Pool.exists_descriptor_of_stripNullableWithin hstrip
    have hbT : pool.Below T target targetShape := ⟨hstrip, htarget⟩
    have hbT' : pool.Below T' target targetShape := ⟨hT ▸ hstrip, htarget⟩
    by_cases hany : targetShape.kind = .any
    · exact hx.attained_into_any hc hsame hs ht hy hown hsource hsource' hbT hbT' hany hor hor' d
    cases hcollection : targetShape.isCollection with
    | false =>
      exact hx.attained_into_single hc hsame hs ht hy hown hsource hsource' hbT hbT' hany
        hcollection hb hor hor' d
    | true =>
      rcases CollectionKind.whole_or_other targetShape with ⟨kind, hkind, hof⟩ | hother
      · cases hinline : storesInline pool targetShape.element? with
        | error e =>
          refine attained_of_body hc hsame hs ht hx hy ?_ depth v d state
          rw [Mapping.body_into_whole hc.converters hc.deep hsource hbT hof hkind,
            Mapping.body_into_whole hc.converters hc.deep hsource' hbT' hof hkind, hinline]
          rfl
        | ok inline =>
          have hnull : v ≠ .null := by
            rintro rfl
            cases hown
          exact hx.attained_into_whole hc htyped ih hsame hs ht hy hsource hsource' hbT hbT' hof
            hkind hinline hnull hnull (hfits hS) (hfits hS') rfl d
      · refine attained_of_body hc hsame hs ht hx hy ?_ depth v d state
        exact (Mapping.body_into_other hc.converters hc.deep hsource hsource' hbT hcollection
          hother).trans (Mapping.body_congr hc.converters rfl hT)

end

/-! ## Equal elements -/

omit hc in
/-- A container is supplied or made new, and nothing else changes. -/
theorem CollectionMapper.For.container?_kept {source target : ShapeId}
    {sourceShape targetShape : Descriptor} {mapper : CollectionMapper}
    (hmapper : mapper.For pool mapping source target sourceShape targetShape)
    (hgeneric : mapper.kind = .genericInsertable) (hT : pool.Below target target targetShape)
    (invoke : Invoke) (frame : Frame) (hk : start.Kept s.heap) :
    ∃ a? s₁, mapper.container? invoke frame s = .ok a? s₁ ∧ start.Kept s₁.heap := by
  cases hsequence : sequenceAt? s.heap mapper.target frame.destination with
  | some a =>
    refine ⟨some a, s, ?_, hk⟩
    unfold container?
    rw [get_bind, hsequence]
    rfl
  | none =>
    let bare : Frame := { frame with destination := .null }
    have hnew : mapper.container? invoke bare s = _ :=
      hmapper.container?_eq hgeneric hT rfl invoke s
    rw [container?_of_sequenceAt?_eq_none rfl] at hnew
    rw [container?_of_sequenceAt?_eq_none hsequence]
    split at hnew
    · exact ⟨_, _, hnew, hk.trans (.alloc _ _)⟩
    · exact ⟨_, _, hnew, hk⟩

section

variable (htyped : start.TypedBy pool typed) (hs : s.Holds mappings pool start)
  (hv : v.Fits pool typed place) (hv' : v'.Fits pool typed place') {es : List Value}
  (hes : start.elements? v = some es) (hes' : start.elements? v' = some es)
  {source target : ShapeId} {sourceShape targetShape : Descriptor}

include htyped hs hv hv' hes hes'

omit hc in
/-- A mapper does the same with values of the same elements. -/
theorem CollectionMapper.For.run_eq {mapper : CollectionMapper}
    (hmapper : mapper.For pool mapping source target sourceShape targetShape)
    (hT : pool.Below target target targetShape) (invoke : Invoke) (d state : Value)
    (linkage : Linkage) :
    mapper.run invoke ⟨v, d, state, linkage⟩ s = mapper.run invoke ⟨v', d, state, linkage⟩ s := by
  have hnull {v : Value} (hes : start.elements? v = some es) : ¬v.isNull = true := by
    intro hnull
    rw [Value.isNull_iff.mp hnull] at hes
    cases hes
  have helements {s₁ : Session} (hk : start.Kept s₁.heap) {v : Value} {place : ShapeId}
      (hv : v.Fits pool typed place) (hes : start.elements? v = some es) :
      sourceElements v s₁ = .ok es s₁ := by
    change EStateM.Result.ok ((s₁.heap.elements? v).getD [v]) s₁ = _
    rw [Heap.Kept.elements?_eq htyped hv hk, hes, Option.getD_some]
  unfold run
  rw [if_neg (hnull hes), if_neg (hnull hes')]
  cases hk : mapper.kind with
  | array | typedList | untypedList =>
    dsimp only
    rw [bind_of_eq_ok (helements hs.kept hv hes), bind_of_eq_ok (helements hs.kept hv' hes')]
    rfl
  | genericInsertable =>
    obtain ⟨a?, s₁, hcontainer, hkept⟩ :=
      hmapper.container?_kept hk hT invoke ⟨v, d, state, linkage⟩ hs.kept
    have hcontainer' : mapper.container? invoke ⟨v', d, state, linkage⟩ s = .ok a? s₁ := hcontainer
    dsimp only
    rw [bind_of_eq_ok hcontainer, bind_of_eq_ok hcontainer']
    cases a? with
    | none => rfl
    | some a =>
      dsimp only
      rw [bind_of_eq_ok (helements hkept hv hes), bind_of_eq_ok (helements hkept hv' hes')]
      rfl

end

end

/-- Routines for one value under akin pairs of shapes end alike, whatever their depth. -/
theorem Routine.run_dispatches {mappings : Mapping → Prop} {mapping : Mapping} {pool : Pool}
    (hc : Dispatcher mappings mapping pool) {typed : Address → ShapeId → Prop} {start : Heap}
    (htyped : start.TypedBy pool typed) (state : Value) (depth : Nat) :
    Dispatches mappings mapping pool typed start state depth := by
  induction depth using Nat.strongRecOn with
  | ind depth ih =>
    intro s t S T S' T' own x y v d hsame hs ht hx hy hself hown hakin
    have hnull : v ≠ .null := by
      rintro rfl
      cases hown
    obtain ⟨own', known, hown', hb, -⟩ := hself.exists_own htyped hc.grows hnull
    obtain rfl := Option.some.inj (hown.symm.trans hown')
    rcases hakin.target with hstrip | ⟨rfl, hT, hT'⟩
    · exact hx.attained_of_strip_eq hc htyped ih hsame hs ht hy hself hown hb hakin.left hakin.right
        hstrip d
    have htakes : pool.Takes own own := ⟨own, known, hb, Or.inr rfl⟩
    rcases hc.below_of_takes hb hT with hbT | hbT <;>
      rcases hc.below_of_takes hb hT' with hbT' | hbT'
    · exact hx.attained_of_strip_eq hc htyped ih hsame hs ht hy hself hown hb hakin.left hakin.right
        (hbT.strip.trans hbT'.strip.symm) .null
    · obtain ⟨source, sourceShape, hS, hor⟩ := hc.exists_below_of_takes hb hakin.left
      obtain ⟨hzero, x₁, s₁, hl, hsame₁, hx₁, hrun⟩ :=
        hx.step_into_any hc hs hown hS hbT rfl hor .null state
      cases depth with
      | zero => exact .inl hzero
      | succ depth =>
        refine .of_eq (hrun depth) (fun _ => rfl) ?_
        exact hx₁.attained_of_strip_eq hc htyped (fun n hn => ih n (Nat.lt_succ_of_lt hn))
          (hsame₁.symm.trans hsame) (hs.precedes hl) ht hy hself hown hb htakes hakin.right
          (hb.strip.trans hbT'.strip.symm) .null
    · obtain ⟨source', sourceShape', hS', hor'⟩ := hc.exists_below_of_takes hb hakin.right
      obtain ⟨-, y₁, t₁, hl', hsame₁, hy₁, hrun'⟩ :=
        hy.step_into_any hc ht hown hS' hbT' rfl hor' .null state
      refine .of_succ (.of_eq rfl hrun' ?_)
      exact hx.attained_of_strip_eq hc htyped ih (hsame.trans hsame₁) hs (ht.precedes hl') hy₁ hself
        hown hb hakin.left htakes (hbT.strip.trans hb.strip.symm) .null
    · exact hx.attained_of_strip_eq hc htyped ih hsame hs ht hy hself hown hb hakin.left hakin.right
        (hbT.strip.trans hbT'.strip.symm) .null

section

variable {mappings : Mapping → Prop} {mapping : Mapping} {pool : Pool}
  {typed : Address → ShapeId → Prop} {start : Heap} {s t : Session} {r r' : Routine}
  {S T S' own own' : ShapeId} {x y : RunM Routine} {v v' d state : Value}
  (hc : Dispatcher mappings mapping pool) (htyped : start.TypedBy pool typed)

include hc htyped

/-- Values of the same elements become the same collection, whatever their own shapes. -/
theorem Session.Asks.attained_of_elements (hsame : s.Same t) (hs : s.Holds mappings pool start)
    (ht : t.Holds mappings pool start) (hx : s.Asks mappings mapping S T x)
    (hy : t.Asks mappings mapping S' T y) {source source' target : ShapeId}
    {sourceShape sourceShape' targetShape : Descriptor} (hS : pool.Below S source sourceShape)
    (hS' : pool.Below S' source' sourceShape') (hT : pool.Below T target targetShape)
    (hcollection : targetShape.isCollection = true) {body : Body}
    (hbody : mapping.body pool S T = .ok body) (hv : v.Fits pool typed S)
    (hv' : v'.Fits pool typed S') {es : List Value} (hes : start.elements? v = some es)
    (hes' : start.elements? v' = some es) (depth : Nat) :
    Attained Session.Same (x >>= fun r => r.run depth v d state)
      (fun n => y >>= fun r => r.run n v' d state) s t := by
  have hnull {v : Value} (hes : start.elements? v = some es) : v ≠ .null := by
    rintro rfl
    cases hes
  rcases CollectionKind.whole_or_other targetShape with ⟨kind, hkind, hof⟩ | hother
  · rw [Mapping.body_into_whole hc.converters hc.deep hS hT hof hkind] at hbody
    obtain ⟨inline, hinline, -⟩ := Except.bind_eq_ok_iff.mp hbody
    exact hx.attained_into_whole hc htyped (fun n _ => Routine.run_dispatches hc htyped state n)
      hsame hs ht hy hS hS' hT hT hof hkind hinline (hnull hes) (hnull hes') hv hv'
      (by rw [hes, hes', Option.getD_some, Option.getD_some]) d
  · have heq : mapping.body pool S T = mapping.body pool S' T :=
      Mapping.body_into_other hc.converters hc.deep hS hS' hT hcollection hother
    refine .of_eq rfl (fun n => ?_) (hx.attained_of_body hc hsame hs ht hy heq depth v d state)
    obtain ⟨r', t₁, hyt, hl, -, -, hrbody⟩ := hy.opens hc.allows hc.unique ht (heq ▸ hbody)
    obtain ⟨below, known, below', known', hb, hb', form, hrun, hform⟩ :=
      Mapping.exists_form hc.grows hc.converters hbody
    obtain ⟨rfl, rfl⟩ := hT.unique hb'
    rw [bind_of_eq_ok hyt, bind_of_eq_ok hyt]
    cases n with
    | zero => rfl
    | succ n =>
      rw [Routine.run_succ, Routine.run_succ, hrbody, hrun, hrun]
      cases hform with
      | transfer hsingle _ _ => cases hcollection.symm.trans hsingle
      | record _ hkind _ => simp [Descriptor.isCollection, hkind] at hcollection
      | collection hmapper =>
        exact hmapper.run_eq htyped (ht.precedes hl) hv' hv hes' hes hT.self (Routine.run n) d state
          r'.linkage
      | unresolved _ _ => rfl

/-- Routines that are there already, for one value under akin pairs of shapes. -/
theorem Routine.Live.coincide (hs : s.Holds mappings pool start) (hr : r.Live mapping.id s)
    (hr' : r'.Live mapping.id s) (hv : v.Fits pool typed own) (hown : start.shape? v = some own)
    (hakin : pool.Akin own d r.key.source r.key.target r'.key.source r'.key.target) :
    RunM.Coincide (fun depth => r.run depth v d state) (fun depth => r'.run depth v d state) s := by
  have hx := hr.asks_pure hc.allows hc.unique hs
  have hx' := hr'.asks_pure hc.allows hc.unique hs
  have hsame := Session.Same.refl s
  constructor <;> intro depth
  · exact Routine.run_dispatches hc htyped state depth hsame hs hs hx hx' hv hown hakin
  · exact Routine.run_dispatches hc htyped state depth hsame hs hs hx' hx hv hown hakin.symm

/-- Routines that are there already, for two values of the same elements. -/
theorem Routine.Live.coincide_of_elements (hs : s.Holds mappings pool start)
    (hr : r.Live mapping.id s) (hr' : r'.Live mapping.id s)
    (hT : r'.key.target = r.key.target) {below : ShapeId} {known : Descriptor}
    (hb : pool.Below r.key.target below known) (hcollection : known.isCollection = true)
    (hv : v.Fits pool typed r.key.source) (hv' : v'.Fits pool typed r'.key.source)
    {es : List Value} (hes : start.elements? v = some es) (hes' : start.elements? v' = some es) :
    RunM.Coincide (fun depth => r.run depth v d state)
      (fun depth => r'.run depth v' d state) s := by
  have hbody {r : Routine} (hr : r.Live mapping.id s) :
      mapping.body pool r.key.source r.key.target = .ok r.body := by
    obtain ⟨_, -, -, -, -, -, hmade⟩ := hr.exists_owner hs
    have hbody := hmade.body
    rwa [hr.mapping_eq hc.allows hc.unique hs] at hbody
  obtain ⟨source, sourceShape, _, _, hS, -, -⟩ :=
    Mapping.exists_form hc.grows hc.converters (hbody hr)
  obtain ⟨source', sourceShape', _, _, hS', -, -⟩ :=
    Mapping.exists_form hc.grows hc.converters (hbody hr')
  have hx := hr.asks_pure hc.allows hc.unique hs
  have hx' := hr'.asks_pure hc.allows hc.unique hs
  have hbody' := hbody hr'
  rw [hT] at hx' hbody'
  have hsame := Session.Same.refl s
  constructor <;> intro depth
  · exact hx.attained_of_elements hc htyped hsame hs hs hx' hS hS' hb hcollection (hbody hr) hv hv'
      hes hes' depth
  · exact hx'.attained_of_elements hc htyped hsame hs hs hx hS' hS hb hcollection hbody' hv' hv
      hes' hes depth

end

/-! Two lists of the same numbers. -/

namespace Numbers

def operations : List Pool.Operation :=
  [.nullable ShapeId.int, .listOf ⟨7⟩, .arrayOf ShapeId.str]

def pool : Pool :=
  [⟨"int?", some (.ofNullable "int?" ShapeId.int)⟩,
    ⟨"List<int?>", some (.ofCollection "List<int?>" .list (some ⟨7⟩))⟩,
    ⟨"[str]", some (.ofCollection "[str]" .array (some ShapeId.str))⟩].foldl Pool.push Pool.initial

/-- The first list declares its elements, the second does not. -/
def heap : Heap where
  instances := #[.seq ⟨8⟩ #[.int 1, .null], .seq ShapeId.untypedList #[.int 1, .null]]

/-- The session keeps the routines that make arrays of texts of either list. -/
def session : Session :=
  After (Session.getOrCompile ⟨0⟩ ShapeId.untypedList ⟨9⟩ Mapping.initial)
    (.compiling operations heap Mapping.initial ⟨8⟩ ⟨9⟩)

def routine (source : ShapeId) : Routine :=
  (session.cached? ⟨0⟩ ⟨source, ⟨9⟩, Mapping.initial.id⟩).getD default

theorem pool_eq : session.pool = pool := by decide +kernel

theorem heap_eq : session.heap = heap := rfl

theorem reachable : session.Reachable (· = Mapping.initial) :=
  (Session.reachable_compiling operations heap Mapping.initial ⟨8⟩ ⟨9⟩).getOrCompile rfl rfl
    ShapeId.untypedList ⟨9⟩

theorem dispatcher : Dispatcher (· = Mapping.initial) Mapping.initial session.pool where
  grows := reachable.growsTo
  any id known hknown := by
    rw [pool_eq] at hknown
    exact Pool.of_slots (p := fun id known => known.kind = .any → id = ShapeId.any)
      (by decide +kernel) hknown
  primitive id known p hknown hkind := by
    rw [pool_eq] at hknown
    have hshape := Pool.of_slots
      (p := fun id known => known.primitive?.all fun p => decide (id = p.shape)) (by decide +kernel)
      hknown
    rw [Descriptor.primitive?, hkind] at hshape
    exact of_decide_eq_true hshape
  allows := rfl
  unique m m' h h' _ := h.trans h'.symm
  deep := rfl
  converters := rfl

theorem typedBy : session.heap.TypedBy session.pool heap.shapes := by
  rw [pool_eq, heap_eq]
  exact Heap.typedBy_shapes (by decide +kernel)

theorem fits {n : Nat} {i : Instance} (hi : heap.get? ⟨n⟩ = some i) {own : ShapeId}
    (hown : i.shape = own) (hb : ∃ known, pool.Below own own known) :
    (Value.ref ⟨n⟩).Fits session.pool heap.shapes own := by
  obtain ⟨known, hb⟩ := hb
  rw [pool_eq]
  exact .ref ⟨i, hi, hown⟩ ⟨_, _, hb, Or.inr rfl⟩

/-- The session keeps the routine. -/
theorem cached {source : ShapeId}
    (h : (session.cached? ⟨0⟩ ⟨source, ⟨9⟩, Mapping.initial.id⟩).isSome = true) :
    session.Knows (routine source) ∧
      (routine source).key = ⟨source, ⟨9⟩, Mapping.initial.id⟩ ∧
      session.registryAlive (routine source).linkage.registry = true := by
  obtain ⟨r, hr⟩ := Option.isSome_iff_exists.mp h
  have hroutine : routine source = r := by
    unfold routine
    rw [hr, Option.getD_some]
  obtain ⟨owner, howned⟩ := reachable.coherent
  obtain ⟨hknows, hkey, hregistry⟩ := howned.registry_of_cached? hr
  rw [hroutine, hregistry]
  exact ⟨hknows, hkey, rfl⟩

end Numbers

/-- The routine from `any` does with a value what the routine from the shape of the value does,
whatever the destination, and there is the one if there is the other. Of two values with the same
elements, typed or not, the routines from their shapes make the same collection. -/
theorem Session.Reachable.dispatch_coherent {mappings : Mapping → Prop} {mapping : Mapping}
    {s : Session} (h : s.Reachable mappings) (hc : Dispatcher mappings mapping s.pool)
    {typed : Address → ShapeId → Prop} (htyped : s.heap.TypedBy s.pool typed) {v : Value}
    {own target : ShapeId} (hv : v.Fits s.pool typed own) (hown : s.heap.shape? v = some own)
    {r : Routine} (hr : s.Knows r) (hkey : r.key = ⟨own, target, mapping.id⟩)
    (halive : s.registryAlive r.linkage.registry = true) :
    (∃ r' s', Session.getOrCompile r.linkage.registry ShapeId.any target mapping s = .ok r' s' ∧
      s.Same s' ∧ ∀ d state, RunM.Coincide (fun depth => r.run depth v d state)
        (fun depth => r'.run depth v d state) s') ∧
    ∀ (v' : Value) (own' : ShapeId) (r' : Routine) (es : List Value) (below : ShapeId)
      (known : Descriptor), v'.Fits s.pool typed own' → s.heap.shape? v' = some own' →
      s.Knows r' → r'.key = ⟨own', target, mapping.id⟩ →
      s.registryAlive r'.linkage.registry = true → s.heap.elements? v = some es →
      s.heap.elements? v' = some es → s.pool.Below target below known →
      known.isCollection = true → ∀ d state, RunM.Coincide (fun depth => r.run depth v d state)
        (fun depth => r'.run depth v' d state) s := by
  have hlive : r.Live mapping.id s := ⟨hr, halive, by rw [hkey]⟩
  have hs : s.Holds mappings s.pool s.heap := ⟨h.coherent, rfl, .refl _⟩
  have hown' := hc.takes htyped hv hown
  obtain ⟨owner, howned, -, -, -, -, hmade⟩ := hlive.exists_owner hs
  have heq := hlive.mapping_eq hc.allows hc.unique hs
  constructor
  · have hbody := hmade.body
    rw [heq, hkey] at hbody
    obtain ⟨r', s', hrun⟩ := Session.exists_getOrCompile r.linkage.registry
      (Mapping.exists_body_from_any hc.converters hc.grows hc.deep hbody)
    have hfinds : Ensures (Session.getOrCompile r.linkage.registry ShapeId.any target
        r.linkage.mapping) s _ _ := Session.getOrCompile_finds howned ShapeId.any target
          (heq ▸ hc.allows) (Session.exists_of_registryAlive halive)
    have hcalls :=
      (Session.getOrCompile_refuses r.linkage.registry ShapeId.any target mapping s).of_run hrun
    rw [heq] at hfinds
    obtain ⟨hl, hheap, hlive', hsource, htarget⟩ := (hfinds.of_run hrun).live halive
    rw [heq] at hlive'
    refine ⟨r', s', hrun, ⟨hheap, hcalls⟩, fun d state => ?_⟩
    refine (hlive.precedes hl).coincide hc htyped (hs.precedes hl) hlive' hv hown ?_
    rw [hkey, hsource, htarget]
    exact ⟨hown', ⟨_, _, .any hc.grows, Or.inl rfl⟩, Or.inl rfl⟩
  · intro v' own' r' es below known hv' hown'' hr' hkey' halive' hes hes' hb hcollection d state
    have hlive' : r'.Live mapping.id s := ⟨hr', halive', by rw [hkey']⟩
    have hb' : s.pool.Below r.key.target below known := by rwa [hkey]
    refine hlive.coincide_of_elements hc htyped hs hlive' ?_ hb' hcollection ?_ ?_ hes hes'
    · rw [hkey, hkey']
    · rwa [hkey]
    · rwa [hkey']

/-- Both lists of numbers become arrays of the same texts, and so does the one from `any`. -/
theorem Session.Reachable.dispatch_coherent_numbers : ∃ r r',
    Numbers.session.cached? ⟨0⟩ ⟨⟨8⟩, ⟨9⟩, Mapping.initial.id⟩ = some r ∧
    Numbers.session.cached? ⟨0⟩ ⟨ShapeId.untypedList, ⟨9⟩, Mapping.initial.id⟩ = some r' ∧
    (∃ fresh s', Session.getOrCompile ⟨0⟩ ShapeId.any ⟨9⟩ Mapping.initial Numbers.session =
        .ok fresh s' ∧ ∀ d state, RunM.Coincide (fun depth => r.run depth (.ref ⟨0⟩) d state)
          (fun depth => fresh.run depth (.ref ⟨0⟩) d state) s') ∧
    ∀ d state, RunM.Coincide (fun depth => r.run depth (.ref ⟨0⟩) d state)
      (fun depth => r'.run depth (.ref ⟨1⟩) d state) Numbers.session := by
  obtain ⟨hknows, hkey, halive⟩ : Numbers.session.Knows (Numbers.routine ⟨8⟩) ∧ _ :=
    Numbers.cached (by decide +kernel)
  obtain ⟨hknows', hkey', halive'⟩ :
      Numbers.session.Knows (Numbers.routine ShapeId.untypedList) ∧ _ :=
    Numbers.cached (by decide +kernel)
  have hb : Numbers.session.pool.Below ⟨9⟩ ⟨9⟩
      (.ofCollection "[str]" .array (some ShapeId.str)) := by
    rw [Numbers.pool_eq]
    exact ⟨rfl, rfl⟩
  have hfits : (Value.ref ⟨0⟩).Fits Numbers.session.pool Numbers.heap.shapes ⟨8⟩ :=
    Numbers.fits rfl rfl ⟨_, ⟨rfl, rfl⟩⟩
  have hfits' : (Value.ref ⟨1⟩).Fits Numbers.session.pool Numbers.heap.shapes ShapeId.untypedList :=
    Numbers.fits rfl rfl ⟨_, ⟨rfl, rfl⟩⟩
  obtain ⟨hany, hlists⟩ := Session.Reachable.dispatch_coherent Numbers.reachable Numbers.dispatcher
    Numbers.typedBy hfits rfl hknows hkey halive
  obtain ⟨fresh, s', hfresh, -, hruns⟩ := hany
  refine ⟨_, _, rfl, rfl, ⟨fresh, s', hfresh, hruns⟩, ?_⟩
  exact hlists _ _ _ [.int 1, .null] ⟨9⟩ _ hfits' rfl hknows' hkey' halive' rfl rfl hb rfl

end Reshape
