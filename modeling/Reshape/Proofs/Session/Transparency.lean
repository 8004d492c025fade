import Reshape.Proofs.Session.Mirror
import Reshape.Proofs.Session.Reachable

/-!
# The cache cannot be observed

What a registry has come to keep, where links have led, and how large the pool was when a routine
was compiled make no difference to a conversion. A routine that a registry keeps does, from any
source, destination and state, what one does that is compiled now in a registry of its own : it
ends with the same value or error, the same heap and the same calls of converters
(`Session.Reachable.run_alike_fresh`).

The two runs go side by side. Wherever one of them looks for a routine, so does the other, for the
same two shapes and under the same mapping. Both find one with the same body, or both fail for
want of it (`Session.Paired.find_bind`).
-/

namespace Reshape

/-! ## Side by side -/

/-- The sessions hold the same values and have made the same calls. -/
structure Session.Same (s t : Session) : Prop where
  heap : t.heap = s.heap
  calls : t.calls = s.calls

/-- The sessions have come of two others, and are the same but for the routines in them. -/
structure Session.Paired (mappings : Mapping → Prop) (owner owner' : Nat → Linkage)
    (s₀ t₀ s t : Session) : Prop extends s.Same t where
  left : s₀.Evolves mappings owner s
  right : t₀.Evolves mappings owner' t

/-- The two routines are for the same key, and both are known, in registries that live. -/
structure Session.Twins (s t : Session) (r r' : Routine) : Prop where
  knows : s.Knows r
  knows' : t.Knows r'
  key : r'.key = r.key
  alive : s.registryAlive r.linkage.registry = true
  alive' : t.registryAlive r'.linkage.registry = true

/-- The two routines have one body under one mapping, be they for the same key or not. -/
structure Session.Peers (s t : Session) (r r' : Routine) : Prop where
  knows : s.Knows r
  knows' : t.Knows r'
  mapping : r'.linkage.mapping = r.linkage.mapping
  body : r'.body = r.body
  alive : s.registryAlive r.linkage.registry = true
  alive' : t.registryAlive r'.linkage.registry = true

/-- Routines of one body do the same, in sessions that are the same but for the routines. -/
def Invoke.Mirrored (mappings : Mapping → Prop) (invoke : Invoke) : Prop :=
  ∀ (owner owner' : Nat → Linkage) (s t : Session) (r r' : Routine),
    s.Owned mappings owner → t.Owned mappings owner' → t.pool = s.pool → s.Same t →
    s.Peers t r r' → ∀ source destination state,
      Alike Session.Same (invoke r source destination state s)
        (invoke r' source destination state t)

section

variable {mappings : Mapping → Prop} {owner owner' : Nat → Linkage} {s₀ t₀ s t : Session}
  {invoke : Invoke}

/-- Two runs that end alike, each evolving its session. -/
theorem Alike.paired {α : Type} {x y : RunM α} (h : Alike Session.Same (x s) (y t))
    (hx : Ensures x s (fun _ => s₀.Evolves mappings owner) fun _ => s₀.Evolves mappings owner)
    (hy : Ensures y t (fun _ => t₀.Evolves mappings owner') fun _ => t₀.Evolves mappings owner') :
    Alike (Session.Paired mappings owner owner' s₀ t₀) (x s) (y t) := by
  unfold Ensures at hx hy
  cases hxs : x s <;> cases hyt : y t <;> rw [hxs, hyt] at h <;> rw [hxs] at hx <;>
    rw [hyt] at hy
  case ok.ok => exact ⟨h.1, h.2, hx, hy⟩
  case error.error => exact ⟨h.1, h.2, hx, hy⟩
  all_goals exact h.elim

variable (hunique : ∀ m m', mappings m → mappings m' → m.id = m'.id → m = m')

include hunique

/-- Two searches for routines of one body, and runs of what they find. -/
theorem Session.Searches.alike (hinvoke : invoke.Mirrored mappings) (hpool : t.pool = s.pool)
    (hsame : s.Same t) {linkage linkage' : Linkage} (hmapping : mappings linkage.mapping)
    (heq : linkage'.mapping = linkage.mapping)
    (halive : s.registryAlive linkage.registry = true)
    (halive' : t.registryAlive linkage'.registry = true)
    {source target source' target' : ShapeId}
    (hbody : linkage.mapping.body s.pool source' target' =
      linkage.mapping.body s.pool source target) {x y : RunM Routine}
    (hx : s.Searches mappings owner linkage source target x)
    (hy : t.Searches mappings owner' linkage' source' target' y) (v d state : Value) :
    Alike Session.Same ((x >>= fun routine => invoke routine v d state) s)
      ((y >>= fun routine => invoke routine v d state) t) := by
  change Alike _ (EStateM.bind x _ s) (EStateM.bind y _ t)
  unfold Session.Searches Ensures at hx hy
  unfold EStateM.bind
  cases hxs : x s <;> cases hyt : y t <;> rw [hxs] at hx <;> rw [hyt] at hy
  case ok.ok r s' r' t' =>
    obtain ⟨hfinds, hcalls⟩ := hx
    obtain ⟨hfinds', hcalls'⟩ := hy
    obtain ⟨owner₂, -, howned⟩ := hfinds.evolves.owned
    obtain ⟨owner₂', -, howned'⟩ := hfinds'.evolves.owned
    obtain ⟨hm, hr⟩ := hfinds.body hunique hmapping
    obtain ⟨hm', hr'⟩ := hfinds'.body hunique (heq ▸ hmapping)
    rw [heq, hpool, hbody, hr] at hr'
    refine hinvoke owner₂ owner₂' s' t' r r' howned howned' ?_ ⟨?_, ?_⟩
      ⟨hfinds.knows, hfinds'.knows, ?_, (Except.ok.inj hr').symm, ?_, ?_⟩ v d state
    · exact hfinds'.evolves.pool.trans (hpool.trans hfinds.evolves.pool.symm)
    · exact hfinds'.heap.trans (hsame.heap.trans hfinds.heap.symm)
    · exact hcalls'.trans (hsame.calls.trans hcalls.symm)
    · exact hm'.trans (heq.trans hm.symm)
    · rw [hfinds.answers.registry, hfinds.evolves.alive]
      exact halive
    · rw [hfinds'.answers.registry, hfinds'.evolves.alive]
      exact halive'
  case error.error stop s' stop' t' =>
    obtain ⟨⟨-, hheap⟩, hcalls, hrefuses⟩ := hx
    obtain ⟨⟨-, hheap'⟩, hcalls', hrefuses'⟩ := hy
    obtain ⟨e, rfl, he⟩ := hrefuses.exists_error halive
    obtain ⟨e', rfl, he'⟩ := hrefuses'.exists_error halive'
    rw [heq, hpool, hbody, he] at he'
    cases he'
    exact ⟨rfl, hheap'.trans (hsame.heap.trans hheap.symm),
      hcalls'.trans (hsame.calls.trans hcalls.symm)⟩
  case ok.error r s' stop t' =>
    obtain ⟨-, -, hrefuses⟩ := hy
    obtain ⟨e, -, he⟩ := hrefuses.exists_error halive'
    rw [heq, hpool, hbody, (hx.1.body hunique hmapping).2] at he
    cases he
  case error.ok stop s' r t' =>
    obtain ⟨-, -, hrefuses⟩ := hx
    obtain ⟨e, -, he⟩ := hrefuses.exists_error halive
    have hr' := (hy.1.body hunique (heq ▸ hmapping)).2
    rw [heq, hpool, hbody, he] at hr'
    cases hr'

/-- The same in the course of two runs. -/
theorem Session.Paired.find_bind (hinvoke : invoke.Mirrored mappings)
    (hevolving : invoke.Evolving mappings) (hpool : t₀.pool = s₀.pool)
    (h : Session.Paired mappings owner owner' s₀ t₀ s t) {linkage linkage' : Linkage}
    (hmapping : mappings linkage.mapping) (heq : linkage'.mapping = linkage.mapping)
    (halive : s₀.registryAlive linkage.registry = true)
    (halive' : t₀.registryAlive linkage'.registry = true) {owner₁ owner₁' : Nat → Linkage}
    (hagree : ∀ i < s₀.linkages, owner₁ i = owner i)
    (hagree' : ∀ i < t₀.linkages, owner₁' i = owner' i) {source target : ShapeId}
    {x y : RunM Routine} (hx : s.Searches mappings owner₁ linkage source target x)
    (hy : t.Searches mappings owner₁' linkage' source target y) (v d state : Value) :
    Alike (Session.Paired mappings owner owner' s₀ t₀)
      ((x >>= fun routine => invoke routine v d state) s)
      ((y >>= fun routine => invoke routine v d state) t) := by
  have hpool' : t.pool = s.pool := h.right.pool.trans (hpool.trans h.left.pool.symm)
  have halike := hx.alike hunique hinvoke hpool' h.toSame hmapping heq (h.left.alive ▸ halive)
    (h.right.alive ▸ halive') rfl hy v d state
  exact halike.paired
    (h.left.find_bind hevolving hagree (hx.mono (fun _ _ h => h.1) fun _ _ h => h.1) v d state)
    (h.right.find_bind hevolving hagree' (hy.mono (fun _ _ h => h.1) fun _ _ h => h.1) v d state)

theorem Session.Twins.mapping_eq (hs : s.Owned mappings owner) (ht : t.Owned mappings owner')
    {r r' : Routine} (h : s.Twins t r r') : r'.linkage.mapping = r.linkage.mapping := by
  obtain ⟨-, -, hmapping, hmade⟩ := hs.madeIn h.knows
  obtain ⟨-, -, hmapping', hmade'⟩ := ht.madeIn h.knows'
  refine hunique _ _ hmapping' hmapping ?_
  rw [← hmade'.mapping, ← hmade.mapping, h.key]

/-- Routines for one key have one body. -/
theorem Session.Twins.peers (hs : s.Owned mappings owner) (ht : t.Owned mappings owner')
    (hpool : t.pool = s.pool) {r r' : Routine} (h : s.Twins t r r') : s.Peers t r r' := by
  obtain ⟨-, -, -, hmade⟩ := hs.madeIn h.knows
  obtain ⟨-, -, -, hmade'⟩ := ht.madeIn h.knows'
  have heq := h.mapping_eq hunique hs ht
  have hbody := hmade'.body
  rw [h.key, heq, hpool, hmade.body] at hbody
  exact ⟨h.knows, h.knows', heq, (Except.ok.inj hbody).symm, h.alive, h.alive'⟩

/-- Being paired is kept by code of two routines of one body. -/
theorem Session.Peers.mirrored (hinvoke : invoke.Mirrored mappings)
    (hevolving : invoke.Evolving mappings) (hs : s.Owned mappings owner)
    (ht : t.Owned mappings owner') (hpool : t.pool = s.pool) {r r' : Routine}
    (h : s.Peers t r r') (source destination state : Value) :
    Session.Mirrored (Session.Paired mappings owner owner' s t) invoke
      ⟨source, destination, state, r.linkage⟩ r'.linkage := by
  obtain ⟨hlt, howner, hmapping, -⟩ := hs.madeIn h.knows
  obtain ⟨hlt', howner', hmapping', -⟩ := ht.madeIn h.knows'
  have heq := h.mapping
  refine ⟨fun _ _ hp => hp.heap, fun _ _ hp => hp.calls, fun _ _ heap hp => ?_,
    fun _ _ calls hp => ?_, fun link v d s₁ t₁ hp => ?_, fun shape shape' v d s₁ t₁ hp => ?_⟩
  · exact ⟨⟨rfl, hp.calls⟩, hp.left.withHeap heap, hp.right.withHeap heap⟩
  · exact ⟨⟨hp.heap, rfl⟩, hp.left.withCalls calls, hp.right.withCalls calls⟩
  · obtain ⟨owner₁, hagree, howned⟩ := hp.left.owned
    obtain ⟨owner₁', hagree', howned'⟩ := hp.right.owned
    refine hp.find_bind hunique hinvoke hevolving hpool hmapping heq h.alive h.alive' hagree
      hagree' (Session.resolve_searches howned ?_ ?_ link)
      (Session.resolve_searches howned' ?_ ?_ link) v d state
    · exact Nat.lt_of_lt_of_le hlt hp.left.linkages
    · exact (hagree _ hlt).trans howner
    · exact Nat.lt_of_lt_of_le hlt' hp.right.linkages
    · exact (hagree' _ hlt').trans howner'
  · obtain ⟨owner₁, hagree, howned⟩ := hp.left.owned
    obtain ⟨owner₁', hagree', howned'⟩ := hp.right.owned
    exact hp.find_bind hunique hinvoke hevolving hpool hmapping heq h.alive h.alive' hagree
      hagree' (Session.resolveDynamic_searches howned hmapping shape shape')
      (Session.resolveDynamic_searches howned' hmapping' shape shape') v d state

/-- Runs of routines of one body are mirrored, whatever their depth. -/
theorem Routine.run_peers (depth : Nat) : Invoke.Mirrored mappings (Routine.run depth) := by
  induction depth with
  | zero => exact fun _ _ _ _ _ _ _ _ _ hsame _ _ _ _ => ⟨rfl, hsame⟩
  | succ depth ih =>
    intro owner owner' s t r r' hs ht hpool hsame h source destination state
    have hmirrored := h.mirrored hunique ih (run_evolving depth) hs ht hpool source destination
      state
    have hpaired : Session.Paired mappings owner owner' s t s t := ⟨hsame, .refl hs, .refl ht⟩
    unfold Routine.run
    dsimp only
    rw [h.body]
    cases r.body with
    | program program =>
      exact (hmirrored.runProgram program s t hpaired).mono fun _ _ hp => hp.toSame
    | collection mapper =>
      exact (hmirrored.runMapper mapper s t hpaired).mono fun _ _ hp => hp.toSame
    | unresolved => exact ⟨rfl, hsame⟩

/-- Runs of routines for one key are mirrored, whatever their depth. -/
theorem Routine.run_mirrored (depth : Nat) (owner owner' : Nat → Linkage) (s t : Session)
    (r r' : Routine) (hs : s.Owned mappings owner) (ht : t.Owned mappings owner')
    (hpool : t.pool = s.pool) (hsame : s.Same t) (h : s.Twins t r r')
    (source destination state : Value) :
    Alike Session.Same (r.run depth source destination state s)
      (r'.run depth source destination state t) :=
  run_peers hunique depth owner owner' s t r r' hs ht hpool hsame
    (h.peers hunique hs ht hpool) source destination state

end

/-! ## Warm and cold -/

section

variable {mappings : Mapping → Prop} {s : Session}

theorem Session.registryAlive_newRegistry (s : Session) :
    s.newRegistry.2.registryAlive s.newRegistry.1 = true := by
  simp [newRegistry, registryAlive, registryWith?]

/-- A routine that a registry keeps does what one does that is compiled now, in a new registry. -/
theorem Session.Reachable.run_alike_fresh (h : s.Reachable mappings)
    (hunique : ∀ m m', mappings m → mappings m' → m.id = m'.id → m = m')
    {registry : RegistryId} {key : RoutineKey} {r : Routine} {mapping : Mapping}
    (halive : s.registryAlive registry = true) (hcached : s.cached? registry key = some r)
    (hmapping : mappings mapping) (hid : mapping.id = key.mapping) :
    ∃ fresh s', Session.getOrCompile s.newRegistry.1 key.source key.target mapping s.newRegistry.2 =
        .ok fresh s' ∧ s'.pool = s.pool ∧ s.Same s' ∧
      ∀ depth source destination state, Alike Session.Same
        (r.run depth source destination state s) (fresh.run depth source destination state s') := by
  obtain ⟨owner, howned⟩ := h.coherent
  obtain ⟨hknows, rfl, hregistry⟩ := howned.registry_of_cached? hcached
  obtain ⟨-, -, hmapping', hmade⟩ := howned.madeIn hknows
  obtain rfl := hunique _ _ hmapping' hmapping (hmade.mapping.symm.trans hid.symm)
  have hnew := howned.newRegistry
  let linkage : Linkage := ⟨⟨0⟩, s.newRegistry.1, r.linkage.mapping⟩
  have hnewAlive : s.newRegistry.2.registryAlive linkage.registry = true :=
    s.registryAlive_newRegistry
  have hbody : r.linkage.mapping.body s.newRegistry.2.pool r.key.source r.key.target = .ok r.body :=
    hmade.body
  obtain ⟨fresh, s', hrun⟩ := Session.exists_getOrCompile s.newRegistry.1 ⟨r.body, hbody⟩
  have hfinds : Ensures (Session.getOrCompile linkage.registry r.key.source r.key.target
      linkage.mapping) s.newRegistry.2 _ _ :=
    getOrCompile_finds hnew _ _ hmapping (exists_of_registryAlive hnewAlive)
  have hfinds := hfinds.of_run hrun
  have hrefuses := (getOrCompile_refuses s.newRegistry.1 r.key.source r.key.target
    r.linkage.mapping s.newRegistry.2).of_run hrun
  obtain ⟨owner', -, howned'⟩ := hfinds.evolves.owned
  have hsame : s.Same s' := ⟨hfinds.heap, hrefuses⟩
  refine ⟨fresh, s', hrun, hfinds.evolves.pool, hsame, fun depth source destination state => ?_⟩
  refine Routine.run_mirrored hunique depth owner owner' s s' r fresh howned howned'
    hfinds.evolves.pool hsame ⟨hknows, hfinds.knows, ?_, ?_, ?_⟩ source destination state
  · rw [hfinds.answers.key, ← hmade.mapping]
  · rw [hregistry]
    exact halive
  · rw [hfinds.answers.registry, hfinds.evolves.alive]
    exact hnewAlive

end

/-! ## A list that is copied again -/

namespace Recopied

/-- A list of an integer and of null. -/
def heap : Heap where
  instances := #[.seq ShapeId.untypedList #[.int 1, .null]]

/-- The registry keeps the routine that copies lists. -/
def cold : Session :=
  .compiling [] heap Mapping.initial ShapeId.untypedList ShapeId.untypedList

/-- It has copied the list, so that it keeps the routine that copies integers too, and the pool
has grown. -/
def warm : Session :=
  let copied := After ((Session.compiled [] heap Mapping.initial ShapeId.untypedList
    ShapeId.untypedList).run 2 (.ref ⟨0⟩) .null .null) cold
  { copied with pool := (Pool.Operation.listOf ShapeId.int).apply copied.pool }

theorem reachable : warm.Reachable (· = Mapping.initial) := by
  have h : cold.Reachable (· = Mapping.initial) :=
    Session.reachable_compiling [] heap Mapping.initial ShapeId.untypedList ShapeId.untypedList
  refine (h.run (Session.knows_of_cached? ?_).1 2 (.ref ⟨0⟩) .null .null).withPool
    (.listOf ShapeId.int)
  rfl

end Recopied

/-- In a registry that keeps two routines, the one that copies lists does what a new one does. -/
theorem Session.Reachable.run_alike_fresh_recopied :
    (Recopied.warm.registryWith? ⟨0⟩).map Registry.size = some 2 ∧ ∃ r fresh s',
    Recopied.warm.cached? ⟨0⟩ ⟨ShapeId.untypedList, ShapeId.untypedList, ⟨"default"⟩⟩ = some r ∧
      Session.getOrCompile ⟨1⟩ ShapeId.untypedList ShapeId.untypedList Mapping.initial
        Recopied.warm.newRegistry.2 = .ok fresh s' ∧
      Alike Session.Same (r.run 2 (.ref ⟨0⟩) .null .null Recopied.warm)
        (fresh.run 2 (.ref ⟨0⟩) .null .null s') := by
  have hcached : ∃ r, Recopied.warm.cached? ⟨0⟩
      ⟨ShapeId.untypedList, ShapeId.untypedList, ⟨"default"⟩⟩ = some r := ⟨_, rfl⟩
  obtain ⟨r, hcached⟩ := hcached
  have hunique : ∀ m m', m = Mapping.initial → m' = Mapping.initial → m.id = m'.id → m = m' :=
    fun m m' h h' _ => h.trans h'.symm
  obtain ⟨fresh, s', hfresh, -, -, hruns⟩ :=
    Recopied.reachable.run_alike_fresh hunique rfl hcached rfl rfl
  exact ⟨rfl, r, fresh, s', hcached, hfresh, hruns 2 _ _ _⟩

end Reshape
