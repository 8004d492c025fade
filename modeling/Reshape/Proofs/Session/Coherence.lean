import Reshape.Proofs.Pool.Growth
import Reshape.Routine.Session

/-!
# Coherent sessions

A session is coherent (`Session.Coherent`) if its routines are what they are kept for : a routine
has the body that its mapping gives to the two shapes of its key, and a link leads to a routine for
its two shapes. `Session.Evolves` says what finding routines may leave behind : the pool is the
same, registries live as before, and routines that were known are still known.

Whatever way a routine is found, it is known from then on and is the one that was asked for
(`Session.getOrCompile_finds`, `Session.resolveDynamic_finds`, `Session.resolve_finds`).
-/

namespace Reshape

/-! ## What holds of routines -/

/-- The routine has the body of its shapes under its mapping. -/
structure Routine.MadeIn (pool : Pool) (r : Routine) : Prop where
  mapping : r.key.mapping = r.linkage.mapping.id
  body : r.linkage.mapping.body pool r.key.source r.key.target = .ok r.body

/-- The routine is the one for two shapes, as code with this linkage asks for it. -/
structure Routine.Answers (linkage : Linkage) (source target : ShapeId) (r : Routine) : Prop where
  key : r.key = ⟨source, target, linkage.mapping.id⟩
  registry : r.linkage.registry = linkage.registry

namespace Session

/-- Some registry of the session keeps the routine. -/
def Knows (s : Session) (r : Routine) : Prop :=
  ∃ (i : Nat) (registry : Registry), s.registries[i]? = some registry ∧ r ∈ registry.routines

theorem knows_of_cached? {s : Session} {id : RegistryId} {key : RoutineKey}
    (h : (s.cached? id key).isSome = true) : s.Knows ((s.cached? id key).getD default) ∧
      ((s.cached? id key).getD default).key = key := by
  obtain ⟨r, hr⟩ := Option.isSome_iff_exists.mp h
  obtain ⟨registry, hregistry, hfind⟩ := Option.bind_eq_some_iff.mp hr
  rw [hr]
  exact ⟨⟨id.index, registry, hregistry, List.mem_of_find?_eq_some hfind⟩,
    of_decide_eq_true (List.find?_some hfind :)⟩

/-- Routines and links are what they should be, where `owner` tells linkages by their numbers. -/
structure Owned (mappings : Mapping → Prop) (owner : Nat → Linkage) (s : Session) : Prop where
  pool : Pool.initial.GrowsTo s.pool
  linkage : ∀ i < s.linkages, mappings (owner i).mapping
  routine : ∀ (i : Nat) (registry : Registry), s.registries[i]? = some registry →
    ∀ r ∈ registry.routines, r.linkage.id.index < s.linkages ∧
      owner r.linkage.id.index = r.linkage ∧ r.linkage.registry = ⟨i⟩ ∧ r.MadeIn s.pool
  resolution : ∀ r ∈ s.resolutions, r.linkage.index < s.linkages ∧ s.Knows r.routine ∧
    r.routine.Answers (owner r.linkage.index) r.link.source r.link.target

/-- Routines and links are what they should be. -/
def Coherent (mappings : Mapping → Prop) (s : Session) : Prop :=
  ∃ owner, s.Owned mappings owner

/-- What a run from `s₀` may leave behind. Linkages keep their owners. -/
structure Evolves (mappings : Mapping → Prop) (owner : Nat → Linkage) (s₀ s : Session) : Prop where
  pool : s.pool = s₀.pool
  linkages : s₀.linkages ≤ s.linkages
  alive : s.registryAlive = s₀.registryAlive
  knows : ∀ r, s₀.Knows r → s.Knows r
  owned : ∃ owner', (∀ i < s₀.linkages, owner' i = owner i) ∧ s.Owned mappings owner'

variable {mappings : Mapping → Prop} {owner : Nat → Linkage} {s s₀ s₁ : Session}

theorem Evolves.refl (h : s.Owned mappings owner) : s.Evolves mappings owner s :=
  ⟨rfl, Nat.le_refl _, rfl, fun _ h => h, owner, fun _ _ => rfl, h⟩

theorem Evolves.coherent (h : s₀.Evolves mappings owner s) : s.Coherent mappings := by
  obtain ⟨owner', -, howned⟩ := h.owned
  exact ⟨owner', howned⟩

/-- What comes after a later session comes after the first. -/
theorem Evolves.trans {owner₁ : Nat → Linkage} (h : s₀.Evolves mappings owner s₁)
    (hagree : ∀ i < s₀.linkages, owner₁ i = owner i) (h' : s₁.Evolves mappings owner₁ s) :
    s₀.Evolves mappings owner s := by
  obtain ⟨hpool, hlinkages, halive, hknows, owner₂, hagree', howned'⟩ := h'
  refine ⟨hpool.trans h.pool, Nat.le_trans h.linkages hlinkages, halive.trans h.alive,
    fun r hr => hknows r (h.knows r hr), owner₂, fun i hi => ?_, howned'⟩
  rw [hagree' i (Nat.lt_of_lt_of_le hi h.linkages), hagree i hi]

theorem Owned.withHeap (h : s.Owned mappings owner) (heap : Heap) :
    Owned mappings owner { s with heap := heap } :=
  ⟨h.pool, h.linkage, h.routine, h.resolution⟩

theorem Evolves.withHeap (h : s₀.Evolves mappings owner s) (heap : Heap) :
    s₀.Evolves mappings owner { s with heap := heap } := by
  obtain ⟨owner', hagree, howned⟩ := h.owned
  exact ⟨h.pool, h.linkages, h.alive, h.knows, owner', hagree, howned.withHeap heap⟩

theorem Owned.withCalls (h : s.Owned mappings owner) (calls : List ConverterCall) :
    Owned mappings owner { s with calls := calls } :=
  ⟨h.pool, h.linkage, h.routine, h.resolution⟩

theorem Evolves.withCalls (h : s₀.Evolves mappings owner s) (calls : List ConverterCall) :
    s₀.Evolves mappings owner { s with calls := calls } := by
  obtain ⟨owner', hagree, howned⟩ := h.owned
  exact ⟨h.pool, h.linkages, h.alive, h.knows, owner', hagree, howned.withCalls calls⟩

/-! ## Registries -/

theorem getElem?_registries_modifyRegistry (id : RegistryId) (f : Registry → Registry) (i : Nat) :
    (s.modifyRegistry id f).registries[i]? =
      if id.index = i then s.registries[i]?.map f else s.registries[i]? := by
  rw [modifyRegistry, List.getElem?_modify]
  split <;> simp_all

/-- A change of a registry that takes no routine away. -/
theorem Knows.modifyRegistry {id : RegistryId} {f : Registry → Registry} {r : Routine}
    (hf : ∀ registry, registry.routines ⊆ (f registry).routines) (h : s.Knows r) :
    (s.modifyRegistry id f).Knows r := by
  obtain ⟨i, registry, hi, hr⟩ := h
  refine ⟨i, if id.index = i then f registry else registry, ?_, ?_⟩
  · rw [getElem?_registries_modifyRegistry, hi]
    split <;> rfl
  · split
    · exact hf registry hr
    · exact hr

/-- A change of a registry that makes no difference to its routines. -/
theorem Owned.modifyRegistry {id : RegistryId} {f : Registry → Registry}
    (hf : ∀ registry, (f registry).routines = registry.routines) (h : s.Owned mappings owner) :
    (s.modifyRegistry id f).Owned mappings owner := by
  refine ⟨h.pool, h.linkage, fun i registry hi => ?_, fun r hr => ?_⟩
  · rw [getElem?_registries_modifyRegistry] at hi
    split at hi
    · obtain ⟨registry', hi', rfl⟩ := Option.map_eq_some_iff.mp hi
      rw [hf]
      exact h.routine i registry' hi'
    · exact h.routine i registry hi
  · obtain ⟨hlt, hknows, hanswers⟩ := h.resolution r hr
    exact ⟨hlt, hknows.modifyRegistry fun registry => by rw [hf]; exact fun _ h => h, hanswers⟩

theorem registryAlive_modifyRegistry {id : RegistryId} {f : Registry → Registry}
    (hf : ∀ registry, (f registry).owners = registry.owners) :
    (s.modifyRegistry id f).registryAlive = s.registryAlive := by
  funext id'
  unfold registryAlive registryWith?
  rw [getElem?_registries_modifyRegistry]
  split
  · cases s.registries[id'.index]? with
    | none => rfl
    | some registry => simp [hf]
  · rfl

theorem exists_of_registryAlive {id : RegistryId} (h : s.registryAlive id = true) :
    ∃ registry, s.registries[id.index]? = some registry := by
  unfold registryAlive registryWith? at h
  cases hr : s.registries[id.index]? with
  | none => simp [hr] at h
  | some registry => exact ⟨registry, rfl⟩

/-! ## Compiling -/

/-- The session in which a registry has come to keep one more routine, with a linkage of its own. -/
def keeping (routine : Routine) (s : Session) : Session :=
  modifyRegistry routine.linkage.registry
    (fun registry => { registry with routines := registry.routines ++ [routine] })
    { s with linkages := s.linkages + 1 }

theorem knows_keeping {routine : Routine}
    (hregistry : ∃ registry, s.registries[routine.linkage.registry.index]? = some registry) :
    (s.keeping routine).Knows routine := by
  obtain ⟨registry, hr⟩ := hregistry
  refine ⟨routine.linkage.registry.index,
    { registry with routines := registry.routines ++ [routine] }, ?_, ?_⟩
  · rw [keeping, getElem?_registries_modifyRegistry, if_pos rfl]
    exact congrArg (Option.map _) hr
  · exact List.mem_append_right _ (List.mem_singleton_self _)

/-- A new routine is kept with a new linkage. -/
theorem Owned.evolves_keeping {routine : Routine} (h : s.Owned mappings owner)
    (hid : routine.linkage.id = ⟨s.linkages⟩) (hmapping : mappings routine.linkage.mapping)
    (hmade : routine.MadeIn s.pool) : s.Evolves mappings owner (s.keeping routine) := by
  have hgrows : ∀ registry : Registry, registry.routines ⊆
      ({ registry with routines := registry.routines ++ [routine] } : Registry).routines :=
    fun registry => List.subset_append_left _ _
  have hknows : ∀ r, s.Knows r → (s.keeping routine).Knows r := fun r hr =>
    Knows.modifyRegistry (s := { s with linkages := s.linkages + 1 }) hgrows hr
  let owner' : Nat → Linkage := fun i => if i = s.linkages then routine.linkage else owner i
  have hagree : ∀ i < s.linkages, owner' i = owner i := fun i hi => if_neg (Nat.ne_of_lt hi)
  refine ⟨rfl, Nat.le_succ _, ?_, hknows, owner', hagree, h.pool, ?_, ?_, ?_⟩
  · exact registryAlive_modifyRegistry fun _ => rfl
  · intro i hi
    rcases Nat.lt_succ_iff_lt_or_eq.mp hi with hi | rfl
    · rw [hagree i hi]
      exact h.linkage i hi
    · rw [show owner' s.linkages = routine.linkage from if_pos rfl]
      exact hmapping
  · intro i registry hi r hr
    rw [keeping, getElem?_registries_modifyRegistry] at hi
    have hold : ∀ registry, s.registries[i]? = some registry → r ∈ registry.routines →
        r.linkage.id.index < s.linkages + 1 ∧ owner' r.linkage.id.index = r.linkage ∧
          r.linkage.registry = ⟨i⟩ ∧ r.MadeIn s.pool := by
      intro registry hi hr
      obtain ⟨hlt, howner, hrest⟩ := h.routine i registry hi r hr
      exact ⟨Nat.lt_succ_of_lt hlt, (hagree _ hlt).trans howner, hrest⟩
    split at hi
    · rename_i hindex
      obtain ⟨registry', hi', rfl⟩ := Option.map_eq_some_iff.mp hi
      rcases List.mem_append.mp hr with hr | hr
      · exact hold registry' hi' hr
      · obtain rfl := List.mem_singleton.mp hr
        refine ⟨?_, ?_, ?_, hmade⟩
        · rw [hid]
          exact Nat.lt_succ_self _
        · rw [hid]
          exact if_pos rfl
        · rw [← hindex]
    · exact hold registry hi hr
  · intro r hr
    obtain ⟨hlt, hr', hanswers⟩ := h.resolution r hr
    exact ⟨Nat.lt_succ_of_lt hlt, hknows _ hr', (hagree _ hlt).symm ▸ hanswers⟩

/-- The session in which a registry has counted one more compilation. -/
def counting (registry : RegistryId) (s : Session) : Session :=
  s.modifyRegistry registry fun r => { r with compiles := r.compiles + 1 }

theorem compileRoutine_eq_error {registry : RegistryId} {key : RoutineKey} {mapping : Mapping}
    {e : CompileError} (h : mapping.body s.pool key.source key.target = .error e) :
    compileRoutine registry key mapping s = .error e (s.counting registry) := by
  unfold compileRoutine
  rw [modify_bind, get_bind]
  change mapping.body (s.counting registry).pool key.source key.target = .error e at h
  unfold counting at h
  rw [h]
  rfl

/-- A compilation that succeeds counts, and keeps the routine under its key. -/
theorem compileRoutine_eq_ok (registry : RegistryId) {key : RoutineKey} {mapping : Mapping}
    {body : Body} (h : mapping.body s.pool key.source key.target = .ok body) :
    ∃ routine : Routine,
      routine = ⟨key, mapping.copyMode, body, ⟨⟨s.linkages⟩, registry, mapping⟩⟩ ∧
      compileRoutine registry key mapping s =
        .ok routine ((s.counting registry).keeping routine) := by
  refine ⟨_, rfl, ?_⟩
  unfold compileRoutine
  rw [modify_bind, get_bind]
  change mapping.body (s.counting registry).pool key.source key.target = .ok body at h
  unfold counting at h
  rw [h]
  rfl

/-- What compiling may leave behind. -/
theorem compileRoutine_evolves (h : s.Owned mappings owner) {registry : RegistryId}
    {key : RoutineKey} {mapping : Mapping} (hmapping : mappings mapping)
    (hkey : key.mapping = mapping.id)
    (hregistry : ∃ known, s.registries[registry.index]? = some known) :
    Ensures (compileRoutine registry key mapping) s
      (fun r s' => s.Evolves mappings owner s' ∧ s'.heap = s.heap ∧ s'.Knows r ∧ r.key = key ∧
        r.linkage.registry = registry)
      fun _ s' => s.Evolves mappings owner s' ∧ s'.heap = s.heap := by
  have hcounted : s.Evolves mappings owner (s.counting registry) := by
    refine ⟨rfl, Nat.le_refl _, registryAlive_modifyRegistry fun _ => rfl, ?_, owner,
      fun _ _ => rfl, h.modifyRegistry fun _ => rfl⟩
    exact fun r hr => hr.modifyRegistry fun _ => List.Subset.refl _
  unfold Ensures
  cases hbody : mapping.body s.pool key.source key.target with
  | error e =>
    rw [compileRoutine_eq_error hbody]
    exact ⟨hcounted, rfl⟩
  | ok body =>
    obtain ⟨routine, hroutine, hrun⟩ := compileRoutine_eq_ok registry hbody
    rw [hrun]
    subst hroutine
    obtain ⟨owner', hagree, howned⟩ := hcounted.owned
    refine ⟨hcounted.trans hagree (howned.evolves_keeping rfl hmapping ⟨hkey, hbody⟩), rfl, ?_,
      rfl, rfl⟩
    refine knows_keeping ?_
    obtain ⟨known, hknown⟩ := hregistry
    exact ⟨_, by rw [counting, getElem?_registries_modifyRegistry, if_pos rfl, hknown]; rfl⟩

/-! ## Finding routines -/

/-- A later session that knows the routine, with the same heap. -/
structure Finds (mappings : Mapping → Prop) (owner : Nat → Linkage) (s : Session)
    (linkage : Linkage) (source target : ShapeId) (r : Routine) (s' : Session) : Prop where
  evolves : s.Evolves mappings owner s'
  heap : s'.heap = s.heap
  knows : s'.Knows r
  answers : r.Answers linkage source target

/-- A registry gives out a routine for the key it was asked for. -/
theorem getOrCompile_finds (h : s.Owned mappings owner) {linkage : Linkage}
    (source target : ShapeId) (hmapping : mappings linkage.mapping)
    (hregistry : ∃ known, s.registries[linkage.registry.index]? = some known) :
    Ensures (getOrCompile linkage.registry source target linkage.mapping) s
      (Finds mappings owner s linkage source target)
      fun _ s' => s.Evolves mappings owner s' ∧ s'.heap = s.heap := by
  cases hcached : s.cached? linkage.registry ⟨source, target, linkage.mapping.id⟩ with
  | some routine =>
    obtain ⟨registry, hr, hfind⟩ := Option.bind_eq_some_iff.mp hcached
    have hmem := List.mem_of_find?_eq_some hfind
    obtain ⟨-, -, hregistry, -⟩ := h.routine _ registry hr routine hmem
    exact .of_ok (getOrCompile_of_cached hcached) ⟨.refl h, rfl, ⟨_, registry, hr, hmem⟩,
      of_decide_eq_true (List.find?_some hfind :), hregistry⟩
  | none =>
    refine .of_eq (getOrCompile_of_not_cached hcached)
      ((compileRoutine_evolves h hmapping rfl hregistry).mono ?_ fun _ _ h => h)
    rintro r s' ⟨hevolves, hheap, hknows, hkey, hregistry⟩
    exact ⟨hevolves, hheap, hknows, hkey, hregistry⟩

/-- A routine asked for by shape comes from the registry of the linkage, if that is alive. -/
theorem resolveDynamic_finds (h : s.Owned mappings owner) {linkage : Linkage}
    (source target : ShapeId) (hmapping : mappings linkage.mapping) :
    Ensures (resolveDynamic linkage source target) s
      (Finds mappings owner s linkage source target)
      fun _ s' => s.Evolves mappings owner s' ∧ s'.heap = s.heap := by
  unfold resolveDynamic
  change Ensures (if s.registryAlive linkage.registry then
    (getOrCompile linkage.registry source target linkage.mapping).toRun
    else throw (.failed .registryDropped)) s _ _
  split
  · rename_i halive
    have hfinds := getOrCompile_finds h source target hmapping (exists_of_registryAlive halive)
    unfold Ensures CompileM.toRun at *
    cases hrun : getOrCompile linkage.registry source target linkage.mapping s with
    | ok r s' => rw [hrun] at hfinds; exact hfinds
    | error e s' => rw [hrun] at hfinds; exact hfinds
  · exact Ensures.throw ⟨.refl h, rfl⟩

theorem heap_noteResolution (linkage : Linkage) (link : Link) (routine : Routine) (s : Session) :
    (s.noteResolution linkage link routine).heap = s.heap := by
  unfold noteResolution
  split <;> rfl

theorem knows_noteResolution {linkage : Linkage} {link : Link} {routine r : Routine}
    (h : s.Knows r) : (s.noteResolution linkage link routine).Knows r := by
  unfold noteResolution
  split <;> exact h

/-- A resolution that leads to a routine for its link. -/
theorem Owned.evolves_noteResolution (h : s.Owned mappings owner) {linkage : Linkage} {link : Link}
    {routine : Routine} (hlt : linkage.id.index < s.linkages)
    (howner : owner linkage.id.index = linkage) (hknows : s.Knows routine)
    (hanswers : routine.Answers linkage link.source link.target) :
    s.Evolves mappings owner (s.noteResolution linkage link routine) := by
  unfold noteResolution
  split
  · exact .refl h
  · refine ⟨rfl, Nat.le_refl _, rfl, fun _ h => h, owner, fun _ _ => rfl, h.pool, h.linkage,
      h.routine, fun r hr => ?_⟩
    rcases List.mem_append.mp hr with hr | hr
    · exact h.resolution r hr
    · obtain rfl := List.mem_singleton.mp hr
      exact ⟨hlt, hknows, howner.symm ▸ hanswers⟩

theorem resolve_finds (h : s.Owned mappings owner) {linkage : Linkage} (link : Link)
    (hlt : linkage.id.index < s.linkages) (howner : owner linkage.id.index = linkage) :
    Ensures (resolve linkage link) s (Finds mappings owner s linkage link.source link.target)
      fun _ s' => s.Evolves mappings owner s' ∧ s'.heap = s.heap := by
  have hmapping : mappings linkage.mapping := howner ▸ h.linkage _ hlt
  cases hlinked : s.linked? linkage link with
  | some routine =>
    obtain ⟨hresolution, -⟩ := Option.filter_eq_some_iff.mp hlinked
    obtain ⟨r, hfind, rfl⟩ := Option.map_eq_some_iff.mp hresolution
    obtain ⟨hlinkage, hlink⟩ := Bool.and_eq_true_iff.mp (List.find?_some hfind :)
    obtain ⟨-, hknows, hanswers⟩ := h.resolution r (List.mem_of_find?_eq_some hfind)
    rw [eq_of_beq hlinkage, howner, eq_of_beq hlink] at hanswers
    exact .of_ok (resolve_of_linked hlinked) ⟨.refl h, rfl, hknows, hanswers⟩
  | none =>
    refine .of_eq (resolve_of_not_linked hlinked) (Ensures.bind
      ((resolveDynamic_finds h link.source link.target hmapping).mono ?_ fun _ _ h => h))
    intro r s' hfinds
    refine ⟨?_, ?_, ?_, hfinds.answers⟩
    · obtain ⟨owner', hagree, howned⟩ := hfinds.evolves.owned
      refine hfinds.evolves.trans hagree ?_
      exact howned.evolves_noteResolution (Nat.lt_of_lt_of_le hlt hfinds.evolves.linkages)
        ((hagree _ hlt).trans howner) hfinds.knows hfinds.answers
    · exact (heap_noteResolution ..).trans hfinds.heap
    · exact knows_noteResolution hfinds.knows

/-! ## Finding routines that can be compiled -/

section

variable {s : Session} {mapping : Mapping} {source target : ShapeId}

/-- A routine is kept already or is compiled, if it has a body. -/
theorem exists_getOrCompile (registry : RegistryId)
    (hbody : ∃ body, mapping.body s.pool source target = .ok body) :
    ∃ r s', getOrCompile registry source target mapping s = .ok r s' := by
  cases hcached : s.cached? registry ⟨source, target, mapping.id⟩ with
  | some routine => exact ⟨routine, s, getOrCompile_of_cached hcached⟩
  | none =>
    obtain ⟨body, hbody⟩ := hbody
    obtain ⟨routine, -, hrun⟩ :=
      @compileRoutine_eq_ok s registry ⟨source, target, mapping.id⟩ mapping body hbody
    exact ⟨routine, _, (getOrCompile_of_not_cached hcached).trans hrun⟩

theorem exists_resolveDynamic {linkage : Linkage} (halive : s.registryAlive linkage.registry = true)
    (hbody : ∃ body, linkage.mapping.body s.pool source target = .ok body) :
    ∃ r s', resolveDynamic linkage source target s = .ok r s' := by
  obtain ⟨r, s', hrun⟩ := exists_getOrCompile linkage.registry hbody
  refine ⟨r, s', ?_⟩
  change (if s.registryAlive linkage.registry then
    (getOrCompile linkage.registry source target linkage.mapping).toRun
    else throw (.failed .registryDropped) : RunM Routine) s = _
  rw [if_pos halive]
  unfold CompileM.toRun
  rw [hrun]

theorem exists_resolve {linkage : Linkage} {link : Link}
    (halive : s.registryAlive linkage.registry = true)
    (hbody : ∃ body, linkage.mapping.body s.pool link.source link.target = .ok body) :
    ∃ r s', resolve linkage link s = .ok r s' := by
  cases hlinked : s.linked? linkage link with
  | some routine => exact ⟨routine, s, resolve_of_linked hlinked⟩
  | none =>
    obtain ⟨r, s', hrun⟩ := exists_resolveDynamic halive hbody
    refine ⟨r, s'.noteResolution linkage link r, ?_⟩
    rw [resolve_of_not_linked hlinked]
    simp only [bind, EStateM.bind, hrun]
    rfl

end

end Session

/-! ## Finding nothing -/

/-- There is no routine for the two shapes, for the reason that the run stops with : the registry
is gone, or there is no body. -/
def Linkage.Refuses (linkage : Linkage) (s : Session) (source target : ShapeId) (stop : Stop) :
    Prop :=
  s.registryAlive linkage.registry = false ∧ stop = .failed .registryDropped ∨
    ∃ e, stop = .failed (.compile e) ∧ linkage.mapping.body s.pool source target = .error e

theorem Linkage.Refuses.exists_error {linkage : Linkage} {s : Session} {source target : ShapeId}
    {stop : Stop} (h : linkage.Refuses s source target stop)
    (halive : s.registryAlive linkage.registry = true) :
    ∃ e, stop = .failed (.compile e) ∧ linkage.mapping.body s.pool source target = .error e := by
  rcases h with ⟨hdead, -⟩ | h
  · rw [halive] at hdead
    cases hdead
  · exact h

namespace Session

theorem getOrCompile_refuses (registry : RegistryId) (source target : ShapeId) (mapping : Mapping)
    (s : Session) : Ensures (getOrCompile registry source target mapping) s
      (fun _ s' => s'.calls = s.calls)
      fun e s' => s'.calls = s.calls ∧ mapping.body s.pool source target = .error e := by
  cases hcached : s.cached? registry ⟨source, target, mapping.id⟩ with
  | some routine => exact .of_ok (getOrCompile_of_cached hcached) rfl
  | none =>
    refine .of_eq (getOrCompile_of_not_cached hcached) ?_
    unfold Ensures
    cases hbody : mapping.body s.pool source target with
    | error e =>
      dsimp only
      rw [compileRoutine_eq_error hbody]
      exact ⟨rfl, rfl⟩
    | ok body =>
      obtain ⟨routine, -, hrun⟩ :=
        @compileRoutine_eq_ok s registry ⟨source, target, mapping.id⟩ mapping body hbody
      dsimp only
      rw [hrun]
      rfl

theorem resolveDynamic_refuses (linkage : Linkage) (source target : ShapeId) (s : Session) :
    Ensures (resolveDynamic linkage source target) s (fun _ s' => s'.calls = s.calls)
      fun stop s' => s'.calls = s.calls ∧ linkage.Refuses s source target stop := by
  have hrefuses := getOrCompile_refuses linkage.registry source target linkage.mapping s
  change Ensures (if s.registryAlive linkage.registry then
    (getOrCompile linkage.registry source target linkage.mapping).toRun
    else throw (.failed .registryDropped)) s _ _
  split
  · unfold Ensures CompileM.toRun at *
    cases hrun : getOrCompile linkage.registry source target linkage.mapping s with
    | ok r s' =>
      rw [hrun] at hrefuses
      exact hrefuses
    | error e s' =>
      rw [hrun] at hrefuses
      exact ⟨hrefuses.1, .inr ⟨e, rfl, hrefuses.2⟩⟩
  · rename_i halive
    exact Ensures.throw ⟨rfl, .inl ⟨Bool.eq_false_iff.mpr halive, rfl⟩⟩

theorem calls_noteResolution (linkage : Linkage) (link : Link) (routine : Routine) (s : Session) :
    (s.noteResolution linkage link routine).calls = s.calls := by
  unfold noteResolution
  split <;> rfl

theorem resolve_refuses (linkage : Linkage) (link : Link) (s : Session) :
    Ensures (resolve linkage link) s (fun _ s' => s'.calls = s.calls)
      fun stop s' => s'.calls = s.calls ∧ linkage.Refuses s link.source link.target stop := by
  cases hlinked : s.linked? linkage link with
  | some routine => exact .of_ok (resolve_of_linked hlinked) rfl
  | none =>
    refine .of_eq (resolve_of_not_linked hlinked) (Ensures.bind
      ((resolveDynamic_refuses linkage link.source link.target s).mono ?_ fun _ _ h => h))
    exact fun r s' hcalls => (calls_noteResolution ..).trans hcalls

end Session

/-! ## Searches -/

namespace Session

variable {mappings : Mapping → Prop} {owner : Nat → Linkage} {s : Session} {linkage : Linkage}
  {source target : ShapeId} {r : Routine}

/-- A routine that the session knows, and what it is made of. -/
theorem Owned.madeIn (h : s.Owned mappings owner) (hr : s.Knows r) :
    r.linkage.id.index < s.linkages ∧ owner r.linkage.id.index = r.linkage ∧
      mappings r.linkage.mapping ∧ r.MadeIn s.pool := by
  obtain ⟨i, registry, hi, hmem⟩ := hr
  obtain ⟨hlt, howner, -, hmade⟩ := h.routine i registry hi r hmem
  exact ⟨hlt, howner, howner ▸ h.linkage _ hlt, hmade⟩

/-- A routine that a registry keeps. -/
theorem Owned.registry_of_cached? (h : s.Owned mappings owner) {registry : RegistryId}
    {key : RoutineKey} (hcached : s.cached? registry key = some r) :
    s.Knows r ∧ r.key = key ∧ r.linkage.registry = registry := by
  obtain ⟨kept, hkept, hfind⟩ := Option.bind_eq_some_iff.mp hcached
  have hmem := List.mem_of_find?_eq_some hfind
  obtain ⟨-, -, hregistry, -⟩ := h.routine _ kept hkept r hmem
  exact ⟨⟨_, kept, hkept, hmem⟩, of_decide_eq_true (List.find?_some hfind :), hregistry⟩

/-- The body of a routine that is found is the one that code with the linkage asks for. -/
theorem Finds.body {s' : Session} (h : s.Finds mappings owner linkage source target r s')
    (hunique : ∀ m m', mappings m → mappings m' → m.id = m'.id → m = m')
    (hmapping : mappings linkage.mapping) :
    r.linkage.mapping = linkage.mapping ∧
      linkage.mapping.body s.pool source target = .ok r.body := by
  obtain ⟨owner', -, howned⟩ := h.evolves.owned
  obtain ⟨-, -, hmapping', hmade⟩ := howned.madeIn h.knows
  have hid := hmade.mapping
  have hbody := hmade.body
  rw [h.answers.key] at hid hbody
  have heq : r.linkage.mapping = linkage.mapping := hunique _ _ hmapping' hmapping hid.symm
  rw [heq, h.evolves.pool] at hbody
  exact ⟨heq, hbody⟩

/-- What comes of looking for the routine for two shapes : the routine, or the reason why there is
none. No converter is called. -/
def Searches (mappings : Mapping → Prop) (owner : Nat → Linkage) (s : Session) (linkage : Linkage)
    (source target : ShapeId) (x : RunM Routine) : Prop :=
  Ensures x s
    (fun r s' => s.Finds mappings owner linkage source target r s' ∧ s'.calls = s.calls)
    fun stop s' => (s.Evolves mappings owner s' ∧ s'.heap = s.heap) ∧ s'.calls = s.calls ∧
      linkage.Refuses s source target stop

theorem resolveDynamic_searches (h : s.Owned mappings owner) (hmapping : mappings linkage.mapping)
    (source target : ShapeId) :
    s.Searches mappings owner linkage source target (resolveDynamic linkage source target) :=
  (resolveDynamic_finds h source target hmapping).and (resolveDynamic_refuses ..)

theorem resolve_searches (h : s.Owned mappings owner) (hlt : linkage.id.index < s.linkages)
    (howner : owner linkage.id.index = linkage) (link : Link) :
    s.Searches mappings owner linkage link.source link.target (resolve linkage link) :=
  (resolve_finds h link hlt howner).and (resolve_refuses ..)

end Session

end Reshape
