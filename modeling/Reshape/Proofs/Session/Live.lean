import Reshape.Proofs.Session.Coherence
import Reshape.Proofs.Value.Heap

/-!
# Sessions that keep what they hold

A session precedes the ones that come of it while instances are only added (`Session.Precedes`). A
routine is live (`Routine.Live`) if the session knows it and its registry lives, so that the
routines that it asks for can be found or compiled (`Routine.Live.of_finds`).
-/

namespace Reshape

/-- Instances stay as they are, routines stay known, and registries live as before. -/
structure Session.Precedes (mappings : Mapping → Prop) (s s' : Session) : Prop where
  coherent : s'.Coherent mappings
  pool : s'.pool = s.pool
  alive : s'.registryAlive = s.registryAlive
  knows : ∀ r, s.Knows r → s'.Knows r
  kept : s.heap.Kept s'.heap

namespace Session.Precedes

variable {mappings : Mapping → Prop} {s s₁ s' : Session}

theorem refl (h : s.Coherent mappings) : s.Precedes mappings s :=
  ⟨h, rfl, rfl, fun _ hr => hr, .refl _⟩

theorem trans (h : s.Precedes mappings s₁) (h' : s₁.Precedes mappings s') :
    s.Precedes mappings s' :=
  ⟨h'.coherent, h'.pool.trans h.pool, h'.alive.trans h.alive, fun r hr => h'.knows r (h.knows r hr),
    h.kept.trans h'.kept⟩

theorem withHeap {heap : Heap} (h : s.Precedes mappings s') (hk : s.heap.Kept heap) :
    s.Precedes mappings { s' with heap := heap } := by
  obtain ⟨owner, howned⟩ := h.coherent
  exact ⟨⟨owner, howned.withHeap heap⟩, h.pool, h.alive, h.knows, hk⟩

theorem of_evolves {owner : Nat → Linkage} (h : s.Evolves mappings owner s')
    (hheap : s'.heap = s.heap) : s.Precedes mappings s' :=
  ⟨h.coherent, h.pool, h.alive, h.knows, by rw [hheap]; exact .refl _⟩

end Session.Precedes

/-- A session of the pool that still holds the instances of a heap. -/
structure Session.Holds (mappings : Mapping → Prop) (pool : Pool) (start : Heap) (s : Session) :
    Prop where
  coherent : s.Coherent mappings
  pool_eq : s.pool = pool
  kept : start.Kept s.heap

/-- A routine of the mapping whose registry lives. -/
structure Routine.Live (id : MappingId) (s : Session) (r : Routine) : Prop where
  knows : s.Knows r
  alive : s.registryAlive r.linkage.registry = true
  mapping : r.key.mapping = id

section

variable {mappings : Mapping → Prop} {id : MappingId} {pool : Pool} {start : Heap} {s s' : Session}
  {r : Routine}

theorem Session.Holds.precedes (h : s.Holds mappings pool start) (hl : s.Precedes mappings s') :
    s'.Holds mappings pool start :=
  ⟨hl.coherent, hl.pool.trans h.pool_eq, h.kept.trans hl.kept⟩

theorem Routine.Live.precedes (h : r.Live id s) (hl : s.Precedes mappings s') : r.Live id s' :=
  ⟨hl.knows r h.knows, hl.alive ▸ h.alive, h.mapping⟩

/-- Whatever becomes of its values, a session is one of its own heap. -/
theorem Session.Holds.withHeap (h : s.Holds mappings pool start) (heap : Heap) :
    { s with heap := heap }.Holds mappings pool heap := by
  obtain ⟨owner, howned⟩ := h.coherent
  exact ⟨⟨owner, howned.withHeap heap⟩, h.pool_eq, .refl _⟩

theorem Routine.Live.withHeap (h : r.Live id s) (heap : Heap) :
    r.Live id { s with heap := heap } :=
  ⟨h.knows, h.alive, h.mapping⟩

/-- What comes of finding the routine from one shape into another. -/
def Session.FindsLive (mappings : Mapping → Prop) (id : MappingId) (s : Session)
    (source target : ShapeId) (r : Routine) (s' : Session) : Prop :=
  s.Precedes mappings s' ∧ s'.heap = s.heap ∧ r.Live id s' ∧ r.key.source = source ∧
    r.key.target = target

variable (hs : s.Holds mappings pool start) (hr : r.Live id s) {source target : ShapeId}

include hs hr

/-- A routine that others are found for has a linkage of its own. -/
theorem Routine.Live.exists_owner : ∃ owner, s.Owned mappings owner ∧
    r.linkage.id.index < s.linkages ∧ owner r.linkage.id.index = r.linkage ∧
    mappings r.linkage.mapping ∧ r.linkage.mapping.id = id ∧ r.MadeIn pool := by
  obtain ⟨owner, howned⟩ := hs.coherent
  obtain ⟨hlt, howner, hmapping, hmade⟩ := howned.madeIn hr.knows
  exact ⟨owner, howned, hlt, howner, hmapping, hmade.mapping.symm.trans hr.mapping,
    hs.pool_eq ▸ hmade⟩

theorem Routine.Live.of_finds {owner : Nat → Linkage} {r' : Routine}
    (h : s.Finds mappings owner r.linkage source target r' s') :
    s.FindsLive mappings id source target r' s' := by
  obtain ⟨_, _, -, -, -, hid, -⟩ := hr.exists_owner hs
  refine ⟨.of_evolves h.evolves h.heap, h.heap, ⟨h.knows, ?_, ?_⟩, ?_, ?_⟩
  · rw [h.evolves.alive, h.answers.registry]
    exact hr.alive
  · rw [h.answers.key]
    exact hid
  · rw [h.answers.key]
  · rw [h.answers.key]

end

end Reshape
