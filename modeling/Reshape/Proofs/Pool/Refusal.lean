import Reshape.Proofs.Pool.Naming

/-!
# What pools refuse

An operation on a pool may fail, and then it has changed nothing. For `define` this is so because it
looks first : what it refuses is said by `Pool.Misfits`, and no pool refuses anything else
(`Pool.define_eq_error_iff`). For `register` it is so because names and ids agree. It declares the
name before it defines the id, and takes nothing back, but a name that is new is never refused, and
one that is not new is not declared again (`Pool.WellNamed.register_eq_error_iff`). The shapes built
from others are registered last of all, so that they fail as `register` does or before anything has
been done (`Pool.Operation.apply_of_error?`).

`Pool.refusals_after_operations` says all this of the pools that come of any operations.
-/

namespace Reshape

namespace Pool

/-! ## Errors of operations -/

/-- The error that the computation ends with, if it fails. -/
def error? {α : Type} (x : PoolM α) (pool : Pool) : Option ShapeError :=
  match x pool with
  | .ok _ _ => none
  | .error e _ => some e

/-- The error of an operation, if it fails. -/
def Operation.error? (pool : Pool) : Operation → Option ShapeError
  | declare name => Pool.error? (Pool.declare name) pool
  | define id descriptor => Pool.error? (Pool.define id descriptor) pool
  | register descriptor => Pool.error? (Pool.register descriptor) pool
  | arrayOf element => Pool.error? (Pool.arrayOf element) pool
  | listOf element => Pool.error? (Pool.listOf element) pool
  | nullable inner => Pool.error? (Pool.nullable inner) pool
  | insertable name element => Pool.error? (Pool.insertable name element) pool
  | opaqueCollection name element => Pool.error? (Pool.opaqueCollection name element) pool
  | intern expr => Pool.error? expr.intern pool

/-- The computation leaves the pool as it was, if it fails. -/
def Undone {α : Type} (x : PoolM α) (pool : Pool) : Prop :=
  ∀ e after, x pool = .error e after → after = pool

section

variable {α β : Type} {x : PoolM α} {pool : Pool}

theorem error?_eq_some_iff {e : ShapeError} :
    error? x pool = some e ↔ ∃ after, x pool = .error e after := by
  unfold error?
  cases x pool with
  | ok a after => simp
  | error e' after => simp

theorem Undone.after_eq (h : Undone x pool) {e : ShapeError} (he : error? x pool = some e) :
    After x pool = pool := by
  obtain ⟨after, hx⟩ := error?_eq_some_iff.mp he
  unfold After
  rw [hx]
  exact h e after hx

theorem Undone.throw (e : ShapeError) : Undone (MonadExcept.throw e : PoolM α) pool := by
  rintro _ _ ⟨⟩
  rfl

theorem Undone.pure (a : α) : Undone (Pure.pure a : PoolM α) pool :=
  fun _ _ h => nomatch h

/-- To look at the pool changes nothing. -/
theorem Undone.get {f : Pool → PoolM α} (h : Undone (f pool) pool) :
    Undone (MonadState.get >>= f) pool :=
  h

end

/-! ## Definitions -/

/-- The descriptor cannot be what the id stands for : there is no such id, or its name is another
one, or it stands for something else. The error is that of the first of the three that is so. -/
inductive Misfits (pool : Pool) (id : ShapeId) (d : Descriptor) : ShapeError → Prop
  | unknown (h : pool.size ≤ id.index) : Misfits pool id d (.unknown id)
  | nameMismatch (hlt : id.index < pool.size) (hname : pool.nameOf id ≠ d.name) :
    Misfits pool id d (.nameMismatch id (pool.nameOf id) d.name)
  | alreadyDefined {known : Descriptor} (hname : pool.nameOf id = d.name)
    (hknown : pool.descriptor id = .ok known) (hne : known ≠ d) :
    Misfits pool id d (.alreadyDefined id d.name)

section

variable {pool : Pool} {id : ShapeId} {d : Descriptor} {e : ShapeError}

/-- Where there is no such id, that is the error. -/
theorem misfits_iff_of_size_le (hle : pool.size ≤ id.index) :
    pool.Misfits id d e ↔ e = .unknown id := by
  constructor
  · rintro (_ | ⟨hlt, _⟩ | ⟨_, hknown, _⟩)
    · rfl
    · exact absurd hlt (Nat.not_lt.mpr hle)
    · exact absurd (lt_size_of_descriptor hknown) (Nat.not_lt.mpr hle)
  · rintro rfl
    exact .unknown hle

/-- Where the id has another name, that is the error. -/
theorem misfits_iff_of_nameOf_ne (hlt : id.index < pool.size) (hname : pool.nameOf id ≠ d.name) :
    pool.Misfits id d e ↔ e = .nameMismatch id (pool.nameOf id) d.name := by
  constructor
  · rintro (hle | _ | ⟨hsame, _, _⟩)
    · exact absurd hlt (Nat.not_lt.mpr hle)
    · rfl
    · exact absurd hsame hname
  · rintro rfl
    exact .nameMismatch hlt hname

/-- Where the id has the name, the error is that it stands for something else, if it does. -/
theorem misfits_iff_of_nameOf_eq (hlt : id.index < pool.size) (hname : pool.nameOf id = d.name) :
    pool.Misfits id d e ↔
      (∃ known, pool.descriptor id = .ok known ∧ known ≠ d) ∧ e = .alreadyDefined id d.name := by
  constructor
  · rintro (hle | ⟨_, hne⟩ | ⟨_, hknown, hne⟩)
    · exact absurd hlt (Nat.not_lt.mpr hle)
    · exact absurd hname hne
    · exact ⟨⟨_, hknown, hne⟩, rfl⟩
  · rintro ⟨⟨known, hknown, hne⟩, rfl⟩
    exact .alreadyDefined hname hknown hne

/-- What does not fit is refused with its error, and nothing else is refused. -/
theorem define_eq_error_iff {after : Pool} :
    define id d pool = .error e after ↔ pool.Misfits id d e ∧ after = pool := by
  have hrefused (e' : ShapeError) :
      (throw e' : PoolM Unit) pool = .error e after ↔ e = e' ∧ after = pool :=
    ⟨fun h => by cases h; exact ⟨rfl, rfl⟩, fun ⟨h, h'⟩ => by rw [h, h']; rfl⟩
  unfold define
  rw [get_bind]
  cases hslot : pool.slots[id.index]? with
  | none =>
    rw [misfits_iff_of_size_le (List.getElem?_eq_none_iff.mp hslot)]
    exact hrefused _
  | some slot =>
    have hlt : id.index < pool.size := (List.getElem?_eq_some_iff.mp hslot).1
    have hnameOf : pool.nameOf id = slot.name := nameOf_eq hslot
    have hdescriptor {known : Descriptor} :
        pool.descriptor id = .ok known ↔ slot.descriptor? = some known := by
      rw [descriptor_eq_ok_iff, hslot]
      simp
    dsimp only
    split
    · rename_i hname
      rw [misfits_iff_of_nameOf_ne hlt (hnameOf.symm ▸ hname), hnameOf]
      exact hrefused _
    · rename_i hname
      rw [misfits_iff_of_nameOf_eq hlt (hnameOf.trans (Decidable.not_not.mp hname))]
      simp only [hdescriptor]
      cases hknown : slot.descriptor? with
      | none => exact iff_of_false nofun (by simp)
      | some known =>
        dsimp only
        split
        · rename_i heq
          exact iff_of_false nofun (by simp [heq])
        · rename_i hne
          rw [hrefused]
          simp [hne]

end

/-! ## Registrations -/

/-- The name of the descriptor belongs to the id, which stands for something else. -/
def Occupied (pool : Pool) (d : Descriptor) (id : ShapeId) : Prop :=
  pool.lookup d.name = some id ∧ ∃ known, pool.descriptor id = .ok known ∧ known ≠ d

/-- A name that is declared is defined where it is. -/
theorem register_of_lookup {pool : Pool} {d : Descriptor} {id : ShapeId}
    (h : pool.lookup d.name = some id) : register d pool = (do define id d; return id) pool :=
  bind_of_eq_ok (declare_of_lookup h)

/-- A new name is declared and defined. -/
theorem register_of_lookup_eq_none {pool : Pool} {d : Descriptor} (h : pool.lookup d.name = none) :
    ∃ after, register d pool = .ok ⟨pool.size⟩ after := by
  have hslot : (pool.push ⟨d.name, none⟩).slots[pool.size]? = some ⟨d.name, none⟩ := by
    rw [getElem?_slots_push, if_pos rfl]
  have hdefine : ∃ after, define ⟨pool.size⟩ d (pool.push ⟨d.name, none⟩) = .ok () after := by
    unfold define
    rw [get_bind]
    dsimp only
    rw [hslot]
    dsimp only
    rw [if_neg fun hne => hne rfl]
    exact ⟨_, rfl⟩
  obtain ⟨after, hdefine⟩ := hdefine
  exact ⟨after, (bind_of_eq_ok (declare_of_lookup_eq_none h)).trans (bind_of_eq_ok hdefine)⟩

/-- A descriptor is refused where its name stands for something else, and nowhere else. The name
that `register` declares is one that it has. -/
theorem WellNamed.register_eq_error_iff {pool after : Pool} (hpool : pool.WellNamed)
    {d : Descriptor} {e : ShapeError} : register d pool = .error e after ↔
      (∃ id, pool.Occupied d id ∧ e = .alreadyDefined id d.name) ∧ after = pool := by
  cases hl : pool.lookup d.name with
  | none =>
    obtain ⟨after', hok⟩ := register_of_lookup_eq_none hl
    rw [hok]
    refine ⟨nofun, ?_⟩
    rintro ⟨⟨id, ⟨hlookup, -⟩, -⟩, -⟩
    cases hl.symm.trans hlookup
  | some id =>
    have hfails : register d pool = .error e after ↔ define id d pool = .error e after := by
      rw [register_of_lookup hl]
      cases hdefine : define id d pool with
      | ok u after' =>
        rw [bind_of_eq_ok hdefine]
        exact ⟨nofun, nofun⟩
      | error e' after' =>
        rw [bind_of_eq_error hdefine]
        exact ⟨fun heq => by cases heq; rfl, fun heq => by cases heq; rfl⟩
    rw [hfails, define_eq_error_iff]
    refine and_congr_left fun _ => ?_
    constructor
    · intro hmisfits
      cases hmisfits with
      | unknown hle => exact absurd (hpool.lt_size_of_lookup hl) (Nat.not_lt.mpr hle)
      | nameMismatch _ hname => exact absurd (hpool.nameOf_of_lookup hl) hname
      | alreadyDefined _ hknown hne => exact ⟨id, ⟨hl, _, hknown, hne⟩, rfl⟩
    · rintro ⟨id', ⟨hlookup, known, hknown, hne⟩, rfl⟩
      cases hl.symm.trans hlookup
      exact .alreadyDefined (hpool.nameOf_of_lookup hl) hknown hne

/-! ## Operations -/

namespace WellNamed

variable {pool : Pool} (h : pool.WellNamed)

include h

theorem undone_register (d : Descriptor) : Undone (register d) pool :=
  fun _ _ he => (h.register_eq_error_iff.mp he).2

/-- A shape that is registered under the name of another one and more. -/
theorem undone_declaredName_bind (id : ShapeId) (d : String → Descriptor) :
    Undone (declaredName id >>= fun name => register (d name)) pool := by
  unfold declaredName
  rw [bind_assoc]
  refine .get ?_
  cases pool.slots[id.index]? with
  | none => exact .throw _
  | some slot => exact h.undone_register (d slot.name)

theorem undone_nullable (inner : ShapeId) : Undone (nullable inner) pool := by
  refine .get ?_
  split
  · exact .throw _
  · split
    · exact .pure _
    · exact h.undone_register _

end WellNamed

/-- An operation that fails leaves the pool as it was, unless it builds several shapes. -/
theorem Operation.apply_of_error? {pool : Pool} (h : pool.WellNamed) {operation : Operation}
    (hone : ∀ expr, operation ≠ .intern expr) {e : ShapeError}
    (he : operation.error? pool = some e) : operation.apply pool = pool := by
  cases operation with
  | declare name =>
    have hdeclare : Undone (Pool.declare name) pool := by
      refine .get ?_
      split
      · exact .pure _
      · exact fun _ _ hfail => nomatch hfail
    exact hdeclare.after_eq he
  | define id d =>
    have hdefine : Undone (Pool.define id d) pool :=
      fun _ _ hfail => (define_eq_error_iff.mp hfail).2
    exact hdefine.after_eq he
  | register d => exact (h.undone_register d).after_eq he
  | arrayOf element => exact (h.undone_declaredName_bind element _).after_eq he
  | listOf element => exact (h.undone_declaredName_bind element _).after_eq he
  | nullable inner => exact (h.undone_nullable inner).after_eq he
  | insertable name element => exact (h.undone_register _).after_eq he
  | opaqueCollection name element => exact (h.undone_register _).after_eq he
  | intern expr => exact absurd rfl (hone expr)

/-- Whatever has been done to a pool : a descriptor is refused registration just where its name
belongs to an id that stands for something else, and the error names that id ; it is refused as a
definition just where it does not fit the id ; and any single operation that fails leaves the pool
as it was, names, ids, descriptors and all. -/
theorem refusals_after_operations (operations : List Operation) :
    let pool := operations.foldl Operation.apply Pool.initial
    (∀ d e, Operation.error? pool (.register d) = some e ↔
      ∃ id, pool.Occupied d id ∧ e = .alreadyDefined id d.name) ∧
      (∀ id d e, Operation.error? pool (.define id d) = some e ↔ pool.Misfits id d e) ∧
      ∀ operation : Operation, (∀ expr, operation ≠ .intern expr) →
        ∀ e, operation.error? pool = some e → operation.apply pool = pool := by
  intro pool
  have hpool : pool.WellNamed := WellNamed.initial.foldl_apply (.refl _) operations
  refine ⟨fun d e => ?_, fun id d e => ?_, fun operation hone e =>
    operation.apply_of_error? hpool hone⟩
  · refine error?_eq_some_iff.trans ⟨?_, fun hoccupied => ?_⟩
    · exact fun ⟨_, hfail⟩ => (hpool.register_eq_error_iff.mp hfail).1
    · exact ⟨pool, hpool.register_eq_error_iff.mpr ⟨hoccupied, rfl⟩⟩
  · refine error?_eq_some_iff.trans ⟨?_, fun hmisfits => ?_⟩
    · exact fun ⟨_, hfail⟩ => (define_eq_error_iff.mp hfail).1
    · exact ⟨pool, define_eq_error_iff.mpr ⟨hmisfits, rfl⟩⟩

/-- A list of lists leaves the list of its elements behind where its own name is taken. -/
example : let pool := (Operation.register (.ofRecord "List<List<int>>" [])).apply Pool.initial
    let operation := Operation.intern (.list (.list (.primitive .int)))
    operation.error? pool = some (.alreadyDefined ⟨7⟩ "List<List<int>>") ∧
      (operation.apply pool).lookup "List<int>" = some ⟨8⟩ := by
  decide +kernel

end Pool

end Reshape
