import Reshape.Proofs.Pool.Growth

/-!
# Shapes below nullable ones

`Pool.Below` names the shape below the nullable ones, together with what it stands for. There is at
most one (`Pool.Below.unique`), and it is its own (`Pool.Below.self`). A place takes values of the
shape below its own, or of all shapes if that is of the kind `any` (`Pool.Takes`).
-/

namespace Reshape

/-- Below the nullable shapes of `id` lies `target`, which `known` describes. -/
structure Pool.Below (pool : Pool) (id target : ShapeId) (known : Descriptor) : Prop where
  strip : pool.stripNullable id = .ok target
  descriptor : pool.descriptor target = .ok known

namespace Pool

variable {pool : Pool} {id target : ShapeId} {known : Descriptor}

theorem stripNullable_of_descriptor (h : pool.descriptor id = .ok known)
    (hkind : ∀ inner, known.kind ≠ .nullable inner) : pool.stripNullable id = .ok id := by
  unfold stripNullable
  rw [stripNullableWithin, h]
  cases hk : known.kind with
  | nullable inner => exact absurd hk (hkind inner)
  | _ => simp only [hk]

theorem Below.of_descriptor (h : pool.descriptor id = .ok known)
    (hkind : ∀ inner, known.kind ≠ .nullable inner) : pool.Below id id known :=
  ⟨stripNullable_of_descriptor h hkind, h⟩

theorem Below.ne_nullable (h : pool.Below id target known) (inner : ShapeId) :
    known.kind ≠ .nullable inner := by
  obtain ⟨known', hknown', hkind⟩ := exists_descriptor_of_stripNullableWithin h.strip
  obtain rfl := Except.ok.inj (h.descriptor.symm.trans hknown')
  exact hkind inner

/-- What is neither nullable nor of any of the other kinds is a record. -/
theorem Below.kind_eq_record (h : pool.Below id target known) (hany : known.kind ≠ .any)
    (hprimitive : ∀ p, known.kind ≠ .primitive p) (hcollection : ¬known.isCollection = true) :
    known.kind = .record := by
  cases hkind : known.kind with
  | record => rfl
  | any => exact absurd hkind hany
  | primitive p => exact absurd hkind (hprimitive p)
  | nullable inner => exact absurd hkind (h.ne_nullable inner)
  | collection family element => exact absurd (by simp [Descriptor.isCollection, hkind]) hcollection

/-- Nothing else lies below a shape that is not nullable. -/
theorem Below.self (h : pool.Below id target known) : pool.Below target target known :=
  .of_descriptor h.descriptor h.ne_nullable

theorem Below.unique {target' : ShapeId} {known' : Descriptor} (h : pool.Below id target known)
    (h' : pool.Below id target' known') : target' = target ∧ known' = known := by
  obtain rfl := Except.ok.inj (h.strip.symm.trans h'.strip)
  exact ⟨rfl, (Except.ok.inj (h.descriptor.symm.trans h'.descriptor)).symm⟩

theorem descriptor_any (h : Pool.initial.GrowsTo pool) :
    pool.descriptor ShapeId.any = .ok (.ofAny "any") :=
  h.descriptor rfl

theorem Below.any (h : Pool.initial.GrowsTo pool) :
    pool.Below ShapeId.any ShapeId.any (.ofAny "any") :=
  .of_descriptor (descriptor_any h) (by intro _ hkind; cases hkind)

/-- The shape `any` is of the kind `any`. -/
theorem Below.kind_eq_any (hpool : Pool.initial.GrowsTo pool)
    (h : pool.Below id ShapeId.any known) : known.kind = .any := by
  obtain rfl := Except.ok.inj ((descriptor_any hpool).symm.trans h.descriptor)
  rfl

theorem Below.of_primitive (h : Pool.initial.GrowsTo pool) (p : Primitive) :
    pool.Below p.shape p.shape (.ofPrimitive p) := by
  refine .of_descriptor (h.descriptor ?_) (by intro _ hkind; cases hkind)
  cases p <;> rfl

/-- What is checked of all descriptors. -/
theorem of_descriptors {p : Descriptor → Bool}
    (h : pool.slots.all (fun slot => slot.descriptor?.all p) = true)
    (hknown : pool.descriptor id = .ok known) : p known = true := by
  obtain ⟨slot, hslot, hdescriptor⟩ := descriptor_eq_ok_iff.mp hknown
  have hall := List.all_eq_true.mp h slot (List.mem_of_getElem? hslot)
  rwa [hdescriptor] at hall

/-- What is checked of all ids that stand for something. -/
theorem of_slots {p : ShapeId → Descriptor → Prop} [∀ id known, Decidable (p id known)]
    (h : pool.slots.zipIdx.all
      (fun slot => slot.1.descriptor?.all fun known => decide (p ⟨slot.2⟩ known)) = true)
    (hknown : pool.descriptor id = .ok known) : p id known := by
  obtain ⟨slot, hslot, hdescriptor⟩ := descriptor_eq_ok_iff.mp hknown
  have hall := List.all_eq_true.mp h (slot, id.index) (List.mem_zipIdx_iff_getElem?.mpr hslot)
  rw [hdescriptor] at hall
  exact of_decide_eq_true hall

/-- The shape below the nullable ones, and what it stands for. -/
def below? (pool : Pool) (id : ShapeId) : Option (ShapeId × Descriptor) := do
  let below ← (pool.stripNullable id).toOption
  let known ← (pool.descriptor below).toOption
  return (below, known)

/-- It is found where there is one. -/
theorem below?_eq_some_iff :
    pool.below? id = some (target, known) ↔ pool.Below id target known := by
  unfold below?
  constructor
  · intro h
    cases hstrip : pool.stripNullable id with
    | error e => simp [hstrip, Except.toOption] at h
    | ok below =>
      cases hknown : pool.descriptor below with
      | error e => simp [hstrip, hknown, Except.toOption] at h
      | ok found =>
        simp [hstrip, hknown, Except.toOption] at h
        obtain ⟨rfl, rfl⟩ := h
        exact ⟨hstrip, hknown⟩
  · intro h
    simp [h.strip, h.descriptor, Except.toOption]

/-! ## Places -/

/-- A place of the shape takes values whose own shape is `own`. -/
def Takes (pool : Pool) (place own : ShapeId) : Prop :=
  ∃ below known, pool.Below place below known ∧ (known.kind = .any ∨ below = own)

/-- A place of the shape takes primitives of the kind. -/
def TakesPrimitive (pool : Pool) (place : ShapeId) (p : Primitive) : Prop :=
  ∃ below known, pool.Below place below known ∧ (known.kind = .any ∨ known.kind = .primitive p)

/-- A place of the second shape takes all that a place of the first takes. -/
def Includes (pool : Pool) (place place' : ShapeId) : Prop :=
  ∃ below known, pool.Below place' below known ∧
    (known.kind = .any ∨ pool.Below place below known)

variable {place own : ShapeId} {p : Primitive}

instance : Decidable (pool.Takes place own) :=
  decidable_of_iff
    ((pool.below? place).any fun b => decide (b.2.kind = .any ∨ b.1 = own)) <| by
      simp [Takes, Option.any_eq_true, below?_eq_some_iff]

instance : Decidable (pool.TakesPrimitive place p) :=
  decidable_of_iff
    ((pool.below? place).any fun b => decide (b.2.kind = .any ∨ b.2.kind = .primitive p)) <| by
      simp [TakesPrimitive, Option.any_eq_true, below?_eq_some_iff]

theorem takes_below_iff (h : pool.Below place target known) :
    pool.Takes target own ↔ pool.Takes place own := by
  constructor
  · rintro ⟨below, known', hb, hcase⟩
    obtain ⟨rfl, rfl⟩ := h.self.unique hb
    exact ⟨_, _, h, hcase⟩
  · rintro ⟨below, known', hb, hcase⟩
    obtain ⟨rfl, rfl⟩ := h.unique hb
    exact ⟨_, _, h.self, hcase⟩

theorem takesPrimitive_below_iff (h : pool.Below place target known) :
    pool.TakesPrimitive target p ↔ pool.TakesPrimitive place p := by
  constructor
  · rintro ⟨below, known', hb, hcase⟩
    obtain ⟨rfl, rfl⟩ := h.self.unique hb
    exact ⟨_, _, h, hcase⟩
  · rintro ⟨below, known', hb, hcase⟩
    obtain ⟨rfl, rfl⟩ := h.unique hb
    exact ⟨_, _, h.self, hcase⟩

/-- A shape that is not nullable takes its own values. -/
theorem Takes.self (h : pool.descriptor own = .ok known)
    (hkind : ∀ inner, known.kind ≠ .nullable inner) : pool.Takes own own :=
  ⟨own, known, .of_descriptor h hkind, Or.inr rfl⟩

/-- A place of a shape that is neither nullable nor `any` takes no other values than its own. -/
theorem Takes.eq (h : pool.Takes place own) (hb : pool.Below place target known)
    (hany : known.kind ≠ .any) : own = target := by
  obtain ⟨below, known', hb', hcase⟩ := h
  obtain ⟨rfl, rfl⟩ := hb.unique hb'
  exact (hcase.resolve_left hany).symm

theorem TakesPrimitive.eq {q : Primitive} (h : pool.TakesPrimitive place p)
    (hb : pool.Below place target known) (hkind : known.kind = .primitive q) : p = q := by
  obtain ⟨below, known', hb', hcase⟩ := h
  obtain ⟨rfl, rfl⟩ := hb.unique hb'
  rw [hkind] at hcase
  simpa [eq_comm] using hcase

end Pool

end Reshape
