import Reshape.Proofs.Value.Typing

/-!
# Checking that a heap conforms

Whether a value conforms to a shape can be told from the value, the pool and the shapes of the
instances that it refers to, for `Value.Fits` looks at a reference no further than the shape of what
it leads to. `Value.fits?` does so, and an instance conforms if its parts do (`Instance.fits?`).
With that it is decided whether all instances of a heap conform to their own shapes.
-/

namespace Reshape

/-! ## Values -/

instance (v : Value) : Decidable v.IsContent :=
  match v with
  | .null | .boxed _ _ | .ref _ => .isFalse id
  | .bool _ | .int _ | .float _ | .char _ | .str _ _ | .struct _ _ => .isTrue trivial

/-- The instance at the address has the shape. -/
instance (heap : Heap) (a : Address) (own : ShapeId) : Decidable (heap.shapes a own) :=
  decidable_of_iff ((heap.get? a).any fun i => decide (i.shape = own)) <| by
    simp [Heap.shapes, Option.any_eq_true]

mutual

/-- The value conforms to the shape, where instances have their own shapes. -/
def Value.fits? (pool : Pool) (heap : Heap) : Value → ShapeId → Bool
  | .null, _ => true
  | .bool _, place => pool.TakesPrimitive place .bool
  | .int _, place => pool.TakesPrimitive place .int
  | .float _, place => pool.TakesPrimitive place .float
  | .char _, place => pool.TakesPrimitive place .char
  | .str _ _, place => pool.TakesPrimitive place .str
  | .struct shape fields, place =>
    pool.Takes place shape && match pool.descriptor shape with
      | .ok known => known.kind = .record && known.valueType &&
          Value.allFit? pool heap fields known.members
      | .error _ => false
  | .boxed _ content, place => content.IsContent && content.fits? pool heap place
  | .ref a, place => (heap.get? a).any fun i => pool.Takes place i.shape

/-- There is a value for each of the members, and it conforms to the shape of the member. -/
def Value.allFit? (pool : Pool) (heap : Heap) : List Value → List Member → Bool
  | [], [] => true
  | v :: vs, m :: members => v.fits? pool heap m.shape && Value.allFit? pool heap vs members
  | _, _ => false

end

variable {pool : Pool} {heap : Heap}

/-- A primitive conforms to a shape if a place of the shape takes such primitives. -/
theorem Value.IsPrimitive.fits_iff {typed : Address → ShapeId → Prop} {p : Primitive} {v : Value}
    {place : ShapeId} (hv : v.IsPrimitive p) :
    pool.TakesPrimitive place p ↔ v.Fits pool typed place := by
  refine ⟨.primitive hv, fun h => ?_⟩
  cases h with
  | @primitive q _ _ hv' hp =>
    obtain rfl : p = q := by
      cases v <;> cases p <;> first | exact hv.elim | (cases q <;> first | exact hv'.elim | rfl)
    exact hp
  | null | struct _ _ _ _ _ _ | boxed _ _ | ref _ _ => cases p <;> exact hv.elim

mutual

/-- The check tells whether the value conforms. -/
theorem Value.fits?_iff : ∀ (v : Value) (place : ShapeId),
    v.fits? pool heap place = true ↔ v.Fits pool heap.shapes place
  | .null, place => iff_of_true rfl .null
  | .bool _, _ => decide_eq_true_iff.trans (Value.IsPrimitive.fits_iff (p := .bool) trivial)
  | .int _, _ => decide_eq_true_iff.trans (Value.IsPrimitive.fits_iff (p := .int) trivial)
  | .float _, _ => decide_eq_true_iff.trans (Value.IsPrimitive.fits_iff (p := .float) trivial)
  | .char _, _ => decide_eq_true_iff.trans (Value.IsPrimitive.fits_iff (p := .char) trivial)
  | .str _ _, _ => decide_eq_true_iff.trans (Value.IsPrimitive.fits_iff (p := .str) trivial)
  | .struct shape fields, place => by
    rw [Value.fits?, Bool.and_eq_true, decide_eq_true_iff]
    constructor
    · rintro ⟨hp, h⟩
      split at h
      · rename_i known hs
        simp only [Bool.and_eq_true, decide_eq_true_iff] at h
        obtain ⟨⟨hkind, htype⟩, hfields⟩ := h
        obtain ⟨hlength, hfields⟩ := (Value.allFit?_iff fields known.members).mp hfields
        exact .struct hp hs hkind htype hlength hfields
      · cases h
    · intro h
      cases h with
      | @primitive p _ _ hv _ => cases p <;> exact hv.elim
      | struct hp hs hkind htype hlength hfields =>
        rw [hs]
        simp only [Bool.and_eq_true, decide_eq_true_iff]
        exact ⟨hp, ⟨hkind, htype⟩, (Value.allFit?_iff fields _).mpr ⟨hlength, hfields⟩⟩
  | .boxed token content, place => by
    rw [Value.fits?, Bool.and_eq_true, decide_eq_true_iff, Value.fits?_iff content place]
    refine ⟨fun h => .boxed h.1 h.2, fun h => ?_⟩
    cases h with
    | @primitive p _ _ hv _ => cases p <;> exact hv.elim
    | boxed hc h => exact ⟨hc, h⟩
  | .ref a, place => by
    simp only [Value.fits?, Option.any_eq_true, decide_eq_true_iff]
    constructor
    · rintro ⟨i, hi, hp⟩
      exact .ref ⟨i, hi, rfl⟩ hp
    · intro h
      cases h with
      | @primitive p _ _ hv _ => cases p <;> exact hv.elim
      | ref h hp =>
        obtain ⟨i, hi, rfl⟩ := h
        exact ⟨i, hi, hp⟩

/-- And so for all members of a record. -/
theorem Value.allFit?_iff : ∀ (vs : List Value) (members : List Member),
    Value.allFit? pool heap vs members = true ↔ vs.length = members.length ∧
      ∀ (i : Nat) (v : Value) (m : Member), vs[i]? = some v → members[i]? = some m →
        v.Fits pool heap.shapes m.shape
  | [], [] => iff_of_true rfl ⟨rfl, nofun⟩
  | [], _ :: _ => iff_of_false nofun nofun
  | _ :: _, [] => iff_of_false nofun nofun
  | v :: vs, m :: members => by
    rw [Value.allFit?, Bool.and_eq_true, Value.fits?_iff v m.shape,
      Value.allFit?_iff vs members, List.length_cons, List.length_cons, Nat.succ_inj]
    constructor
    · rintro ⟨hv, hlength, hvs⟩
      refine ⟨hlength, fun i w m' hw hm => ?_⟩
      cases i with
      | zero =>
        cases hw
        cases hm
        exact hv
      | succ i => exact hvs i w m' hw hm
    · rintro ⟨hlength, h⟩
      exact ⟨h 0 v m rfl rfl, hlength, fun i w m' hw hm => h (i + 1) w m' hw hm⟩

end

instance (v : Value) (place : ShapeId) : Decidable (v.Fits pool heap.shapes place) :=
  decidable_of_iff _ (v.fits?_iff place)

/-! ## Instances -/

/-- The contents of the instance conform to its shape. -/
def Instance.fits? (pool : Pool) (heap : Heap) (i : Instance) : Bool :=
  match pool.descriptor i.shape with
  | .error _ => false
  | .ok known =>
    match i, known.kind with
    | .object _ fields, .record =>
      !known.valueType && Value.allFit? pool heap fields.toList known.members
    | .seq _ items, .collection _ element =>
      items.toList.all (·.fits? pool heap (element.getD ShapeId.any))
    | .stream _ (.items items), .collection _ element =>
      items.all (·.fits? pool heap (element.getD ShapeId.any))
    | .stream _ (.sequence a), .collection _ element =>
      match heap.get? a with
      | some (.seq _ items) => items.toList.all (·.fits? pool heap (element.getD ShapeId.any))
      | _ => false
    | _, _ => false

/-- What passes the check conforms. -/
theorem Instance.fits_of_fits? {i : Instance} (h : i.fits? pool heap = true) :
    i.Fits pool heap.shapes heap := by
  have hitems {vs : List Value} {place : ShapeId}
      (h : vs.all (·.fits? pool heap place) = true) : ∀ v ∈ vs, v.Fits pool heap.shapes place :=
    fun v hv => (v.fits?_iff place).mp (List.all_eq_true.mp h v hv)
  unfold fits? at h
  split at h
  · cases h
  · rename_i known hs
    split at h
    · rename_i shape fields hkind
      rw [Bool.and_eq_true, Bool.not_eq_true'] at h
      obtain ⟨hlength, hfields⟩ := (Value.allFit?_iff _ _).mp h.2
      refine .object hs hkind h.1 hlength fun i v m hv hm => hfields i v m ?_ hm
      rwa [Array.getElem?_toList]
    · rename_i hkind
      exact .seq hs hkind fun v hv => hitems h v (Array.mem_toList_iff.mpr hv)
    · rename_i hkind
      exact .items hs hkind (hitems h)
    · rename_i hkind
      split at h
      · rename_i hsource
        exact .live hs hkind hsource fun v hv => hitems h v (Array.mem_toList_iff.mpr hv)
      · cases h
    · cases h

/-! ## Heaps -/

/-- All instances of the heap conform to their shapes. -/
def Heap.conforms? (pool : Pool) (heap : Heap) : Bool :=
  heap.instances.toList.all (·.fits? pool heap)

/-- A heap that passes the check is typed by the shapes of its instances. -/
theorem Heap.typedBy_shapes (h : heap.conforms? pool = true) :
    heap.TypedBy pool heap.shapes := by
  rintro a own ⟨i, hi, hshape⟩
  refine ⟨i, hi, hshape, Instance.fits_of_fits? (List.all_eq_true.mp h i ?_)⟩
  exact Array.mem_toList_iff.mpr (Array.mem_of_getElem? hi)

end Reshape
