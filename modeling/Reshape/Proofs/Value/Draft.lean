import Reshape.Proofs.Value.Tree

/-!
# Drafts

Records are filled member by member, and containers by appending one item after the other. As long
as this goes on, the record is a struct at hand or a new object (`Heap.Draft`), and the container is
a new sequence (`Heap.Listed`). To write or to append changes that one instance, so that everything
that was there before is kept, and so is everything that was made since.
-/

namespace Reshape

/-! ## Records -/

/-- An unfinished record of the shape, with these fields. What goes into it may be made of instances
from the last number on. -/
inductive Heap.Draft (first heap : Heap) (shape : ShapeId) :
    Bool → Value → List Value → Nat → Prop
  | struct {fields : List Value} :
    Draft first heap shape true (.struct shape fields) fields first.size
  | object {a : Address} {fields : List Value} (hbound : first.size ≤ a.index)
    (ha : heap.get? a = some (.object shape fields.toArray)) :
    Draft first heap shape false (.ref a) fields (a.index + 1)

namespace Heap.Draft

variable {first heap heap' : Heap} {shape : ShapeId} {inPlace : Bool} {record : Value}
  {fields : List Value} {bound : Nat} (h : Draft first heap shape inPlace record fields bound)

include h

theorem ne_null : record ≠ .null := by
  cases h <;> exact nofun

/-- The record shows its fields. -/
theorem target : heap.shape? record = some shape ∧ ∀ i, heap.member? record i = fields[i]? := by
  cases h with
  | struct => exact ⟨rfl, fun _ => rfl⟩
  | object _ ha =>
    refine ⟨congrArg (Option.map Instance.shape) ha, fun i => ?_⟩
    rw [Heap.member?_ref, ha]
    exact List.getElem?_toArray

theorem le_bound : first.size ≤ bound := by
  cases h with
  | struct => exact Nat.le_refl _
  | object hbound _ => exact Nat.le_succ_of_le hbound

theorem bound_le (hk : first.Kept heap) : bound ≤ heap.size := by
  cases h with
  | struct => exact hk.size_le
  | object _ ha => exact Heap.lt_size_of_get? ha

theorem later (hk : heap.Kept heap') : Draft first heap' shape inPlace record fields bound := by
  cases h with
  | struct => exact .struct
  | object hbound ha => exact .object hbound (hk _ _ ha)

/-- To write a member changes nothing but the record. -/
theorem write (i : Nat) (w : Value) :
    Draft first (heap.writeMember record i w).2 shape inPlace (heap.writeMember record i w).1
        (fields.set i w) bound ∧
      (∀ a j, bound ≤ a.index → heap.get? a = some j →
        (heap.writeMember record i w).2.get? a = some j) ∧
      (first.Kept heap → first.Kept (heap.writeMember record i w).2) := by
  cases h with
  | struct => exact ⟨.struct, fun _ _ _ h => h, fun h => h⟩
  | @object a _ hbound ha =>
    have hwrite : heap.writeMember (.ref a) i w = (.ref a, heap.replace a i w) := by
      rw [Heap.writeMember, ha]
    have hget (c : Address) : (heap.replace a i w).get? c =
        if a = c then (heap.get? c).map (Instance.mapContents (·.setIfInBounds i w))
        else heap.get? c := Heap.get?_modifyContents ..
    rw [hwrite]
    refine ⟨.object hbound ?_, fun c j hle hj => ?_, fun hk => ?_⟩
    · rw [hget, if_pos rfl, ha]
      simp [Instance.mapContents]
    · have hne : a ≠ c := by
        rintro rfl
        exact Nat.not_succ_le_self _ hle
      rw [hget, if_neg hne, hj]
    · refine hk.of_eq_or (Heap.get?_eq_none_iff.mpr hbound) fun c hne => ?_
      rw [hget, if_neg hne.symm]

/-- The record shows a tree, if its fields do. -/
theorem shows {ts : List Tree} (hs : heap.ShowsAll bound fields ts) :
    heap.Shows first.size record (.record inPlace shape ts) := by
  have hs' : heap.ShowsAll first.size fields ts := hs.mono h.le_bound fun _ _ _ h => h
  cases h with
  | struct => exact .struct hs'.length hs'.each
  | object hbound ha => exact .object hbound ha hs'.length hs'.each

end Heap.Draft

/-! ## Containers -/

/-- At the address is a new sequence of these items. -/
structure Heap.Listed (first heap : Heap) (shape : ShapeId) (a : Address) (items : List Value) :
    Prop where
  bound : first.size ≤ a.index
  items : heap.get? a = some (.seq shape items.toArray)

namespace Heap.Listed

variable {first heap heap' : Heap} {shape : ShapeId} {a : Address} {items : List Value}

theorem new (hk : first.Kept heap) (shape : ShapeId) :
    Listed first (heap.alloc (.seq shape #[])).2 shape ⟨heap.size⟩ [] :=
  ⟨hk.size_le, Heap.get?_alloc_size heap _⟩

variable (h : Listed first heap shape a items)

include h

theorem later (hk : heap.Kept heap') : Listed first heap' shape a items :=
  ⟨h.bound, hk _ _ h.items⟩

theorem le_size : a.index + 1 ≤ heap.size :=
  Heap.lt_size_of_get? h.items

/-- To append an item changes nothing but the sequence. -/
theorem push (w : Value) : Listed first (heap.push a w) shape a (items ++ [w]) ∧
    (∀ b i, a.index + 1 ≤ b.index → heap.get? b = some i → (heap.push a w).get? b = some i) ∧
    (first.Kept heap → first.Kept (heap.push a w)) := by
  refine ⟨⟨h.bound, ?_⟩, fun b i hle hi => ?_, fun hk => ?_⟩
  · rw [Heap.get?_push, if_pos rfl, h.items]
    simp [Instance.mapContents]
  · have hne : a ≠ b := by
      rintro rfl
      exact Nat.not_succ_le_self _ hle
    rw [Heap.get?_push, if_neg hne, hi]
  · refine hk.of_eq_or (Heap.get?_eq_none_iff.mpr h.bound) fun b hne => ?_
    rw [Heap.get?_push, if_neg hne.symm]

/-- The sequence shows a tree, if its items do. -/
theorem shows {ts : List Tree} (hs : heap.ShowsAll (a.index + 1) items ts) :
    heap.Shows first.size (.ref a) (.seq shape ts) := by
  have hs' : heap.ShowsAll first.size items ts :=
    hs.mono (Nat.le_succ_of_le h.bound) fun _ _ _ h => h
  exact .seq h.bound h.items hs'.length hs'.each

end Heap.Listed

end Reshape
