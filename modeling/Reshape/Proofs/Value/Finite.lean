import Reshape.Proofs.Value.Heap

/-!
# Finite values

`Heap.held` are the values that a value holds, in place or in the instance that it refers to, and
`Heap.Inside` are those that it holds at any depth. A value is finite (`Heap.Finite`) if it holds
itself at no depth and all that it refers to is there. Its members and its elements are inside it
(`Heap.mem_held_of_member?`, `Heap.inside_of_mem_elements?`), and it shows the same wherever its
instances are kept (`Heap.Finite.shape?_eq`, `Heap.Finite.elements?_eq`).
-/

namespace Reshape

namespace Heap

/-- The fields of a struct, or the values that an instance holds. Boxes make no difference. -/
def held (heap : Heap) (v : Value) : List Value :=
  match v.bare with
  | .struct _ fields => fields
  | .ref a => ((heap.get? a).map Instance.parts).getD []
  | _ => []

/-- The value holds the first one at some depth. -/
def Inside (heap : Heap) : Value → Value → Prop :=
  Relation.TransGen fun u v => u ∈ heap.held v

/-- The value and all that it holds satisfy `p`, and what they refer to is there. There is an end to
it, so that nothing holds itself. -/
inductive Finite (heap : Heap) (p : Value → Prop) : Value → Prop
  | of_held {v : Value} (hv : p v) (hthere : ∀ a, v.bare = .ref a → ∃ i, heap.get? a = some i)
    (hheld : ∀ u ∈ heap.held v, Finite heap p u) : Finite heap p v

/-! ## What is inside -/

section

variable {heap heap' : Heap} {u v : Value} {a : Address} {i : Instance}

theorem held_unboxed (heap : Heap) (v : Value) : heap.held v.unboxed = heap.held v := by
  unfold held
  rw [Value.bare_unboxed]

theorem held_ref (h : heap.get? a = some i) : heap.held (.ref a) = i.parts := by
  change ((heap.get? a).map Instance.parts).getD [] = i.parts
  rw [h]
  rfl

theorem mem_held_of_member? {k : Nat} :
    ∀ {v : Value}, heap.member? v k = some u → u ∈ heap.held v
  | .struct _ _, h => List.mem_of_getElem? h
  | .boxed _ content, h => mem_held_of_member? (v := content) h
  | .ref a, h => by
    rw [member?_ref] at h
    cases ha : heap.get? a with
    | none => simp [ha] at h
    | some i =>
      rw [ha] at h
      rw [held_ref ha]
      cases i with
      | object _ fields => exact Array.mem_toList_iff.mpr (Array.mem_of_getElem? h)
      | seq _ _ | stream _ _ => cases h

/-- Nothing is inside what holds nothing. -/
theorem not_inside (h : heap.held v = []) : ¬heap.Inside u v := by
  intro hu
  cases hu with
  | single hu | tail _ hu =>
    rw [h] at hu
    cases hu

/-- The elements of a sequence are held by it. A stream holds its elements, or the sequence that
holds them. -/
theorem inside_of_mem_elements? {es : List Value} (hes : heap.elements? v = some es) (hu : u ∈ es) :
    heap.Inside u v := by
  obtain ⟨a, rfl⟩ : ∃ a, v = .ref a := by
    cases v <;> first | exact ⟨_, rfl⟩ | cases hes
  rw [elements?_ref] at hes
  cases ha : heap.get? a with
  | none => simp [ha] at hes
  | some i =>
    rw [ha] at hes
    have hheld := held_ref ha
    cases i with
    | object _ _ => cases hes
    | seq _ items =>
      obtain rfl := Option.some.inj hes
      exact .single (hheld ▸ hu)
    | stream _ source =>
      obtain rfl := Option.some.inj hes
      cases source with
      | items items => exact .single (hheld ▸ hu)
      | sequence b =>
        have hb : Value.ref b ∈ heap.held (.ref a) := hheld ▸ List.mem_singleton_self _
        rw [streamItems_sequence] at hu
        cases hi : heap.get? b with
        | none => simp [hi] at hu
        | some j =>
          rw [hi] at hu
          cases j with
          | seq _ items => exact .trans (.single (held_ref hi ▸ hu)) (.single hb)
          | object _ _ | stream _ _ => cases hu

end

/-! ## Finite values -/

namespace Finite

variable {heap heap' : Heap} {p : Value → Prop} {u v : Value}

theorem of_parts {a : Address} {i : Instance} (hi : heap.get? a = some i) (hp : p (.ref a))
    (hparts : ∀ u ∈ i.parts, heap.Finite p u) : heap.Finite p (.ref a) := by
  refine .of_held hp (fun b hb => ?_) fun u hu => hparts u ?_
  · obtain rfl := Value.ref.inj hb
    exact ⟨i, hi⟩
  · rwa [held_ref hi] at hu

theorem holds (h : heap.Finite p v) : p v := by
  cases h with
  | of_held hv _ _ => exact hv

theorem exists_instance {a : Address} (h : heap.Finite p (.ref a)) :
    ∃ i, heap.get? a = some i := by
  cases h with
  | of_held _ hthere _ => exact hthere a rfl

theorem of_inside (h : heap.Finite p v) (hu : heap.Inside u v) : heap.Finite p u := by
  induction hu with
  | single hu =>
    cases h with
    | of_held _ _ hheld => exact hheld _ hu
  | tail _ hu ih =>
    cases h with
    | of_held _ _ hheld => exact ih (hheld _ hu)

/-- What is known of the value and of all inside it may be another thing. -/
theorem of_forall {q : Value → Prop} (h : heap.Finite p v)
    (hq : ∀ u, u = v ∨ heap.Inside u v → q u) : heap.Finite q v := by
  induction h with
  | @of_held v _ hthere _ ih =>
    refine .of_held (hq v (Or.inl rfl)) hthere fun u hu => ih u hu fun w hw => hq w (Or.inr ?_)
    rcases hw with rfl | hw
    · exact .single hu
    · exact hw.tail hu

/-- Nothing leads back to what holds it. -/
theorem acc (h : heap.Finite p v) : Acc heap.Inside v := by
  have hheld : Acc (fun u v => u ∈ heap.held v) v := by
    induction h with
    | of_held _ _ _ ih => exact ⟨_, ih⟩
  exact hheld.transGen

variable (h : heap.Finite p v) (hk : heap.Kept heap')

include h hk

theorem shape?_and_member?_eq :
    heap'.shape? v = heap.shape? v ∧ ∀ i, heap'.member? v i = heap.member? v i := by
  cases h with
  | of_held _ hthere _ =>
    refine Heap.shape?_and_member?_eq fun a ha => ?_
    obtain ⟨i, hi⟩ := hthere a ha
    rw [hk a i hi, hi]

theorem shape?_eq : heap'.shape? v = heap.shape? v :=
  (h.shape?_and_member?_eq hk).1

theorem elements?_eq : heap'.elements? v = heap.elements? v := by
  cases v with
  | ref a =>
    obtain ⟨i, hi⟩ := h.exists_instance
    rw [elements?_ref, elements?_ref, hk a i hi, hi]
    rcases i with _ | _ | ⟨_, _ | b⟩
    case stream.sequence =>
      have hb : heap.Inside (.ref b) (.ref a) :=
        .single (held_ref hi ▸ List.mem_singleton_self _)
      obtain ⟨j, hj⟩ := (h.of_inside hb).exists_instance
      dsimp only
      rw [streamItems_sequence, streamItems_sequence, hk b j hj, hj]
    all_goals rfl
  | _ => rfl

end Finite

end Heap

end Reshape
