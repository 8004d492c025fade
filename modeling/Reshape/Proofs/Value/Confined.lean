import Reshape.Proofs.Value.Heap

/-!
# Confined changes

A set of places is closed in a heap if the instances there refer to places of the set only. What is
done with values that refer to such places changes nothing else, and what comes of it refers to
nothing else either (`Heap.Confined`). Instances that are made on the way are places of the set.

The set may be all places but one, if nothing refers to that one (`Heap.Secludes`). What is done
with values that do not refer to it either leaves the instance there as it is.
-/

set_option linter.unusedSectionVars false

namespace Reshape

/-- Since the start nothing has changed but instances at places of `p`, and these refer to places
of `p` alone. -/
structure Heap.Confined (p : Address → Prop) (start heap : Heap) : Prop where
  size : start.size ≤ heap.size
  kept : ∀ a, ¬p a → heap.get? a = start.get? a
  parts : ∀ a i, p a → heap.get? a = some i → ∀ w ∈ i.parts, w.Within p

namespace Heap.Confined

variable {p : Address → Prop} {start heap heap' : Heap}

theorem trans (h : Confined p start heap) (h' : Confined p heap heap') :
    Confined p start heap' :=
  ⟨Nat.le_trans h.size h'.size, fun a ha => (h'.kept a ha).trans (h.kept a ha), h'.parts⟩

variable (h : Confined p start heap)

include h

/-- The heap on its own. -/
theorem self : Confined p heap heap :=
  ⟨Nat.le_refl _, fun _ _ => rfl, h.parts⟩

theorem tokens (n : Nat) : Confined p start { heap with tokens := n } :=
  ⟨h.size, h.kept, h.parts⟩

/-- A new instance. -/
theorem alloc (hnew : ∀ a, start.size ≤ a.index → p a) {new : Instance}
    (hparts : ∀ w ∈ new.parts, w.Within p) :
    Confined p start (heap.alloc new).2 ∧ (heap.alloc new).1.Within p := by
  refine ⟨⟨?_, fun a ha => ?_, fun a i ha hi => ?_⟩, Value.Within.ref.mpr (hnew _ h.size)⟩
  · rw [size_alloc]
    exact Nat.le_succ_of_le h.size
  · rw [get?_alloc, if_neg fun heq : a.index = heap.size => ha (hnew a (heq ▸ h.size))]
    exact h.kept a ha
  · rw [get?_alloc] at hi
    split at hi
    · obtain rfl := Option.some.inj hi
      exact hparts
    · exact h.parts a i ha hi

/-- A change of one instance. -/
theorem modify (hsize : heap'.size = heap.size) {f : Array Value → Array Value}
    (hf : ∀ contents : Array Value, (∀ w ∈ contents, w.Within p) → ∀ w ∈ f contents, w.Within p)
    (hget : ∀ b, heap'.get? b = heap.get? b ∨
      p b ∧ heap'.get? b = (heap.get? b).map (Instance.mapContents f)) :
    Confined p start heap' := by
  refine ⟨hsize ▸ h.size, fun b hb => ?_, fun b i hb hi => ?_⟩
  · rcases hget b with heq | ⟨hin, -⟩
    · exact heq.trans (h.kept b hb)
    · exact absurd hin hb
  · rcases hget b with heq | ⟨-, heq⟩
    · exact h.parts b i hb (heq ▸ hi)
    · rw [heq] at hi
      obtain ⟨j, hj, rfl⟩ := Option.map_eq_some_iff.mp hi
      exact Instance.within_parts_mapContents hf (h.parts b j hb hj)

theorem push {a : Address} (ha : p a) {v : Value} (hv : v.Within p) :
    Confined p start (heap.push a v) := by
  refine h.modify (size_modifyContents ..) (f := (·.push v)) ?_ fun b => ?_
  · intro contents hcontents w hw
    rcases Array.mem_push.mp hw with hw | rfl
    · exact hcontents w hw
    · exact hv
  · rw [get?_push]
    split
    · rename_i heq
      exact Or.inr ⟨heq ▸ ha, rfl⟩
    · exact Or.inl rfl

theorem writeMember {record v : Value} (hrecord : record.Within p) (hv : v.Within p) (i : Nat) :
    Confined p start (heap.writeMember record i v).2 := by
  refine h.modify (f := (·.setIfInBounds i v)) (size_writeMember i v heap record) ?_ fun b => ?_
  · intro contents hcontents w hw
    rcases Array.mem_or_eq_of_mem_setIfInBounds hw with hw | rfl
    · exact hcontents w hw
    · exact hv
  · rcases get?_writeMember i v heap b record with heq | ⟨hbare, shape, fields, hb, heq⟩
    · exact Or.inl heq
    · exact Or.inr ⟨(Value.Within.iff_of_bare hbare).mp hrecord, by rw [heq, hb]; rfl⟩

/-- The elements of a value, or the value alone. -/
theorem elements {v : Value} (hv : v.Within p) :
    ∀ e ∈ (heap.elements? v).getD [v], e.Within p := by
  cases hes : heap.elements? v with
  | none =>
    intro e he
    obtain rfl := List.mem_singleton.mp he
    exact hv
  | some es => exact within_elements hv h.parts hes

end Heap.Confined

/-- Nothing in the heap refers to the place, not even the instance there. -/
def Heap.Secludes (heap : Heap) (a : Address) : Prop :=
  ∀ b i, heap.get? b = some i → ∀ w ∈ i.parts, w.Within (· ≠ a)

namespace Heap.Secludes

variable {start heap : Heap} {a : Address}

theorem confined (h : heap.Secludes a) : Heap.Confined (· ≠ a) heap heap :=
  ⟨Nat.le_refl _, fun _ _ => rfl, fun b i _ => h b i⟩

/-- What has been done without the instance has left it as it was. -/
theorem of_confined (h : start.Secludes a) (hconfined : Heap.Confined (· ≠ a) start heap) :
    heap.Secludes a := by
  intro b i hi
  by_cases hb : b = a
  · subst hb
    exact h b i ((hconfined.kept b fun hne => hne rfl).symm.trans hi)
  · exact hconfined.parts b i hb hi

/-- A new instance is at a place that nothing refers to, if that held of the place before. -/
theorem alloc (h : heap.Secludes a) {new : Instance} (hnew : ∀ w ∈ new.parts, w.Within (· ≠ a)) :
    (heap.alloc new).2.Secludes a := by
  intro b i hi
  rw [Heap.get?_alloc] at hi
  split at hi
  · obtain rfl := Option.some.inj hi
    exact hnew
  · exact h b i hi

theorem writeMember (h : heap.Secludes a) {v : Value} (hv : v.Within (· ≠ a)) (record : Value)
    (i : Nat) : (heap.writeMember record i v).2.Secludes a := by
  intro b j hj
  rcases Heap.get?_writeMember i v heap b record with heq | ⟨-, shape, fields, hb, heq⟩
  · exact h b j (heq ▸ hj)
  · obtain rfl := Option.some.inj (heq.symm.trans hj)
    intro w hw
    rcases Array.mem_or_eq_of_mem_setIfInBounds (Array.mem_toList_iff.mp hw) with hw | rfl
    · exact h b _ hb w (Array.mem_toList_iff.mpr hw)
    · exact hv

end Heap.Secludes

end Reshape
