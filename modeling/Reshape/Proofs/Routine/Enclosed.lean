import Reshape.Proofs.Routine.Frame

/-!
# Closed sets of places

Runs that are given values of a closed set of places stay in the set, as far as the converters of
their own mapping do (`Contract.confining`). What the mapping does not use makes no difference : the
state of the caller where there are no converters, and the converters of other mappings.

The least set for some values holds what they lead to and what will be made (`Heap.Opens`).
-/

namespace Reshape

/-! ## What is enclosed -/

/-- The set is closed in the heap, and places of new instances are in it. -/
structure Heap.Encloses (p : Address → Prop) (heap : Heap) : Prop where
  new : ∀ a, heap.size ≤ a.index → p a
  closed : Heap.Confined p heap heap

namespace Heap

variable {p : Address → Prop} {start heap : Heap}

theorem Encloses.later (h : start.Encloses p) (hl : start.Confined p heap) : heap.Encloses p :=
  ⟨fun a ha => h.new a (Nat.le_trans hl.size ha), hl.self⟩

/-- What changes at other places makes no difference. -/
theorem Encloses.of_eq (h : start.Encloses p) (hsize : heap.size = start.size)
    (hsame : ∀ a, p a → heap.get? a = start.get? a) : heap.Encloses p :=
  ⟨fun a ha => h.new a (hsize ▸ ha), Nat.le_refl _, fun _ _ => rfl,
    fun a i ha hi => h.closed.parts a i ha ((hsame a ha).symm.trans hi)⟩

/-- The places that one of the values leads to in the heap, and those of instances that are not made
yet. -/
def Opens (heap : Heap) (values : List Value) (a : Address) : Prop :=
  heap.size ≤ a.index ∨ ∃ v ∈ values, heap.Reaches v a

theorem encloses_opens (heap : Heap) (values : List Value) : heap.Encloses (heap.Opens values) := by
  refine ⟨fun a ha => Or.inl ha, Nat.le_refl _, fun _ _ => rfl, fun a i ha hi w hw b hb => ?_⟩
  rcases ha with hle | ⟨v, hv, hreach⟩
  · exact absurd (lt_size_of_get? hi) (Nat.not_lt.mpr hle)
  · exact Or.inr ⟨v, hv, .step hreach hi hw hb⟩

theorem within_opens {values : List Value} {v : Value} (hv : v ∈ values) :
    v.Within (heap.Opens values) :=
  fun _ hb => Or.inr ⟨v, hv, .here hb⟩

/-- An instance that none of the values leads to is not in the set. -/
theorem not_opens {values : List Value} {a : Address} {i : Instance} (ha : heap.get? a = some i)
    (h : ∀ v ∈ values, ¬heap.Reaches v a) : ¬heap.Opens values a := by
  rintro (hle | ⟨v, hv, hreach⟩)
  · exact absurd (lt_size_of_get? ha) (Nat.not_lt.mpr hle)
  · exact h v hv hreach

end Heap

/-! ## The contract -/

/-- What the converter does with values of the set and this state of the caller stays in the set. -/
def Converter.Stays (c : Converter) (p : Address → Prop) (state : Value) : Prop :=
  ∀ (heap : Heap) (v : Value), heap.Encloses p → v.Within p →
    Heap.Confined p heap (c.apply v state heap).2 ∧
      ∀ w, (c.apply v state heap).1 = .ok w → w.Within p

namespace Contract

/-- Nothing changes but at places of the set, and values refer to such places alone. -/
def confining (p : Address → Prop) (state : Value) : Contract where
  allows m := ∀ c ∈ m.converters, c.converter.Stays p state
  inv := Heap.Encloses p
  later := Heap.Confined p
  source _ _ v := v.Within p
  target _ _ v := v.Within p
  result _ _ v := v.Within p
  filling start heap _ v _ := start.Confined p heap ∧ v.Within p
  building start heap _ a := start.Confined p heap ∧ p a

variable {p : Address → Prop} {state : Value} {pool : Pool}

theorem confining_soundValues : (confining p state).SoundValues pool where
  refl h := h.closed
  trans h h' := h.trans h'
  tokens h n := ⟨⟨h.new, (h.closed.tokens n).self⟩, h.closed.tokens n⟩
  source_later _ h := h
  target_later _ h := h
  result_later _ h := h
  source_below _ h := h
  source_own _ h _ := h
  source_unboxed h := h.unboxed
  source_null := .null
  target_null := .null
  target_below _ h := h
  result_null := .null
  result_below _ h := h
  result_any _ _ h := h
  result_unboxed h := h.unboxed
  result_box h := Heap.within_box h _

theorem confining_soundTransfers : (confining p state).SoundTransfers pool where
  primitive _ _ _ _ _ hv := hv
  converted _ _ hv := hv.within
  shared _ _ hv := hv
  member hinv _ _ hv _ := Heap.within_member hinv.closed.parts hv

theorem confining_soundRecords : (confining p state).SoundRecords pool where
  origin {h t known origin} hinv ht ho := by
    have hl := ((ho.makes ht.descriptor h).confined hinv.new hinv.closed).1
    exact ⟨hinv.later hl, hl⟩
  fill_new {m h known t known' origin} _ hinv ht _ ho _ :=
    ((ho.makes ht.descriptor h).confined hinv.new hinv.closed).imp_right Value.Within.unboxed
  fill_supplied _ hinv _ _ hv _ := ⟨hinv.closed, hv.unboxed⟩
  fill_start hf := hf.1
  fill_later hf hl _ := hf.imp_left (·.trans hl)
  fill_current hinv _ _ hf _ := Heap.within_member hinv.closed.parts hf.2
  fill_write {h h' t known v i m w pending} hinv _ _ hf hw := by
    have hl := hinv.closed.writeMember hf.2 hw i
    exact ⟨hinv.later hl, fun _ _ h => h, hf.1.trans hl, Heap.within_writeMember hw hf.2⟩
  fill_done hf := hf.2

theorem confining_soundCollections : (confining p state).SoundCollections pool where
  element hinv _ hv := hinv.closed.elements hv
  verbatim _ _ _ _ _ hv := hv
  new {_ _ t _ _ _ items} hinv _ _ hitems := by
    have hparts : ∀ w ∈ (Instance.seq t items.toArray).parts, w.Within p := hitems
    obtain ⟨hl, hnew⟩ := hinv.closed.alloc hinv.new hparts
    exact ⟨hinv.later hl, hl, hnew⟩
  build_new {h t known element origin a shape items} hinv ht _ ho hmade _ := by
    obtain ⟨hl, hnew⟩ := (ho.makes ht.descriptor h).confined hinv.new hinv.closed
    rw [hmade] at hnew
    exact ⟨hl, Value.Within.ref.mp hnew⟩
  build_supplied hinv _ _ hv ha := by
    obtain ⟨rfl, -⟩ := CollectionMapper.sequenceAt?_eq_some_iff.mp ha
    exact ⟨hinv.closed, Value.Within.ref.mp hv⟩
  build_start hb := hb.1
  build_later hb hl _ := hb.imp_left (·.trans hl)
  build_push hinv _ _ hb hv := by
    have hl := hinv.closed.push hb.2 hv
    exact ⟨hinv.later hl, fun _ _ h => h, hb.1.trans hl, hb.2⟩
  build_done hb := Value.Within.ref.mpr hb.2

theorem confining_soundWith (hpool : Pool.initial.GrowsTo pool) :
    (confining p state).SoundWith pool state where
  grows := hpool
  converters hm x hx heap _ _ v hinv hv := by
    obtain ⟨hl, hw⟩ := hm x hx heap v hinv hv
    exact ⟨hinv.later hl, hl, hw⟩
  values := confining_soundValues
  transfers := confining_soundTransfers
  records := confining_soundRecords
  collections := confining_soundCollections

end Contract

end Reshape
