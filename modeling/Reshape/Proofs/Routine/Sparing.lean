import Reshape.Proofs.Routine.Typing

/-!
# Instances that deep mappings spare

A deep mapping writes only to what it has made, or to what its destination is. Values that do not
conform to their shapes may be shared, but only in places of `any` or of primitives, and what stands
there is never written to. `Value.Writable` says so of a value in a place of some shape, and
`Contract.sparing` says that without a destination the instances of the start stay as they are,
whatever the values are like.
-/

set_option linter.unusedSectionVars false

namespace Reshape

/-- What may be written to in the value, in a place of the shape, is `own`, and is a record or a
collection of that shape. -/
inductive Value.Writable (pool : Pool) (own : Address → ShapeId → Prop) : Value → ShapeId → Prop
  | null {place : ShapeId} : Writable pool own .null place
  | leaf {v : Value} {place below : ShapeId} {known : Descriptor}
    (hb : pool.Below place below known) (h : known.kind = .any ∨ ∃ p, known.kind = .primitive p) :
    Writable pool own v place
  | struct {shape : ShapeId} {fields : List Value} {place : ShapeId} {known : Descriptor}
    (hp : pool.Takes place shape) (hs : pool.descriptor shape = .ok known)
    (hfields : ∀ (i : Nat) (v : Value) (m : Member), fields[i]? = some v →
      known.members[i]? = some m → Writable pool own v m.shape) :
    Writable pool own (.struct shape fields) place
  | boxed {token : Token} {content : Value} {place : ShapeId}
    (h : Writable pool own content place) : Writable pool own (.boxed token content) place
  | ref {a : Address} {shape place : ShapeId} (h : own a shape) (hp : pool.Takes place shape) :
    Writable pool own (.ref a) place

/-- The same of the members of an object. -/
def Instance.Writable (pool : Pool) (own : Address → ShapeId → Prop) : Instance → Prop
  | .object shape fields => ∀ known, pool.descriptor shape = .ok known →
    ∀ (i : Nat) (v : Value) (m : Member), fields[i]? = some v → known.members[i]? = some m →
      v.Writable pool own m.shape
  | .seq _ _ | .stream _ _ => True

namespace Value.Writable

variable {pool : Pool} {own own' : Address → ShapeId → Prop} {v : Value} {place below : ShapeId}
  {known : Descriptor}

theorem mono (h : ∀ a shape, own a shape → own' a shape) (hv : v.Writable pool own place) :
    v.Writable pool own' place := by
  induction hv with
  | null => exact .null
  | leaf hb hleaf => exact .leaf hb hleaf
  | struct hp hs _ ih => exact .struct hp hs ih
  | boxed _ ih => exact .boxed ih
  | ref ha hp => exact .ref (h _ _ ha) hp

theorem below_iff (h : pool.Below place below known) :
    v.Writable pool own below ↔ v.Writable pool own place := by
  constructor
  · intro hv
    induction hv with
    | null => exact .null
    | leaf hb hleaf =>
      obtain ⟨rfl, rfl⟩ := h.self.unique hb
      exact .leaf h hleaf
    | struct hp hs hfields _ => exact .struct ((Pool.takes_below_iff h).mp hp) hs hfields
    | boxed _ ih => exact .boxed (ih h)
    | ref ha hp => exact .ref ha ((Pool.takes_below_iff h).mp hp)
  · intro hv
    induction hv with
    | null => exact .null
    | leaf hb hleaf =>
      obtain ⟨rfl, rfl⟩ := h.unique hb
      exact .leaf h.self hleaf
    | struct hp hs hfields _ => exact .struct ((Pool.takes_below_iff h).mpr hp) hs hfields
    | boxed _ ih => exact .boxed (ih h)
    | ref ha hp => exact .ref ha ((Pool.takes_below_iff h).mpr hp)

/-- Values that conform to their shapes. -/
theorem of_fits (h : v.Fits pool own place) : v.Writable pool own place := by
  induction h with
  | null => exact .null
  | primitive _ hp =>
    obtain ⟨_, _, hb, hcase⟩ := hp
    exact .leaf hb (hcase.imp_right fun h => ⟨_, h⟩)
  | struct hp hs _ _ _ _ ih => exact .struct hp hs ih
  | boxed _ _ ih => exact .boxed ih
  | ref ha hp => exact .ref ha hp

theorem unboxed (h : v.Writable pool own place) : v.unboxed.Writable pool own place := by
  cases h with
  | null => exact .null
  | leaf hb hleaf => exact .leaf hb hleaf
  | struct hp hs hfields => exact .struct hp hs hfields
  | boxed h => exact h
  | ref ha hp => exact .ref ha hp

theorem box (h : v.Writable pool own place) (heap : Heap) :
    (heap.box v).1.Writable pool own place := by
  unfold Heap.box
  split
  · exact .boxed h
  · exact h

end Value.Writable

theorem Instance.Writable.mono {pool : Pool} {own own' : Address → ShapeId → Prop} {i : Instance}
    (h : ∀ a shape, own a shape → own' a shape) (hi : i.Writable pool own) :
    i.Writable pool own' := by
  cases i with
  | object _ _ => exact fun known hs k v m hv hm => (hi known hs k v m hv hm).mono h
  | seq _ _ | stream _ _ => trivial

namespace Contract

section

variable (pool : Pool) (start : Heap)

/-- The instance was not there at the start, and has the shape. -/
def NewIn (heap : Heap) : Address → ShapeId → Prop :=
  TypedIn (fun a => start.get? a ≠ none) heap

/-- The instances of the start are what they were, and the members of new ones may be written
to. -/
structure Spares (heap : Heap) : Prop where
  kept : start.Kept heap
  members : ∀ a i, start.get? a = none → heap.get? a = some i → i.Writable pool (NewIn start heap)

/-- Nothing of the start changes under deep mappings. -/
def sparing : Contract where
  allows m := m.converters = [] ∧ m.copyMode = .deep
  inv := Spares pool start
  later := Grown
  source _ _ _ := True
  target heap T v := v.Writable pool (NewIn start heap) T
  result heap T v := v.Writable pool (NewIn start heap) T
  filling before heap T v _ := Grown before heap ∧ v.Writable pool (NewIn start heap) T ∧
    ∃ known, pool.Below T T known ∧ known.kind = .record
  building before heap T a := Grown before heap ∧ pool.Takes T T ∧ start.get? a = none ∧
    ∃ items, heap.get? a = some (.seq T items)

variable {pool start} {heap heap' : Heap} {v : Value} {place : ShapeId}

theorem Grown.writable (h : Grown heap heap') (hv : v.Writable pool (NewIn start heap) place) :
    v.Writable pool (NewIn start heap') place :=
  hv.mono h.typed

namespace Spares

variable (h : Spares pool start heap)

include h

theorem tokens (n : Nat) : Spares pool start { heap with tokens := n } :=
  ⟨h.kept, h.members⟩

theorem alloc (new : Instance) (hnew : new.Writable pool (NewIn start heap)) :
    Spares pool start (heap.alloc new).2 ∧
      NewIn start (heap.alloc new).2 ⟨heap.size⟩ new.shape := by
  have hg := Grown.alloc heap new
  have hfresh : ¬start.get? ⟨heap.size⟩ ≠ none := by
    intro hne
    obtain ⟨i, hi⟩ := Option.ne_none_iff_exists'.mp hne
    exact Nat.not_lt.mpr h.kept.size_le (Heap.lt_size_of_get? hi)
  refine ⟨⟨h.kept.trans (.alloc heap new), fun a i hnone ha => ?_⟩, hfresh, new,
    Heap.get?_alloc_size heap new, rfl⟩
  rw [Heap.get?_alloc] at ha
  split at ha
  · exact (Option.some.inj ha ▸ hnew).mono hg.typed
  · exact (h.members a i hnone ha).mono hg.typed

/-- A change of one new instance. -/
theorem modify {a : Address} (ha : start.get? a = none) (hg : Grown heap heap')
    (hget : ∀ b, b ≠ a → heap'.get? b = heap.get? b)
    (hmembers : ∀ i, heap'.get? a = some i → i.Writable pool (NewIn start heap')) :
    Spares pool start heap' := by
  refine ⟨h.kept.of_eq_or ha hget, fun b i hnone hb => ?_⟩
  by_cases heq : b = a
  · exact hmembers i (heq ▸ hb)
  · exact (h.members b i hnone (hget b heq ▸ hb)).mono hg.typed

/-- A member is written in a record that may be. -/
theorem writeMember {t : ShapeId} {known : Descriptor} {i : Nat} {m : Member} {record v : Value}
    (ht : pool.Below t t known) (hkind : known.kind = .record) (hm : known.members[i]? = some m)
    (hrecord : record.Writable pool (NewIn start heap) t)
    (hv : v.Writable pool (NewIn start heap) m.shape) :
    Spares pool start (heap.writeMember record i v).2 ∧
      (heap.writeMember record i v).1.Writable pool
        (NewIn start (heap.writeMember record i v).2) t := by
  have hany : known.kind ≠ .any := by simp [hkind]
  induction hrecord with
  | null => exact ⟨h, .null⟩
  | leaf hb hleaf =>
    obtain ⟨rfl, rfl⟩ := ht.unique hb
    simp [hkind] at hleaf
  | @struct shape fields _ _ hp hs hfields _ =>
    obtain rfl := hp.eq ht hany
    obtain rfl := Except.ok.inj (hs.symm.trans ht.descriptor)
    refine ⟨h, .struct hp hs fun j w m' hw hm' => ?_⟩
    rcases Heap.of_getElem?_set hw with ⟨rfl, rfl⟩ | hw
    · exact Option.some.inj (hm.symm.trans hm') ▸ hv
    · exact hfields j w m' hw hm'
  | @boxed token content _ _ ih =>
    obtain ⟨hspares, hwritable⟩ := ih ht
    exact ⟨hspares.tokens _, .boxed hwritable⟩
  | @ref a shape _ ha hp =>
    obtain rfl := hp.eq ht hany
    have hg := Grown.writeMember (.ref a) v i heap
    have hget (b : Address) := Heap.get?_writeMember i v heap b (.ref a)
    have hnew := ha
    obtain ⟨hfresh, j, hj, rfl⟩ := ha
    have hnone : start.get? a = none := Classical.not_not.mp hfresh
    refine ⟨h.modify hnone hg (fun b hne => ?_) fun i' hi' => ?_, ?_⟩
    · rcases hget b with heq | ⟨hbare, -⟩
      · exact heq
      · exact absurd (Value.ref.inj hbare).symm hne
    · rcases hget a with heq | ⟨-, own, fields, hfields, heq⟩
      · exact (h.members a i' hnone (heq ▸ hi')).mono hg.typed
      · obtain rfl := Option.some.inj (heq.symm.trans hi')
        obtain rfl := Option.some.inj (hfields.symm.trans hj)
        intro known' hs k w m' hw hm'
        obtain rfl := Except.ok.inj (hs.symm.trans ht.descriptor)
        rcases Heap.of_getElem?_setIfInBounds hw with ⟨rfl, rfl⟩ | hw
        · exact Option.some.inj (hm.symm.trans hm') ▸ hg.writable hv
        · exact hg.writable (h.members a _ hnone hfields known' hs k w m' hw hm')
    · rw [Heap.fst_writeMember_ref]
      exact .ref (hg.typed a _ hnew) hp

theorem push {a : Address} {t : ShapeId} {items : Array Value} (ha : start.get? a = none)
    (hitems : heap.get? a = some (.seq t items)) (v : Value) :
    Spares pool start (heap.push a v) := by
  refine h.modify ha (Grown.push a v heap) (fun b hne => ?_) fun i hi => ?_
  · rw [Heap.get?_push, if_neg (Ne.symm hne)]
  · rw [Heap.get?_push, if_pos rfl, hitems] at hi
    obtain rfl := Option.some.inj hi
    trivial

/-- What an origin makes may be written to. -/
theorem make {shape : ShapeId} {known : Descriptor} {made : Value × Heap}
    (hs : pool.descriptor shape = .ok known) (hmade : Origin.Makes pool shape known heap made) :
    Spares pool start made.2 ∧ Grown heap made.2 ∧
      made.1.Writable pool (NewIn start made.2) shape := by
  have hself (hkind : ∀ inner, known.kind ≠ .nullable inner) : pool.Takes shape shape :=
    .self hs hkind
  cases hmade with
  | @value zero hzero =>
    obtain ⟨n, hn⟩ := Heap.exists_tokens_box zero heap
    rw [hn]
    have hwritable := Value.Writable.of_fits (Pool.fits_of_zeroValue hzero (NewIn start heap))
    exact ⟨h.tokens n, .refl heap, hwritable.box heap⟩
  | @object fields hkind _ hfields =>
    obtain ⟨-, -, hfits⟩ := Pool.of_mapM_zeroValue hfields
    have hzero : (Instance.object shape fields.toArray).Writable pool (NewIn start heap) := by
      intro known' hs' i v m hv hm
      obtain rfl := Except.ok.inj (hs.symm.trans hs')
      exact .of_fits (hfits i v m (by simpa using hv) hm _)
    obtain ⟨hspares, hnew⟩ := h.alloc _ hzero
    exact ⟨hspares, .alloc heap _, .ref hnew (hself (by simp [hkind]))⟩
  | seq hkind =>
    obtain ⟨hspares, hnew⟩ := h.alloc (.seq shape #[]) trivial
    exact ⟨hspares, .alloc heap _, .ref hnew (hself (by simp [hkind]))⟩
  | null => exact ⟨h, .refl heap, .null⟩

/-- A member of a record that may be written to. -/
theorem member {t : ShapeId} {known : Descriptor} {i : Nat} {m : Member} {record : Value}
    (ht : pool.Below t t known) (hkind : known.kind = .record) (hm : known.members[i]? = some m)
    (hrecord : record.Writable pool (NewIn start heap) t) (hshape : heap.shape? record = some t) :
    ((heap.member? record i).getD .null).Writable pool (NewIn start heap) m.shape := by
  induction hrecord with
  | null => cases hshape
  | leaf hb hleaf =>
    obtain ⟨rfl, rfl⟩ := ht.unique hb
    simp [hkind] at hleaf
  | @struct _ fields _ _ _ hs hfields _ =>
    obtain rfl := Option.some.inj hshape
    obtain rfl := Except.ok.inj (hs.symm.trans ht.descriptor)
    rw [Heap.member?]
    cases hi : fields[i]? with
    | none => exact .null
    | some w => exact hfields i w m hi hm
  | boxed _ ih => exact ih ht hshape
  | @ref a shape _ ha _ =>
    obtain ⟨hfresh, j, hj, rfl⟩ := ha
    rw [Heap.shape?, hj] at hshape
    have hmembers := h.members a j (Classical.not_not.mp hfresh) hj
    rw [Heap.member?_ref, hj]
    cases j with
    | object shape fields =>
      cases hshape
      dsimp only
      cases hi : fields[i]? with
      | none => exact .null
      | some w => exact hmembers known ht.descriptor i w m hi hm
    | seq _ _ | stream _ _ => exact .null

end Spares

/-! ## Soundness -/

/-- The heap itself spares all that it holds. -/
theorem Spares.self (pool : Pool) (start : Heap) : Spares pool start start :=
  ⟨.refl _, fun _ _ hnone hi => nomatch hnone.symm.trans hi⟩

theorem sparing_soundValues : (sparing pool start).SoundValues pool where
  refl _ := .refl _
  trans := Grown.trans
  tokens h n := ⟨Spares.tokens h n, .refl _⟩
  source_later _ _ := trivial
  target_later hl hv := hl.writable hv
  result_later hl hv := hl.writable hv
  source_below _ _ := trivial
  source_own _ _ _ := trivial
  source_unboxed _ := trivial
  source_null := trivial
  target_null := .null
  target_below hb := (Value.Writable.below_iff hb).mpr
  result_null := .null
  result_below hb := (Value.Writable.below_iff hb).mp
  result_any hb hany _ := .leaf hb (Or.inl hany)
  result_unboxed := Value.Writable.unboxed
  result_box h := h.box _

theorem sparing_soundTransfers : (sparing pool start).SoundTransfers pool where
  primitive _ _ ht _ hkind' _ := .leaf ht (Or.inr ⟨_, hkind'⟩)
  converted ht hkind _ := .leaf ht (Or.inr ⟨_, hkind⟩)
  shared hm hmode _ := by
    rw [hm.2] at hmode
    cases hmode
  member _ _ _ _ _ := trivial

theorem sparing_soundRecords : (sparing pool start).SoundRecords pool where
  origin hinv ht ho := by
    obtain ⟨hspares, hg, -⟩ := Spares.make hinv ht.descriptor (ho.makes ht.descriptor _)
    exact ⟨hspares, hg⟩
  fill_new _ hinv ht hkind ho _ := by
    obtain ⟨-, hg, hwritable⟩ := Spares.make hinv ht.descriptor (ho.makes ht.descriptor _)
    exact ⟨hg, hwritable.unboxed, _, ht, hkind⟩
  fill_supplied _ _ ht hkind hv _ := ⟨.refl _, hv.unboxed, _, ht, hkind⟩
  fill_start hf := hf.1
  fill_later hf hl _ := ⟨hf.1.trans hl, hl.writable hf.2.1, hf.2.2⟩
  fill_current hinv ht hm hf hshape := by
    obtain ⟨-, hwritable, known', hb, hkind⟩ := hf
    obtain rfl := Except.ok.inj (hb.descriptor.symm.trans ht)
    exact Spares.member hinv hb hkind hm hwritable hshape
  fill_write hinv ht hm hf hw := by
    obtain ⟨hg, hwritable, known', hb, hkind⟩ := hf
    obtain rfl := Except.ok.inj (hb.descriptor.symm.trans ht)
    obtain ⟨hspares, hwritten⟩ := Spares.writeMember hinv hb hkind hm hwritable hw
    exact ⟨hspares, fun _ _ _ => trivial, hg.trans (.writeMember _ _ _ _), hwritten, _, hb, hkind⟩
  fill_done hf := hf.2.1

/-- The contract holds of collections. -/
theorem sparing_soundCollections : (sparing pool start).SoundCollections pool where
  element _ _ _ _ _ := trivial
  verbatim hm hmode _ _ _ _ := by
    rw [hm.2] at hmode
    cases hmode
  new {h T t known family element} items hinv ht hkind _ := by
    obtain ⟨hspares, hnew⟩ := Spares.alloc hinv (.seq t items.toArray) trivial
    exact ⟨hspares, .alloc h _, .ref hnew (.self ht.descriptor (by simp [hkind]))⟩
  build_new {h t known element origin a shape items} hinv ht hkind ho hmade hseq := by
    have hmakes := ho.makes ht.descriptor h
    obtain ⟨-, hg, hwritable⟩ := Spares.make hinv ht.descriptor hmakes
    rw [hmade] at hwritable
    cases hwritable with
    | leaf hb hleaf =>
      obtain ⟨rfl, rfl⟩ := ht.unique hb
      simp [hkind] at hleaf
    | ref hnew hp =>
      obtain rfl := hp.eq ht (by simp [hkind])
      obtain ⟨hfresh, i, hi, rfl⟩ := hnew
      obtain rfl := Option.some.inj (hseq.symm.trans hi)
      exact ⟨hg, hp, Classical.not_not.mp hfresh, items, hseq⟩
  build_supplied {h t known element v a} hinv ht hkind hv ha := by
    obtain ⟨rfl, items, hitems⟩ := CollectionMapper.sequenceAt?_eq_some_iff.mp ha
    cases hv with
    | leaf hb hleaf =>
      obtain ⟨rfl, rfl⟩ := ht.unique hb
      simp [hkind] at hleaf
    | ref hnew hp =>
      have htakes : pool.Takes t t := .self ht.descriptor (by simp [hkind])
      exact ⟨.refl h, htakes, Classical.not_not.mp hnew.1, items, hitems⟩
  build_start hb := hb.1
  build_later hb hl _ := by
    obtain ⟨hg, htakes, hnone, items, hitems⟩ := hb
    obtain ⟨f, hf⟩ := hl _ _ hitems
    exact ⟨hg.trans hl, htakes, hnone, _, hf⟩
  build_push {h h' t known element a v} hinv _ _ hb _ := by
    obtain ⟨hg, htakes, hnone, items, hitems⟩ := hb
    have hg' := Grown.push a v h'
    obtain ⟨f, hf⟩ := hg' _ _ hitems
    exact ⟨Spares.push hinv hnone hitems v, fun _ _ _ => trivial, hg.trans hg', htakes, hnone, _,
      hf⟩
  build_done hb := by
    obtain ⟨-, htakes, hnone, items, hitems⟩ := hb
    exact .ref ⟨fun hne => hne hnone, _, hitems, rfl⟩ htakes

theorem sparing_sound (hpool : Pool.initial.GrowsTo pool) : (sparing pool start).Sound pool where
  grows := hpool
  converters hm := hm.1
  values := sparing_soundValues
  transfers := sparing_soundTransfers
  records := sparing_soundRecords
  collections := sparing_soundCollections

end

end Contract

end Reshape
