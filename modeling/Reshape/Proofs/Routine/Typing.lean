import Reshape.Proofs.Routine.Contract

/-!
# Conforming values in the course of a run

`Contract.typing` follows a heap in which all instances but some streams conform to their shapes.
Instances keep their shapes (`Contract.Grown`), so that what conforms to a shape goes on to do so ;
what is written to a member or appended to a container conforms to the member or to the elements,
and so does what streams read (`Contract.Conforms.writeMember`, `Contract.Conforms.push`).

Three things are asked for. No shape but those of records declares members, and a growing list of
elements of any shape declares no others (`Pool.Regular`). A container that may be supplied is
appended to, and a stream that reads it gives the new elements too ; so such a stream takes all that
its container takes (`Heap.Steady`). And where members are shared, no such containers are, since
their elements are taken as they are.
-/

set_option linter.unusedSectionVars false

namespace Reshape

/-- Only records declare members. -/
def Pool.MembersInRecords (pool : Pool) : Prop :=
  ∀ id known, pool.descriptor id = .ok known → known.members ≠ [] → known.kind = .record

/-- Only records declare members, and lists of elements of any shape declare no others. -/
structure Pool.Regular (pool : Pool) : Prop where
  members : pool.MembersInRecords
  untyped : ∀ id known element, pool.descriptor id = .ok known →
    known.kind = .collection .untypedList (some element) → ∃ below known',
      pool.Below element below known' ∧ known'.kind = .any

theorem Pool.membersInRecords {pool : Pool}
    (h : pool.slots.all (fun slot => slot.descriptor?.all
      fun d => d.members.isEmpty || d.isRecord) = true) : pool.MembersInRecords := by
  intro id known hknown hmembers
  have hplain := Pool.of_descriptors h hknown
  rw [Bool.or_eq_true, List.isEmpty_iff] at hplain
  have hrecord := hplain.resolve_left hmembers
  unfold Descriptor.isRecord at hrecord
  split at hrecord
  · assumption
  · cases hrecord

theorem Pool.regular_of_descriptors {pool : Pool} (hmembers : pool.MembersInRecords)
    (h : pool.slots.all (fun slot => slot.descriptor?.all
      fun d => d.family? != some .untypedList || d.element?.isNone) = true) : pool.Regular := by
  refine ⟨hmembers, fun id known element hknown hkind => ?_⟩
  have hplain := Pool.of_descriptors h hknown
  simp [Descriptor.family?, Descriptor.element?, hkind] at hplain

/-- What elements are made for is what the collection declares. -/
theorem Pool.Regular.fits_element {pool : Pool} (h : pool.Regular)
    (hpool : Pool.initial.GrowsTo pool) {typed : Address → ShapeId → Prop} {t : ShapeId}
    {known : Descriptor} {family : Family} {element : Option ShapeId} {v : Value}
    (ht : pool.descriptor t = .ok known) (hkind : known.kind = .collection family element)
    (hv : v.Fits pool typed (Contract.elementPlace element family)) :
    v.Fits pool typed (element.getD ShapeId.any) := by
  cases family with
  | untypedList =>
    cases element with
    | none => exact hv.any (Pool.Below.any hpool) rfl
    | some e =>
      obtain ⟨_, _, hb, hany⟩ := h.untyped t known e ht hkind
      exact hv.any hb hany
  | _ => exact hv

/-- A typed stream that reads a container takes what the container takes. -/
def Heap.Steady (pool : Pool) (typed : Address → ShapeId → Prop) (heap : Heap) : Prop :=
  ∀ a b shape own items known known' family element element',
    typed a shape → heap.get? a = some (.stream shape (.sequence b)) →
    heap.get? b = some (.seq own items) →
    pool.descriptor own = .ok known → known.kind = .collection .insertable element →
    pool.descriptor shape = .ok known' → known'.kind = .collection family element' →
    pool.Includes (element.getD ShapeId.any) (element'.getD ShapeId.any)

namespace Contract

/-! ## Heaps in the course of a run -/

section

variable (pool : Pool) (untyped : Address → Prop)

/-- The instance has the shape, and is not one of the untyped ones. -/
def TypedIn (heap : Heap) (a : Address) (own : ShapeId) : Prop :=
  ¬ untyped a ∧ ∃ i, heap.get? a = some i ∧ i.shape = own

/-- All but some streams conform to their shapes. -/
structure Conforms (heap : Heap) : Prop where
  fits : ∀ a i, ¬ untyped a → heap.get? a = some i → i.Fits pool (TypedIn untyped heap) heap
  stream : ∀ a, untyped a → ∃ shape source, heap.get? a = some (.stream shape source)
  steady : heap.Steady pool (TypedIn untyped heap)

/-- Instances change in nothing but their contents. -/
def Grown (start heap : Heap) : Prop :=
  ∀ a i, start.get? a = some i → ∃ f, heap.get? a = some (i.mapContents f)

/-- All values conform to their shapes. -/
def typing : Contract where
  allows m := m.converters = [] ∧ (m.copyMode = .deep ∨ ∀ id known element,
    pool.descriptor id = .ok known → known.kind ≠ .collection .insertable element)
  inv := Conforms pool untyped
  later := Grown
  source heap S v := v.Fits pool (TypedIn untyped heap) S
  target heap T v := v.Fits pool (TypedIn untyped heap) T
  result heap T v := v.Fits pool (TypedIn untyped heap) T
  filling start heap T v _ := Grown start heap ∧ v.Fits pool (TypedIn untyped heap) T
  building start heap T a := Grown start heap ∧ pool.Takes T T ∧ ¬ untyped a ∧
    ∃ items, heap.get? a = some (.seq T items)

variable {pool untyped} {start heap heap' : Heap}

theorem Instance.mapContents_mapContents (f g : Array Value → Array Value) (i : Instance) :
    (i.mapContents f).mapContents g = i.mapContents (g ∘ f) := by
  cases i <;> rfl

namespace Grown

theorem refl (heap : Heap) : Grown heap heap :=
  fun a i hi => ⟨id, by cases i <;> exact hi⟩

theorem trans (h : Grown start heap) (h' : Grown heap heap') : Grown start heap' := by
  intro a i hi
  obtain ⟨f, hf⟩ := h a i hi
  obtain ⟨g, hg⟩ := h' a _ hf
  exact ⟨g ∘ f, by rw [hg, Instance.mapContents_mapContents]⟩

theorem typed (h : Grown start heap) (a : Address) (own : ShapeId)
    (ha : TypedIn untyped start a own) : TypedIn untyped heap a own := by
  obtain ⟨hnot, i, hi, rfl⟩ := ha
  obtain ⟨f, hf⟩ := h a i hi
  exact ⟨hnot, _, hf, Instance.shape_mapContents f i⟩

theorem fits (h : Grown start heap) {v : Value} {S : ShapeId}
    (hv : v.Fits pool (TypedIn untyped start) S) : v.Fits pool (TypedIn untyped heap) S :=
  hv.mono h.typed

theorem alloc (heap : Heap) (new : Instance) : Grown heap (heap.alloc new).2 :=
  fun a i hi => ⟨id, by rw [Heap.get?_alloc_of_get? hi]; cases i <;> rfl⟩

theorem writeMember (record v : Value) (i : Nat) (heap : Heap) :
    Grown heap (heap.writeMember record i v).2 := by
  intro a j hj
  rcases Heap.get?_writeMember i v heap a record with heq | ⟨-, shape, fields, ha, heq⟩
  · exact ⟨id, by rw [heq, hj]; cases j <;> rfl⟩
  · obtain rfl := Option.some.inj (ha.symm.trans hj)
    exact ⟨(·.setIfInBounds i v), heq⟩

theorem push (a : Address) (v : Value) (heap : Heap) : Grown heap (heap.push a v) := by
  intro b j hj
  rw [Heap.get?_push, hj]
  split
  · exact ⟨(·.push v), rfl⟩
  · exact ⟨id, by cases j <;> rfl⟩

end Grown

namespace Conforms

variable (h : Conforms pool untyped heap)

include h

theorem typedBy : heap.TypedBy pool (TypedIn untyped heap) := by
  rintro a own ⟨hnot, i, hi, hshape⟩
  exact ⟨i, hi, hshape, h.fits a i hnot hi⟩

/-- A change that makes no streams, and after which the instances conform again. -/
theorem of_grown (hg : Grown heap heap')
    (hstream : ∀ a shape source, heap'.get? a = some (.stream shape source) →
      heap.get? a = some (.stream shape source))
    (hfits : ∀ a i, ¬ untyped a → heap'.get? a = some i →
      i.Fits pool (TypedIn untyped heap') heap') : Conforms pool untyped heap' where
  fits := hfits
  stream a ha := by
    obtain ⟨shape, source, hi⟩ := h.stream a ha
    obtain ⟨f, hf⟩ := hg a _ hi
    exact ⟨shape, source, hf⟩
  steady := by
    intro a b shape own items known known' family element element' ha hi hj hs hkind hs' hkind'
    have hi₀ := hstream a shape _ hi
    have ha₀ : TypedIn untyped heap a shape := ⟨ha.1, _, hi₀, rfl⟩
    -- What a typed stream reads was there before.
    obtain ⟨own₀, items₀, hj₀⟩ : ∃ own₀ items₀, heap.get? b = some (.seq own₀ items₀) := by
      have hlive := h.fits a _ ha.1 hi₀
      cases hlive with
      | live _ _ hsource _ => exact ⟨_, _, hsource⟩
    obtain ⟨f, hf⟩ := hg b _ hj₀
    cases hf.symm.trans hj
    exact h.steady a b shape own items₀ known known' family element element' ha₀ hi₀ hj₀ hs hkind
      hs'
      hkind'

/-- A new instance that conforms to its shape. -/
theorem alloc {new : Instance} (hnew : ∀ shape source, new ≠ .stream shape source)
    (hfits : new.Fits pool (TypedIn untyped heap) heap) :
    Conforms pool untyped (heap.alloc new).2 ∧
      TypedIn untyped (heap.alloc new).2 ⟨heap.size⟩ new.shape := by
  have hg := Grown.alloc heap new
  have hmono {i : Instance} (hi : i.Fits pool (TypedIn untyped heap) heap) :
      i.Fits pool (TypedIn untyped (heap.alloc new).2) (heap.alloc new).2 :=
    hi.mono hg.typed fun _ _ _ _ _ => Heap.get?_alloc_of_get?
  refine ⟨h.of_grown hg (fun a shape source hi => ?_) fun a i hnot hi => ?_, fun hun => ?_, new, ?_,
    rfl⟩
  · rw [Heap.get?_alloc] at hi
    split at hi
    · exact absurd (Option.some.inj hi) (hnew shape source)
    · exact hi
  · rw [Heap.get?_alloc] at hi
    split at hi
    · obtain rfl := Option.some.inj hi
      exact hmono hfits
    · exact hmono (h.fits a i hnot hi)
  · obtain ⟨shape, source, hi⟩ := h.stream _ hun
    exact absurd (Heap.lt_size_of_get? hi) (Nat.lt_irrefl _)
  · rw [Heap.get?_alloc, if_pos rfl]

theorem tokens (n : Nat) : Conforms pool untyped { heap with tokens := n } := by
  refine h.of_grown (Grown.refl heap) (fun _ _ _ hi => hi) fun a i hnot hi => ?_
  have hfits := h.fits a i hnot hi
  refine hfits.mono ?_ ?_
  · exact fun _ _ ha => ha
  · exact fun _ _ _ _ _ hj => hj

/-- A member of an object is written, with a value that conforms to its shape. -/
theorem writeMember_ref {t : ShapeId} {known : Descriptor} {i : Nat} {m : Member} {a : Address}
    {v : Value} (ht : pool.descriptor t = .ok known) (hm : known.members[i]? = some m)
    (ha : TypedIn untyped heap a t) (hv : v.Fits pool (TypedIn untyped heap) m.shape) :
    Conforms pool untyped (heap.writeMember (.ref a) i v).2 := by
  have hg := Grown.writeMember (.ref a) v i heap
  have hget (b : Address) := Heap.get?_writeMember i v heap b (.ref a)
  refine h.of_grown hg (fun b shape source hi => ?_) fun b j hnot hj => ?_
  · rcases hget b with heq | ⟨-, _, _, -, heq⟩
    · exact heq ▸ hi
    · cases heq.symm.trans hi
  · rcases hget b with heq | ⟨hbare, shape, fields, hb, heq⟩
    · exact (h.fits b j hnot (heq ▸ hj)).mono hg.typed fun _ _ _ _ _ =>
        Heap.get?_writeMember_of_seq
    · -- the object that is written itself
      obtain rfl := Option.some.inj (heq.symm.trans hj)
      obtain rfl := Value.ref.inj hbare
      obtain ⟨-, _, hb', hshape⟩ := ha
      obtain rfl := Option.some.inj (hb.symm.trans hb')
      obtain rfl : shape = t := hshape
      cases h.fits a _ hnot hb with
      | object hs hkind htype hlength hfields =>
        obtain rfl := Except.ok.inj (hs.symm.trans ht)
        refine .object hs hkind htype (Array.size_setIfInBounds.trans hlength) ?_
        intro k w m' hw hm'
        rcases Heap.of_getElem?_setIfInBounds hw with ⟨rfl, rfl⟩ | hw
        · exact Option.some.inj (hm.symm.trans hm') ▸ hg.fits hv
        · exact hg.fits (hfields k w m' hw hm')

/-- A member that conforms to its shape is written. -/
theorem writeMember {t : ShapeId} {known : Descriptor} {i : Nat} {m : Member} {record v : Value}
    (ht : pool.descriptor t = .ok known) (hkind : known.kind = .record)
    (hm : known.members[i]? = some m) (hrecord : record.Fits pool (TypedIn untyped heap) t)
    (hv : v.Fits pool (TypedIn untyped heap) m.shape) :
    Conforms pool untyped (heap.writeMember record i v).2 ∧
      (heap.writeMember record i v).1.Fits pool
        (TypedIn untyped (heap.writeMember record i v).2) t := by
  have hany : known.kind ≠ .any := by simp [hkind]
  have hbelow : pool.Below t t known := .of_descriptor ht (by simp [hkind])
  induction hrecord with
  | null => exact ⟨h, .null⟩
  | primitive _ hp =>
    obtain ⟨_, _, hb, hcase⟩ := hp
    obtain ⟨rfl, rfl⟩ := hbelow.unique hb
    simp [hkind] at hcase
  | @struct shape fields _ _ hp hs hkind' htype hlength hfields _ =>
    obtain rfl := hp.eq hbelow hany
    obtain rfl := Except.ok.inj (hs.symm.trans ht)
    refine ⟨h, .struct hp hs hkind' htype ((List.length_set ..).trans hlength) ?_⟩
    intro j w m' hw hm'
    rcases Heap.of_getElem?_set hw with ⟨rfl, rfl⟩ | hw
    · exact Option.some.inj (hm.symm.trans hm') ▸ hv
    · exact hfields j w m' hw hm'
  | @boxed token content _ hc _ ih =>
    obtain ⟨hconforms, hfits⟩ := ih ht hbelow
    refine ⟨hconforms.tokens _, .boxed ?_ hfits⟩
    cases content <;> trivial
  | @ref a own _ ha hp =>
    obtain rfl := hp.eq hbelow hany
    refine ⟨h.writeMember_ref ht hm ha hv, ?_⟩
    rw [Heap.fst_writeMember_ref]
    exact .ref ((Grown.writeMember (.ref a) v i heap).typed a own ha) hp

/-- An element that conforms to its shape is appended. -/
theorem push {t : ShapeId} {known : Descriptor} {element : Option ShapeId} {a : Address}
    {items : Array Value} {v : Value} (ht : pool.descriptor t = .ok known)
    (hkind : known.kind = .collection .insertable element)
    (ha : heap.get? a = some (.seq t items))
    (hv : v.Fits pool (TypedIn untyped heap) (element.getD ShapeId.any)) :
    Conforms pool untyped (heap.push a v) := by
  have hg := Grown.push a v heap
  have hget (b : Address) (i : Instance) (hi : (heap.push a v).get? b = some i) :
      b ≠ a ∧ heap.get? b = some i ∨ b = a ∧ i = .seq t (items.push v) := by
    rw [Heap.get?_push] at hi
    split at hi
    · rename_i heq
      subst heq
      rw [ha] at hi
      exact Or.inr ⟨rfl, (Option.some.inj hi).symm⟩
    · rename_i hne
      exact Or.inl ⟨fun heq => hne heq.symm, hi⟩
  refine h.of_grown hg (fun b shape source hi => ?_) fun b i hnot hi => ?_
  · rcases hget b _ hi with ⟨-, hi⟩ | ⟨-, heq⟩
    · exact hi
    · cases heq
  · have hpushed {items : Array Value} {w : Value} {S : ShapeId}
        (hitems : ∀ u ∈ items, u.Fits pool (TypedIn untyped heap) S)
        (hw : w.Fits pool (TypedIn untyped heap) S) :
        ∀ u ∈ items.push w, u.Fits pool (TypedIn untyped (heap.push a v)) S := by
      intro u hu
      rcases Array.mem_push.mp hu with hu | rfl
      · exact hg.fits (hitems u hu)
      · exact hg.fits hw
    rcases hget b i hi with ⟨hne, hi⟩ | ⟨rfl, rfl⟩
    · have hfits := h.fits b i hnot hi
      by_cases hreads : ∃ shape, i = .stream shape (.sequence a)
      · obtain ⟨shape, rfl⟩ := hreads
        cases hfits with
        | live hs hkind' hsource hitems =>
          cases ha.symm.trans hsource
          have hincludes :=
            h.steady b a shape t items known _ _ element _ ⟨hnot, _, hi, rfl⟩ hi ha ht
            hkind hs hkind'
          have hread : (heap.push a v).get? a = some (.seq t (items.push v)) := by
            rw [Heap.get?_push, if_pos rfl, ha]
            rfl
          exact .live hs hkind' hread (hpushed hitems (hv.of_includes hincludes))
      · refine hfits.mono hg.typed fun shape c own items' heq hc => ?_
        have hne' : a ≠ c := fun hac => hreads ⟨shape, hac ▸ heq⟩
        rw [Heap.get?_push, if_neg hne', hc]
    · cases h.fits b _ hnot ha with
      | seq hs hkind' hitems =>
        obtain rfl := Except.ok.inj (hs.symm.trans ht)
        cases hkind'.symm.trans hkind
        exact .seq hs hkind' (hpushed hitems hv)

/-- What an origin makes conforms to its shape. -/
theorem make {shape : ShapeId} {known : Descriptor} {made : Value × Heap}
    (hs : pool.descriptor shape = .ok known) (hmade : Origin.Makes pool shape known heap made) :
    Conforms pool untyped made.2 ∧ Grown heap made.2 ∧
      made.1.Fits pool (TypedIn untyped made.2) shape := by
  have hself (hkind : ∀ inner, known.kind ≠ .nullable inner) : pool.Takes shape shape :=
    .self hs hkind
  cases hmade with
  | @value zero hzero =>
    obtain ⟨n, hn⟩ := Heap.exists_tokens_box zero heap
    rw [hn]
    exact ⟨h.tokens n, .refl heap, (Pool.fits_of_zeroValue hzero _).box heap⟩
  | @object fields hkind htype hfields =>
    obtain ⟨hlength, -, hfits⟩ := Pool.of_mapM_zeroValue hfields
    have hnew : (Instance.object shape fields.toArray).Fits pool (TypedIn untyped heap) heap :=
      .object hs hkind htype hlength fun i v m hv hm => hfits i v m (by simpa using hv) hm _
    obtain ⟨hconforms, htyped⟩ := h.alloc (by simp) hnew
    exact ⟨hconforms, .alloc heap _, .ref htyped (hself (by simp [hkind]))⟩
  | seq hkind =>
    have hnew : (Instance.seq shape #[]).Fits pool (TypedIn untyped heap) heap :=
      .seq hs hkind fun _ hv => nomatch hv
    obtain ⟨hconforms, htyped⟩ := h.alloc (by simp) hnew
    exact ⟨hconforms, .alloc heap _, .ref htyped (hself (by simp [hkind]))⟩
  | null => exact ⟨h, .refl heap, .null⟩

end Conforms

/-! ## Soundness -/

theorem typing_soundValues (hpool : Pool.initial.GrowsTo pool) :
    (typing pool untyped).SoundValues pool where
  refl _ := .refl _
  trans := Grown.trans
  tokens h n := ⟨Conforms.tokens h n, .refl _⟩
  source_later hl hv := hl.fits hv
  target_later hl hv := hl.fits hv
  result_later hl hv := hl.fits hv
  source_below hb := (Value.Fits.below_iff hb).mpr
  source_own hinv h hown := (Conforms.typedBy hinv).fits_own hpool h hown
  source_unboxed := Value.Fits.unboxed
  source_null := .null
  target_null := .null
  target_below hb := (Value.Fits.below_iff hb).mpr
  result_null := .null
  result_below hb := (Value.Fits.below_iff hb).mp
  result_any hb hany h := h.any hb hany
  result_unboxed := Value.Fits.unboxed
  result_box h := h.box _

theorem typing_soundTransfers : (typing pool untyped).SoundTransfers pool where
  primitive {h S s known T t known' p v} hinv hs ht hkind hkind' hv := by
    have htakes : pool.TakesPrimitive T p := ⟨t, known', ht, Or.inr hkind'⟩
    rcases (Conforms.typedBy hinv).primitive_cases hs hkind hv with
      rfl | hcontent | ⟨_, content, rfl, hcontent⟩
    · exact .null
    · exact .primitive hcontent htakes
    · exact .boxed hcontent.isContent (.primitive hcontent htakes)
  converted ht hkind hv := .primitive hv ⟨_, _, ht, Or.inr hkind⟩
  shared _ _ hv := hv
  member hinv hs hm hv hshape := (Conforms.typedBy hinv).fits_member hs hm hv hshape

theorem typing_soundRecords (hregular : pool.Regular) :
    (typing pool untyped).SoundRecords pool where
  origin hinv ht ho := by
    obtain ⟨hconforms, hg, -⟩ := Conforms.make hinv ht.descriptor (ho.makes ht.descriptor _)
    exact ⟨hconforms, hg⟩
  fill_new _ hinv ht _ ho _ := by
    obtain ⟨-, hg, hfits⟩ := Conforms.make hinv ht.descriptor (ho.makes ht.descriptor _)
    exact ⟨hg, hfits.unboxed⟩
  fill_supplied _ _ _ _ hv _ := ⟨.refl _, hv.unboxed⟩
  fill_start hf := hf.1
  fill_later hf hl _ := ⟨hf.1.trans hl, hl.fits hf.2⟩
  fill_current hinv ht hm hf hshape := (Conforms.typedBy hinv).fits_member ht hm hf.2 hshape
  fill_write {h h' t known v i m w pending} hinv ht hm hf hw := by
    have hkind := hregular.members t known ht (List.ne_nil_of_mem (List.mem_of_getElem? hm))
    have hg := Grown.writeMember v w i h'
    obtain ⟨hconforms, hfits⟩ := Conforms.writeMember hinv ht hkind hm hf.2 hw
    exact ⟨hconforms, fun _ _ => hg.fits, hf.1.trans hg, hfits⟩
  fill_done hf := hf.2

/-- The contract holds of collections, in pools whose collections are regular. -/
theorem typing_soundCollections (hregular : pool.Regular) (hpool : Pool.initial.GrowsTo pool) :
    (typing pool untyped).SoundCollections pool where
  element hinv hs hv := (Conforms.typedBy hinv).fits_element hs hv
  verbatim {m h S T t known family element v} hm hmode ht hkind hfamily hv := by
    rcases hfamily with rfl | rfl
    · exact hv.any (Pool.Below.any hpool) rfl
    · rcases hm.2 with hdeep | hnone
      · rw [hdeep] at hmode
        cases hmode
      · exact absurd hkind (hnone t known element ht.descriptor)
  new {h T t known family element} items hinv ht hkind hitems := by
    have hnew : (Instance.seq t items.toArray).Fits pool (TypedIn untyped h) h :=
      .seq ht.descriptor hkind fun v hv => hregular.fits_element hpool ht.descriptor hkind
        (hitems v (List.mem_toArray.mp hv))
    obtain ⟨hconforms, htyped⟩ := Conforms.alloc hinv (by simp) hnew
    exact ⟨hconforms, .alloc h _, .ref htyped (.self ht.descriptor (by simp [hkind]))⟩
  build_new {h t known element origin a shape items} hinv ht hkind ho hmade hseq := by
    obtain ⟨-, hg, hfits⟩ := Conforms.make hinv ht.descriptor (ho.makes ht.descriptor h)
    rw [hmade] at hfits
    cases hfits with
    | primitive hv _ => exact hv.isContent.elim
    | ref htyped hp =>
      obtain rfl := hp.eq ht (by simp [hkind])
      obtain ⟨hnot, i, hi, rfl⟩ := htyped
      obtain rfl := Option.some.inj (hseq.symm.trans hi)
      exact ⟨hg, hp, hnot, items, hseq⟩
  build_supplied {h t known element v a} hinv ht hkind hv ha := by
    obtain ⟨rfl, items, hitems⟩ := CollectionMapper.sequenceAt?_eq_some_iff.mp ha
    cases hv with
    | primitive hv _ => exact hv.isContent.elim
    | ref htyped _ =>
      exact ⟨.refl h, .self ht.descriptor (by simp [hkind]), htyped.1, items, hitems⟩
  build_start hb := hb.1
  build_later hb hl _ := by
    obtain ⟨hg, htakes, hnot, items, hitems⟩ := hb
    obtain ⟨f, hf⟩ := hl _ _ hitems
    exact ⟨hg.trans hl, htakes, hnot, _, hf⟩
  build_push {h h' t known element a v} hinv ht hkind hb hv := by
    obtain ⟨hg, htakes, hnot, items, hitems⟩ := hb
    have hg' := Grown.push a v h'
    obtain ⟨f, hf⟩ := hg' _ _ hitems
    exact ⟨Conforms.push hinv ht.descriptor hkind hitems hv, fun _ _ => hg'.fits, hg.trans hg',
      htakes, hnot, _, hf⟩
  build_done hb := by
    obtain ⟨-, htakes, hnot, items, hitems⟩ := hb
    exact .ref ⟨hnot, _, hitems, rfl⟩ htakes

theorem typing_sound (hregular : pool.Regular) (hpool : Pool.initial.GrowsTo pool) :
    (typing pool untyped).Sound pool where
  grows := hpool
  converters hm := hm.1
  values := typing_soundValues hpool
  transfers := typing_soundTransfers
  records := typing_soundRecords hregular
  collections := typing_soundCollections hregular hpool

end

end Contract

end Reshape
