import Reshape.Proofs.Routine.Contract
import Reshape.Proofs.Value.Confined
import Reshape.Proofs.Value.Conformance

/-!
# What conversions leave alone

A deep conversion changes nothing but what the destination reaches and what it has made itself.
These instances are its own (`Own`), and its own instances refer to none but its own : sources are
read, and nothing of them is stored (`owning`). This is where the typing of the heap counts, since a
value of a primitive shape is stored as it is.

A conversion without a destination changes no instance that was there before, whatever it shares
(`preserving`) : each member of a record that it makes holds nothing but a zero value until it is
written, so that nothing shared is ever filled. This takes rules that write no member twice.

`Routine.get?_after_run` states both for any routine of a session.
-/

set_option linter.unusedSectionVars false

namespace Reshape

/-- The converter changes no instance. It may make new ones. -/
def Converter.Keeps (c : Converter) : Prop :=
  ∀ (v state : Value) (heap : Heap), heap.Kept (c.apply v state heap).2

/-- What an origin makes is of a closed set that new instances are of, and so is what it holds. -/
theorem Origin.Makes.confined {pool : Pool} {shape : ShapeId} {known : Descriptor}
    {start heap : Heap} {made : Value × Heap} (hmade : Origin.Makes pool shape known heap made)
    {p : Address → Prop} (hnew : ∀ a, start.size ≤ a.index → p a) (h : start.Confined p heap) :
    start.Confined p made.2 ∧ made.1.Within p := by
  cases hmade with
  | @value zero hzero =>
    obtain ⟨n, hn⟩ := Heap.exists_tokens_box zero heap
    rw [hn]
    exact ⟨h.tokens n, Heap.within_box (Pool.within_of_zeroValue hzero _) heap⟩
  | object _ _ hfields =>
    exact h.alloc hnew fun w hw => (Pool.of_mapM_zeroValue hfields).2.1 w hw _
  | seq _ => exact h.alloc hnew fun _ hw => nomatch hw
  | null => exact ⟨h, .null⟩

/-! ## Own instances -/

namespace Contract

section

variable (pool : Pool) (typed : Address → ShapeId → Prop) (start : Heap) (destination : Value)

/-- The instance was made since the start, or the destination reaches it. -/
def Own (a : Address) : Prop :=
  start.size ≤ a.index ∨ start.Reaches destination a

/-- Nothing but own instances has changed, and they refer to none but each other. -/
structure Owns (heap : Heap) : Prop where
  size : start.size ≤ heap.size
  foreign : ∀ a, ¬ Own start destination a → heap.get? a = start.get? a
  parts : ∀ a i, Own start destination a → heap.get? a = some i →
    ∀ w ∈ i.parts, w.Within (Own start destination)

/-- Sources conform to their shapes at the start or are own. All else is own. -/
def owning : Contract where
  allows m := m.converters = [] ∧ m.copyMode = .deep
  inv := Owns start destination
  later _ _ := True
  source _ S v := v.Fits pool typed S ∨ v.Within (Own start destination)
  target _ _ v := v.Within (Own start destination)
  result _ _ v := v.Within (Own start destination)
  filling _ _ _ v _ := v.Within (Own start destination)
  building _ _ _ a := Own start destination a

variable {pool typed start destination}

namespace Owns

variable {heap : Heap} (h : Owns start destination heap)

include h

theorem confined : Heap.Confined (Own start destination) start heap :=
  ⟨h.size, h.foreign, h.parts⟩

omit h in
theorem of_confined (h : Heap.Confined (Own start destination) start heap) :
    Owns start destination heap :=
  ⟨h.size, h.kept, h.parts⟩

/-- A new instance of own parts. -/
theorem alloc {new : Instance} (hnew : ∀ w ∈ new.parts, w.Within (Own start destination)) :
    Owns start destination (heap.alloc new).2 ∧
      (heap.alloc new).1.Within (Own start destination) :=
  (h.confined.alloc (fun _ ha => Or.inl ha) hnew).imp_left of_confined

theorem push {a : Address} (ha : Own start destination a) {v : Value}
    (hv : v.Within (Own start destination)) : Owns start destination (heap.push a v) :=
  of_confined (h.confined.push ha hv)

/-- A member of an own record. -/
theorem writeMember {record v : Value} (hrecord : record.Within (Own start destination))
    (hv : v.Within (Own start destination)) (i : Nat) :
    Owns start destination (heap.writeMember record i v).2 :=
  of_confined (h.confined.writeMember hrecord hv i)

/-- What an origin makes is own, and so is what it holds. -/
theorem make {shape : ShapeId} {known : Descriptor} {made : Value × Heap}
    (hmade : Origin.Makes pool shape known heap made) :
    Owns start destination made.2 ∧ made.1.Within (Own start destination) :=
  (hmade.confined (fun _ ha => Or.inl ha) h.confined).imp_left of_confined

theorem elements {v : Value} (hv : v.Within (Own start destination)) :
    ∀ e ∈ (heap.elements? v).getD [v], e.Within (Own start destination) :=
  h.confined.elements hv

/-- A value shows what it showed at the start, unless it is own. -/
theorem eq_start_or_within (v : Value) : v.Within (Own start destination) ∨
    heap.shape? v = start.shape? v ∧ ∀ i, heap.member? v i = start.member? v i := by
  by_cases hown : ∃ a, v.bare = .ref a ∧ Own start destination a
  · obtain ⟨a, hbare, ha⟩ := hown
    exact Or.inl ((Value.Within.iff_of_bare hbare).mpr ha)
  · refine Or.inr (Heap.shape?_and_member?_eq fun a ha => h.foreign a fun hown' => ?_)
    exact hown ⟨a, ha, hown'⟩

/-- It has the elements that it had at the start, unless they are own. -/
theorem elements?_eq_or_within (v : Value) : heap.elements? v = start.elements? v ∨
    ∀ e ∈ (heap.elements? v).getD [v], e.Within (Own start destination) := by
  cases v with
  | ref a =>
    by_cases ha : Own start destination a
    · exact Or.inr (h.elements (Value.Within.ref.mpr ha))
    · rw [Heap.elements?_ref, Heap.elements?_ref, h.foreign a ha]
      rcases start.get? a with _ | ⟨_ | _ | ⟨_, _ | b⟩⟩
      case some.stream.sequence =>
        by_cases hb : Own start destination b
        · exact Or.inr (Heap.within_streamItems hb h.parts)
        · left
          dsimp only
          rw [Heap.streamItems_sequence, Heap.streamItems_sequence, h.foreign b hb]
      all_goals exact Or.inl rfl
  | _ => exact Or.inl rfl

end Owns

/-- The contract holds of values. -/
theorem owning_soundValues (htyped : start.TypedBy pool typed)
    (hpool : Pool.initial.GrowsTo pool) :
    (owning pool typed start destination).SoundValues pool where
  refl _ := trivial
  trans _ _ := trivial
  tokens h _ := ⟨⟨h.size, h.foreign, h.parts⟩, trivial⟩
  source_later _ h := h
  target_later _ h := h
  result_later _ h := h
  source_below hb h := h.imp_left (Value.Fits.below_iff hb).mpr
  source_own hinv h hown := by
    rcases h with h | h
    · rcases Owns.eq_start_or_within hinv _ with hwithin | ⟨hshape, -⟩
      · exact Or.inr hwithin
      · exact Or.inl (htyped.fits_own hpool h (hshape ▸ hown))
    · exact Or.inr h
  source_unboxed h := h.imp Value.Fits.unboxed Value.Within.unboxed
  source_null := Or.inl .null
  target_null := .null
  target_below _ h := h
  result_null := .null
  result_below _ h := h
  result_any _ _ h := h
  result_unboxed h := h.unboxed
  result_box h := Heap.within_box h _

theorem owning_soundTransfers (htyped : start.TypedBy pool typed) :
    (owning pool typed start destination).SoundTransfers pool where
  primitive _ hs _ hkind _ hv := by
    rcases hv with hv | hv
    · rcases htyped.primitive_cases hs hkind hv with rfl | hv | ⟨token, content, rfl, hcontent⟩
      · exact .null
      · exact hv.within
      · exact Value.Within.boxed.mpr hcontent.within
    · exact hv
  converted _ _ hv := hv.within
  shared hm hmode _ := by
    rw [hm.2] at hmode
    cases hmode
  member {h s known i m v} hinv hs hm hv hshape := by
    have hwithin (hv : v.Within (Own start destination)) :=
      Heap.within_member (i := i) (Owns.parts hinv) hv
    rcases hv with hv | hv
    · rcases Owns.eq_start_or_within hinv v with hown | ⟨heq, hmember⟩
      · exact Or.inr (hwithin hown)
      · rw [hmember]
        exact Or.inl (htyped.fits_member hs hm hv (heq ▸ hshape))
    · exact Or.inr (hwithin hv)

theorem owning_soundRecords : (owning pool typed start destination).SoundRecords pool where
  origin hinv ht ho := ⟨(Owns.make hinv (ho.makes ht.descriptor _)).1, trivial⟩
  fill_new _ hinv ht _ ho _ := (Owns.make hinv (ho.makes ht.descriptor _)).2.unboxed
  fill_supplied _ _ _ _ hv _ := hv.unboxed
  fill_start _ := trivial
  fill_later hf _ _ := hf
  fill_current hinv _ _ hf _ := Heap.within_member (Owns.parts hinv) hf
  fill_write hinv _ _ hf hw :=
    ⟨Owns.writeMember hinv hf hw _, fun _ _ h => h, Heap.within_writeMember hw hf⟩
  fill_done hf := hf

/-- The contract holds of collections. -/
theorem owning_soundCollections (htyped : start.TypedBy pool typed) :
    (owning pool typed start destination).SoundCollections pool where
  element {h s known v} hinv hs hv e he := by
    rcases hv with hv | hv
    · rcases Owns.elements?_eq_or_within hinv v with heq | hwithin
      · exact Or.inl (htyped.fits_element hs hv e (heq ▸ he))
      · exact Or.inr (hwithin e he)
    · exact Or.inr (Owns.elements hinv hv e he)
  verbatim hm hmode _ _ _ _ := by
    rw [hm.2] at hmode
    cases hmode
  new {_ _ t _ _ _ items} hinv _ _ hitems := by
    have hparts : ∀ w ∈ (Instance.seq t items.toArray).parts, w.Within (Own start destination) :=
      hitems
    obtain ⟨hinv, hnew⟩ := Owns.alloc hinv hparts
    exact ⟨hinv, trivial, hnew⟩
  build_new hinv ht _ ho hmade _ := by
    have hwithin := (Owns.make hinv (ho.makes ht.descriptor _)).2
    rw [hmade] at hwithin
    exact Value.Within.ref.mp hwithin
  build_supplied {h t known element v a} hinv _ _ hv ha := by
    obtain ⟨rfl, -⟩ := CollectionMapper.sequenceAt?_eq_some_iff.mp ha
    exact Value.Within.ref.mp hv
  build_start _ := trivial
  build_later hb _ _ := hb
  build_push hinv _ _ hb hv := ⟨Owns.push hinv hb hv, fun _ _ h => h, hb⟩
  build_done hb := Value.Within.ref.mpr hb

theorem owning_sound (htyped : start.TypedBy pool typed) (hpool : Pool.initial.GrowsTo pool) :
    (owning pool typed start destination).Sound pool where
  grows := hpool
  converters hm := hm.1
  values := owning_soundValues htyped hpool
  transfers := owning_soundTransfers htyped
  records := owning_soundRecords
  collections := owning_soundCollections htyped

end

/-! ## Instances that were there before -/

section

variable {pool : Pool}

/-- A record that was not there at the start, and whose pending members refer to nothing. -/
structure Fresh (start heap : Heap) (record : Value) (pending : List Nat) : Prop where
  kept : start.Kept heap
  nodup : pending.Nodup
  made : ∀ a, record.bare = .ref a → start.get? a = none ∧ ∃ i, heap.get? a = some i
  zero : ∀ i ∈ pending, ((heap.member? record i).getD .null).Within fun _ => False

/-- No instance that there is changes, and destinations refer to nothing. -/
def preserving : Contract where
  allows m := m.converters = [] ∧ ∀ source target,
    ((m.rules.existing source target).map MemberPair.destination).Nodup
  inv _ := True
  later := Heap.Kept
  source _ _ _ := True
  target _ _ v := v.Within fun _ => False
  result _ _ _ := True
  filling start heap _ v pending := Fresh start heap v pending
  building start heap _ a := start.Kept heap ∧ start.get? a = none ∧ ∃ i, heap.get? a = some i

/-- The mapping pairs no member twice, and has no converters but such as change no instance. -/
def keeping : Contract :=
  preserving.about fun m => (∀ c ∈ m.converters, c.converter.Keeps) ∧
    ∀ source target, ((m.rules.existing source target).map MemberPair.destination).Nodup

variable {start heap heap' : Heap} {record v : Value} {pending : List Nat}

namespace Fresh

/-- A record that refers to nothing. -/
theorem of_within (hkept : start.Kept heap) (hnodup : pending.Nodup)
    (h : record.Within fun _ => False) : Fresh start heap record pending where
  kept := hkept
  nodup := hnodup
  made _ ha := ((Value.Within.iff_of_bare ha).mp h).elim
  zero _ _ := Heap.within_member (fun _ _ h => h.elim) h

/-- A record as it is made. -/
theorem make {shape : ShapeId} {known : Descriptor} {made : Value × Heap}
    (hnodup : pending.Nodup) (hkind : known.kind = .record)
    (h : Origin.Makes pool shape known heap made) (hnull : made.1.unboxed ≠ .null) :
    Fresh heap made.2 made.1.unboxed pending := by
  have hkept := h.kept
  cases h with
  | @value zero hzero =>
    rw [Heap.unboxed_box] at *
    exact of_within hkept hnodup (Pool.within_of_zeroValue hzero _).unboxed
  | @object fields _ _ hfields =>
    refine ⟨hkept, hnodup, fun a ha => ?_, fun i _ => ?_⟩
    · cases ha
      exact ⟨Heap.get?_size heap, _, Heap.get?_alloc_size heap _⟩
    · change (((heap.alloc _).2.member? (.ref ⟨heap.size⟩) i).getD .null).Within _
      rw [Heap.member?_ref, Heap.get?_alloc_size]
      dsimp only
      rw [List.getElem?_toArray]
      cases hi : fields[i]? with
      | none => exact .null
      | some w => exact (Pool.of_mapM_zeroValue hfields).2.1 w (List.mem_of_getElem? hi) _
  | seq hkind' => exact nomatch hkind.symm.trans hkind'
  | null => exact absurd rfl hnull

/-- What else is done in the meantime. -/
theorem later (h : Fresh start heap record pending) (hl : heap.Kept heap') :
    Fresh start heap' record pending where
  kept := h.kept.trans hl
  nodup := h.nodup
  made a ha := by
    obtain ⟨hnone, i, hi⟩ := h.made a ha
    exact ⟨hnone, i, hl a i hi⟩
  zero i hi := by
    have hsame : ∀ a, record.bare = .ref a → heap'.get? a = heap.get? a := by
      intro a ha
      obtain ⟨-, j, hj⟩ := h.made a ha
      rw [hj, hl a j hj]
    rw [(Heap.shape?_and_member?_eq hsame).2]
    exact h.zero i hi

/-- To write the member that is next leaves the other ones as they are. -/
theorem write {i : Nat} (h : Fresh start heap record (i :: pending)) :
    Fresh start (heap.writeMember record i v).2 (heap.writeMember record i v).1 pending := by
  have hget (b : Address) := Heap.get?_writeMember i v heap b record
  obtain ⟨hi, hnodup⟩ := List.nodup_cons.mp h.nodup
  refine ⟨fun b j hb => ?_, hnodup, fun a ha => ?_, fun j hj => ?_⟩
  · rcases hget b with heq | ⟨hbare, -⟩
    · rw [heq]
      exact h.kept b j hb
    · exact nomatch (h.made b hbare).1.symm.trans hb
  · obtain ⟨hnone, j, hj⟩ := h.made a (Heap.bare_writeMember ha)
    rcases hget a with heq | ⟨-, _, _, -, heq⟩
    · exact ⟨hnone, j, heq.trans hj⟩
    · exact ⟨hnone, _, heq⟩
  · have hne : i ≠ j := fun heq => hi (heq ▸ hj)
    rw [Heap.member?_writeMember_of_ne hne]
    exact h.zero j (List.mem_cons_of_mem _ hj)

end Fresh

variable (allows : Mapping → Prop)

theorem preserving_soundValues : (preserving.about allows).SoundValues pool where
  refl _ := .refl _
  trans := Heap.Kept.trans
  tokens _ _ := ⟨trivial, .refl _⟩
  source_later _ h := h
  target_later _ h := h
  result_later _ h := h
  source_below _ h := h
  source_own _ _ _ := trivial
  source_unboxed h := h
  source_null := trivial
  target_null := .null
  target_below _ h := h
  result_null := trivial
  result_below _ h := h
  result_any _ _ _ := trivial
  result_unboxed h := h
  result_box h := h

theorem preserving_soundTransfers : (preserving.about allows).SoundTransfers pool where
  primitive _ _ _ _ _ _ := trivial
  converted _ _ _ := trivial
  shared _ _ _ := trivial
  member _ _ _ _ _ := trivial

theorem preserving_soundRecords (honce : ∀ m, allows m → ∀ source target,
    ((m.rules.existing source target).map MemberPair.destination).Nodup) :
    (preserving.about allows).SoundRecords pool where
  origin _ ht ho := ⟨trivial, (ho.makes ht.descriptor _).kept⟩
  fill_new hm _ ht hkind ho hnull :=
    .make (honce _ hm _ _) hkind (ho.makes ht.descriptor _) hnull
  fill_supplied hm _ _ _ hv _ := .of_within (.refl _) (honce _ hm _ _) hv.unboxed
  fill_start hf := hf.kept
  fill_later hf hl _ := hf.later hl
  fill_current _ _ _ hf _ := hf.zero _ List.mem_cons_self
  fill_write _ _ _ hf _ := ⟨trivial, fun _ _ h => h, hf.write⟩
  fill_done _ := trivial

theorem preserving_soundCollections : (preserving.about allows).SoundCollections pool where
  element _ _ _ _ _ := trivial
  verbatim _ _ _ _ _ _ := trivial
  new _ _ _ _ := ⟨trivial, .alloc _ _, trivial⟩
  build_new {h t known element origin a shape items} _ ht _ ho hmade hseq := by
    have hmakes := ho.makes ht.descriptor h
    obtain ⟨rfl, -⟩ := hmakes.eq_alloc hmade
    exact ⟨hmakes.kept, Heap.get?_size h, _, hseq⟩
  build_supplied _ _ _ hv ha := by
    obtain ⟨rfl, -⟩ := CollectionMapper.sequenceAt?_eq_some_iff.mp ha
    exact (Value.Within.ref.mp hv).elim
  build_start hb := hb.1
  build_later hb hl _ := by
    obtain ⟨hkept, hnone, i, hi⟩ := hb
    exact ⟨hkept.trans hl, hnone, i, hl _ i hi⟩
  build_push {h h' t known element a v} _ _ _ hb _ := by
    obtain ⟨hkept, hnone, i, hi⟩ := hb
    refine ⟨trivial, fun _ _ h => h, hkept.of_eq_or hnone fun b hb => ?_, hnone, ?_⟩
    · rw [Heap.get?_push, if_neg hb.symm]
    · rw [Heap.get?_push, if_pos rfl, hi]
      exact ⟨_, rfl⟩
  build_done _ := trivial

theorem preserving_sound (hpool : Pool.initial.GrowsTo pool) : preserving.Sound pool where
  grows := hpool
  converters hm := hm.1
  values := preserving_soundValues preserving.allows
  transfers := preserving_soundTransfers preserving.allows
  records := preserving_soundRecords preserving.allows fun _ hm => hm.2
  collections := preserving_soundCollections preserving.allows

theorem keeping_soundWith (hpool : Pool.initial.GrowsTo pool) (state : Value) :
    keeping.SoundWith pool state where
  grows := hpool
  converters hm c hc _ _ _ _ _ _ := ⟨trivial, hm.1 c hc _ _ _, fun _ _ => trivial⟩
  values := preserving_soundValues _
  transfers := preserving_soundTransfers _
  records := preserving_soundRecords _ fun _ hm => hm.2
  collections := preserving_soundCollections _

end

end Contract

/-! ## Routines -/

/-- However a run of a converter-free routine ends, an instance that the destination does not reach
is what it was before, if the mapping copies deep, or if there is no destination and the rules never
write a member twice. Sources conform to their shapes, and may share instances with destinations. -/
theorem Routine.get?_after_run {mappings : Mapping → Prop} {s : Session}
    (hs : s.Reachable mappings) {r : Routine} (hr : s.Knows r)
    (hconverters : ∀ m, mappings m → m.id = r.key.mapping → m.converters = [])
    {typed : Address → ShapeId → Prop} (htyped : s.heap.TypedBy s.pool typed)
    {source destination : Value} (hsource : source.Fits s.pool typed r.key.source)
    (hmode : (∀ m, mappings m → m.id = r.key.mapping → m.copyMode = .deep) ∨
      destination = .null ∧ ∀ m, mappings m → m.id = r.key.mapping → ∀ known known',
        ((m.rules.pairs known known').map MemberPair.destination).Nodup)
    (depth : Nat) (state : Value) {a : Address} {i : Instance} (ha : s.heap.get? a = some i)
    (hreach : ¬ s.heap.Reaches destination a) :
    (After (r.run depth source destination state) s).heap.get? a = some i := by
  have hcoherent := hs.coherent
  have hpool := hs.growsTo
  rcases hmode with hdeep | ⟨rfl, hnodup⟩
  · let c := Contract.owning s.pool typed s.heap destination
    have hforeign : ¬ Contract.Own s.heap destination a := by
      rintro (hle | hreach')
      · exact absurd (Heap.lt_size_of_get? ha) (Nat.not_lt.mpr hle)
      · exact hreach hreach'
    have hinv : Contract.Owns s.heap destination s.heap := by
      refine ⟨Nat.le_refl _, fun _ _ => rfl, fun b j hb hj w hw b' hb' => ?_⟩
      rcases hb with hle | hb
      · exact absurd (Heap.lt_size_of_get? hj) (Nat.not_lt.mpr hle)
      · exact Or.inr (.step hb hj hw hb')
    have hmeets : c.Meets s.pool mappings s r fun source destination =>
        r.run depth source destination state :=
      (Contract.owning_sound htyped hpool).run_meets
        (fun m hm hid => ⟨hconverters m hm hid, hdeep m hm hid⟩) depth ⟨hcoherent, rfl, hinv⟩ hr rfl
        state
    have hgives := hmeets source destination (Or.inl hsource) fun b hb => Or.inr (.here hb)
    have hafter : Contract.Owns s.heap destination
        (After (r.run depth source destination state) s).heap := hgives.leads_after.held.inv
    exact (hafter.foreign a hforeign).trans ha
  · have hallows (m : Mapping) (hm : mappings m) (hid : m.id = r.key.mapping) :
        Contract.preserving.allows m :=
      ⟨hconverters m hm hid, fun known known' =>
        (hnodup m hm hid known known').sublist (List.filter_sublist.map _)⟩
    have hmeets : Contract.preserving.Meets s.pool mappings s r fun source destination =>
        r.run depth source destination state :=
      (Contract.preserving_sound hpool).run_meets hallows depth ⟨hcoherent, rfl, trivial⟩ hr rfl
        state
    have hafter : s.heap.Kept (After (r.run depth source .null state) s).heap :=
      (hmeets source .null trivial .null).leads_after.later
    exact hafter a i ha

/-! ## A letter and its draft -/

namespace Letter

def members : List Member :=
  [⟨"words", ShapeId.int, {}⟩, ⟨"lines", ShapeId.untypedList, {}⟩]

def operations : List Pool.Operation :=
  [.register (.ofRecord "Draft" members), .register (.ofRecord "Letter" members)]

def pool : Pool :=
  [⟨"Draft", some (.ofRecord "Draft" members)⟩,
    ⟨"Letter", some (.ofRecord "Letter" members)⟩].foldl Pool.push Pool.initial

theorem pool_eq : operations.foldl Pool.Operation.apply Pool.initial = pool := by decide +kernel

/-- A list with an empty line, the draft that holds it, and a letter in which nothing is written. -/
def heap : Heap where
  instances := #[.seq ShapeId.untypedList #[.null], .object ⟨7⟩ #[.int 2, .ref ⟨0⟩],
    .object ⟨8⟩ #[.int 0, .null]]

theorem typedBy : heap.TypedBy pool heap.shapes :=
  Heap.typedBy_shapes (by decide +kernel)

theorem fits_draft : (Value.ref ⟨1⟩).Fits pool heap.shapes ⟨7⟩ := by decide +kernel

theorem fits_letter : (Value.ref ⟨2⟩).Fits pool heap.shapes ⟨8⟩ := by decide +kernel

theorem not_reaches : ¬heap.Reaches (.ref ⟨2⟩) ⟨0⟩ := by
  intro h
  refine absurd (h.within (p := (· = ⟨2⟩)) ?_ (Value.Within.ref.mpr rfl)) (by decide)
  rintro a i rfl hi w hw
  obtain rfl := Option.some.inj hi
  replace hw : w ∈ [.int 0, .null] := hw
  simp only [List.mem_cons, List.not_mem_nil, or_false] at hw
  rcases hw with rfl | rfl <;> rintro b ⟨⟩

def session : Session :=
  .compiling operations heap Mapping.initial ⟨7⟩ ⟨8⟩

def routine : Routine :=
  Session.compiled operations heap Mapping.initial ⟨7⟩ ⟨8⟩

theorem reachable : session.Reachable (· = Mapping.initial) :=
  Session.reachable_compiling operations heap Mapping.initial ⟨7⟩ ⟨8⟩

theorem knows : session.Knows routine ∧ routine.key = ⟨⟨7⟩, ⟨8⟩, Mapping.initial.id⟩ :=
  Session.knows_of_cached? (show (session.cached? ⟨0⟩ ⟨⟨7⟩, ⟨8⟩, Mapping.initial.id⟩).isSome = true
    by decide +kernel)

theorem session_pool : session.pool = pool :=
  (Session.pool_and_heap_compiling operations heap Mapping.initial ⟨7⟩ ⟨8⟩).1.trans pool_eq

theorem session_heap : session.heap = heap :=
  (Session.pool_and_heap_compiling operations heap Mapping.initial ⟨7⟩ ⟨8⟩).2

/-- The draft is written into the letter, with a list of its own. -/
theorem run_eq : ∃ s', routine.run 2 (.ref ⟨1⟩) (.ref ⟨2⟩) .null session = .ok (.ref ⟨2⟩) s' ∧
    s'.heap.get? ⟨2⟩ = some (.object ⟨8⟩ #[.int 2, .ref ⟨3⟩]) ∧
    s'.heap.get? ⟨3⟩ = some (.seq ShapeId.untypedList #[.null]) :=
  ⟨_, rfl, rfl, rfl⟩

end Letter

/-- The letter changes, and the list of the draft, to which it does not lead, is left as it is. -/
theorem Routine.get?_after_run_letter : ∃ s',
    Letter.routine.run 2 (.ref ⟨1⟩) (.ref ⟨2⟩) .null Letter.session = .ok (.ref ⟨2⟩) s' ∧
      s'.heap.get? ⟨2⟩ = some (.object ⟨8⟩ #[.int 2, .ref ⟨3⟩]) ∧
      ¬Letter.session.heap.Reaches (.ref ⟨2⟩) ⟨0⟩ ∧
      s'.heap.get? ⟨0⟩ = some (.seq ShapeId.untypedList #[.null]) := by
  obtain ⟨hknows, hkey⟩ := Letter.knows
  have htyped : Letter.session.heap.TypedBy Letter.session.pool Letter.heap.shapes := by
    rw [Letter.session_heap, Letter.session_pool]
    exact Letter.typedBy
  have hsource : (Value.ref ⟨1⟩).Fits Letter.session.pool Letter.heap.shapes
      Letter.routine.key.source := by
    rw [hkey, Letter.session_pool]
    exact Letter.fits_draft
  have hlist : Letter.session.heap.get? ⟨0⟩ = some (.seq ShapeId.untypedList #[.null]) := by
    rw [Letter.session_heap]
    rfl
  have hreach : ¬Letter.session.heap.Reaches (.ref ⟨2⟩) ⟨0⟩ :=
    Letter.session_heap ▸ Letter.not_reaches
  obtain ⟨s', hrun, hletter, -⟩ := Letter.run_eq
  have hafter := Routine.get?_after_run Letter.reachable hknows (fun m hm _ => hm ▸ rfl) htyped
    hsource (.inl fun m hm _ => hm ▸ rfl) 2 .null hlist hreach
  rw [After, hrun] at hafter
  exact ⟨s', hrun, hletter, hreach, hafter⟩

end Reshape
