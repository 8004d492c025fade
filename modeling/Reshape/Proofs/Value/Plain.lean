import Reshape.Proofs.Value.Typing

/-!
# Plain values and copies

A plain value (`Heap.Plain`) conforms to the shape of its place down to the last field and item. It
is finite, does not lead back to itself (`Heap.Plain.acc`), and holds no streams, no containers that
cannot be built, and no NaN. Boxes make no difference.

`Heap.Copied` says that one value is a copy of another, made of instances from some address on. What
a copy reaches lies in new instances (`Heap.Copied.le_of_reaches`).
-/

set_option linter.unusedSectionVars false

namespace Reshape

/-! ## Boxes -/

namespace Value

theorem bare_bare : ∀ v : Value, v.bare.bare = v.bare
  | .boxed _ content => bare_bare content
  | .null | .bool _ | .int _ | .float _ | .char _ | .str _ _ | .struct _ _ | .ref _ => rfl

theorem mentions_bare {a : Address} : ∀ {v : Value}, v.Mentions a → v.bare.Mentions a
  | .boxed _ content, h => by
    cases h with
    | boxed h => exact mentions_bare (v := content) h
  | .null, h | .bool _, h | .int _, h | .float _, h | .char _, h | .str _ _, h | .struct _ _, h
  | .ref _, h => h

theorem mentions_of_bare {a : Address} : ∀ {v : Value}, v.bare.Mentions a → v.Mentions a
  | .boxed _ content, h => .boxed (mentions_of_bare (v := content) h)
  | .null, h | .bool _, h | .int _, h | .float _, h | .char _, h | .str _ _, h | .struct _ _, h
  | .ref _, h => h

/-- A primitive has the shape of its kind. -/
theorem IsPrimitive.shape?_eq {p : Primitive} {v : Value} (h : v.IsPrimitive p) (heap : Heap) :
    heap.shape? v = some p.shape := by
  cases p <;> cases v <;> first | rfl | exact h.elim

end Value

/-- Objects and sequences hold their contents. -/
theorem Instance.parts_eq {i : Instance} (h : ∀ shape source, i ≠ .stream shape source) :
    i.parts = i.contents.toList := by
  cases i with
  | object _ _ | seq _ _ => rfl
  | stream shape source => exact absurd rfl (h shape source)

/-! ## Plain values -/

namespace Heap

/-- The value conforms to the shape of its place, is finite, and holds no streams, no containers
that cannot be built, and no NaN. -/
inductive Plain (pool : Pool) (heap : Heap) : Value → ShapeId → Prop
  | null {place : ShapeId} : Plain pool heap .null place
  | primitive {p : Primitive} {v : Value} {place : ShapeId} (hv : v.bare.IsPrimitive p)
    (hp : pool.Takes place p.shape) (hnan : ∀ x, v.bare = .float x → x.isNaN = false) :
    Plain pool heap v place
  | struct {v : Value} {shape : ShapeId} {fields : List Value} {place : ShapeId}
    {known : Descriptor}
    (hv : v.bare = .struct shape fields) (hp : pool.Takes place shape)
    (hs : pool.descriptor shape = .ok known) (hkind : known.kind = .record)
    (htype : known.valueType = true) (hlength : fields.length = known.members.length)
    (hfields : ∀ (i : Nat) (w : Value) (m : Member), fields[i]? = some w →
      known.members[i]? = some m → Plain pool heap w m.shape) :
    Plain pool heap v place
  | object {a : Address} {shape : ShapeId} {fields : Array Value} {place : ShapeId}
    {known : Descriptor} (ha : heap.get? a = some (.object shape fields))
    (hp : pool.Takes place shape) (hs : pool.descriptor shape = .ok known)
    (hkind : known.kind = .record) (htype : known.valueType = false)
    (hlength : fields.size = known.members.length)
    (hfields : ∀ (i : Nat) (w : Value) (m : Member), fields[i]? = some w →
      known.members[i]? = some m → Plain pool heap w m.shape) :
    Plain pool heap (.ref a) place
  | seq {a : Address} {shape : ShapeId} {items : Array Value} {place : ShapeId} {known : Descriptor}
    {family : Family} {element : Option ShapeId} (ha : heap.get? a = some (.seq shape items))
    (hp : pool.Takes place shape) (hs : pool.descriptor shape = .ok known)
    (hkind : known.kind = .collection family element) (hfamily : family ≠ .opaqueFamily)
    (hitems : ∀ w ∈ items, Plain pool heap w (element.getD ShapeId.any)) :
    Plain pool heap (.ref a) place

/-- The second instance holds a reference to the first. -/
def Leads (heap : Heap) (b a : Address) : Prop :=
  ∃ i w, heap.get? a = some i ∧ w ∈ i.parts ∧ w.Mentions b

namespace Plain

variable {pool : Pool} {heap heap' : Heap} {v : Value} {place place' : ShapeId}

/-- A place that takes as much holds as much. -/
theorem of_takes (hp : ∀ own, pool.Takes place own → pool.Takes place' own)
    (h : heap.Plain pool v place) : heap.Plain pool v place' := by
  cases h with
  | null => exact .null
  | primitive hv h hnan => exact .primitive hv (hp _ h) hnan
  | struct hv h hs hkind htype hlength hfields =>
    exact .struct hv (hp _ h) hs hkind htype hlength hfields
  | object ha h hs hkind htype hlength hfields =>
    exact .object ha (hp _ h) hs hkind htype hlength hfields
  | seq ha h hs hkind hfamily hitems => exact .seq ha (hp _ h) hs hkind hfamily hitems

theorem below_iff {below : ShapeId} {known : Descriptor} (hb : pool.Below place below known) :
    heap.Plain pool v below ↔ heap.Plain pool v place :=
  ⟨of_takes fun _ => (Pool.takes_below_iff hb).mp, of_takes fun _ => (Pool.takes_below_iff hb).mpr⟩

/-- A plain value has a shape of its own, which its place takes, or is null. -/
theorem exists_own (hpool : Pool.initial.GrowsTo pool) (h : heap.Plain pool v place)
    (hnull : v ≠ .null) : ∃ own known, heap.shape? v = some own ∧ pool.Takes place own ∧
      pool.Below own own known ∧ known.kind ≠ .any ∧ heap.Plain pool v own := by
  have hself {own : ShapeId} {known : Descriptor} (hs : pool.descriptor own = .ok known)
      (hkind : known.kind = .record ∨ ∃ family element, known.kind = .collection family element) :
      pool.Below own own known ∧ known.kind ≠ .any := by
    rcases hkind with hkind | ⟨_, _, hkind⟩ <;>
      exact ⟨.of_descriptor hs (by simp [hkind]), by simp [hkind]⟩
  cases h with
  | null => exact absurd rfl hnull
  | @primitive p _ _ hv hp hnan =>
    have hb := Pool.Below.of_primitive hpool p
    refine ⟨p.shape, _, ?_, hp, hb, nofun, .primitive hv ⟨_, _, hb, Or.inr rfl⟩ hnan⟩
    rw [← shape?_bare, hv.shape?_eq]
  | @struct _ shape _ _ known hv hp hs hkind htype hlength hfields =>
    obtain ⟨hb, hany⟩ := hself hs (Or.inl hkind)
    refine ⟨shape, known, ?_, hp, hb, hany,
      .struct hv ⟨_, _, hb, Or.inr rfl⟩ hs hkind htype hlength hfields⟩
    rw [← shape?_bare, hv]
    rfl
  | @object a shape fields _ known ha hp hs hkind htype hlength hfields =>
    obtain ⟨hb, hany⟩ := hself hs (Or.inl hkind)
    refine ⟨shape, known, ?_, hp, hb, hany,
      .object ha ⟨_, _, hb, Or.inr rfl⟩ hs hkind htype hlength hfields⟩
    rw [shape?, ha]
    rfl
  | @seq a shape items _ known _ _ ha hp hs hkind hfamily hitems =>
    obtain ⟨hb, hany⟩ := hself hs (Or.inr ⟨_, _, hkind⟩)
    refine ⟨shape, known, ?_, hp, hb, hany,
      .seq ha ⟨_, _, hb, Or.inr rfl⟩ hs hkind hfamily hitems⟩
    rw [shape?, ha]
    rfl

/-- References from a plain value lead to instances that do not lead back to themselves. -/
theorem acc (h : heap.Plain pool v place) : ∀ a, v.Mentions a → Acc heap.Leads a := by
  induction h with
  | null => exact nofun
  | primitive hv _ _ =>
    intro a ha
    exact (hv.within (p := fun _ => False) a (Value.mentions_bare ha)).elim
  | @struct _ _ fields _ known hv _ _ _ _ hlength _ ih =>
    intro a ha
    have ha' := Value.mentions_bare ha
    rw [hv] at ha'
    cases ha' with
    | struct hw ha' =>
      obtain ⟨i, hi⟩ := List.mem_iff_getElem?.mp hw
      have hlt : i < known.members.length := hlength ▸ (List.getElem?_eq_some_iff.mp hi).1
      exact ih i _ _ hi (List.getElem?_eq_getElem hlt) a ha'
  | @object b _ fields _ known hb _ _ _ _ hlength _ ih =>
    rintro a ⟨⟩
    refine Acc.intro b ?_
    rintro c ⟨i, w, hi, hw, hc⟩
    obtain rfl := Option.some.inj (hb.symm.trans hi)
    obtain ⟨k, hk⟩ := Array.mem_iff_getElem?.mp (Array.mem_toList_iff.mp hw)
    have hlt : k < known.members.length := hlength ▸ (Array.getElem?_eq_some_iff.mp hk).1
    exact ih k _ _ hk (List.getElem?_eq_getElem hlt) c hc
  | @seq b _ items _ _ _ _ hb _ _ _ _ _ ih =>
    rintro a ⟨⟩
    refine Acc.intro b ?_
    rintro c ⟨i, w, hi, hw, hc⟩
    obtain rfl := Option.some.inj (hb.symm.trans hi)
    exact ih w (Array.mem_toList_iff.mp hw) c hc

/-- What a plain value refers to is a plain instance. -/
theorem exists_of_mentions {a : Address} (h : heap.Plain pool v place) (ha : v.Mentions a) :
    ∃ place', heap.Plain pool (.ref a) place' := by
  induction h with
  | null => cases ha
  | primitive hv _ _ =>
    exact (hv.within (p := fun _ => False) a (Value.mentions_bare ha)).elim
  | @struct _ _ fields _ known hv _ _ _ _ hlength _ ih =>
    have ha' := Value.mentions_bare ha
    rw [hv] at ha'
    cases ha' with
    | struct hw ha' =>
      obtain ⟨i, hi⟩ := List.mem_iff_getElem?.mp hw
      have hlt : i < known.members.length := hlength ▸ (List.getElem?_eq_some_iff.mp hi).1
      exact ih i _ _ hi (List.getElem?_eq_getElem hlt) ha'
  | object hb hp hs hkind htype hlength hfields =>
    cases ha
    exact ⟨_, .object hb hp hs hkind htype hlength hfields⟩
  | seq hb hp hs hkind hfamily hitems =>
    cases ha
    exact ⟨_, .seq hb hp hs hkind hfamily hitems⟩

/-- A plain instance is there, and holds plain values. -/
theorem exists_instance {a : Address} (h : heap.Plain pool (.ref a) place) :
    ∃ i, heap.get? a = some i ∧ ∀ w ∈ i.parts, ∃ place', heap.Plain pool w place' := by
  cases h with
  | primitive hv _ _ => exact hv.isContent.elim
  | struct hv _ _ _ _ _ _ => cases hv
  | @object _ _ fields _ known ha _ _ _ _ hlength hfields =>
    refine ⟨_, ha, fun w hw => ?_⟩
    obtain ⟨k, hk⟩ := Array.mem_iff_getElem?.mp (Array.mem_toList_iff.mp hw)
    have hlt : k < known.members.length := hlength ▸ (Array.getElem?_eq_some_iff.mp hk).1
    exact ⟨_, hfields k w _ hk (List.getElem?_eq_getElem hlt)⟩
  | seq ha _ _ _ _ hitems =>
    exact ⟨_, ha, fun w hw => ⟨_, hitems w (Array.mem_toList_iff.mp hw)⟩⟩

/-- What a plain value reaches is a plain instance, also in a heap with more instances. -/
theorem exists_of_reaches {a : Address} (h : heap.Plain pool v place) (hk : heap.Kept heap')
    (ha : heap'.Reaches v a) : ∃ place', heap.Plain pool (.ref a) place' := by
  induction ha with
  | here ha => exact h.exists_of_mentions ha
  | step _ hi hw hb ih =>
    obtain ⟨_, hplain⟩ := ih
    obtain ⟨j, hj, hparts⟩ := hplain.exists_instance
    obtain rfl := Option.some.inj ((hk _ _ hj).symm.trans hi)
    obtain ⟨_, hplain'⟩ := hparts _ hw
    exact hplain'.exists_of_mentions hb

/-- What a plain value reaches was there from the start. -/
theorem lt_size_of_reaches {a : Address} (h : heap.Plain pool v place) (hk : heap.Kept heap')
    (ha : heap'.Reaches v a) : a.index < heap.size := by
  obtain ⟨_, hplain⟩ := h.exists_of_reaches hk ha
  obtain ⟨i, hi, -⟩ := hplain.exists_instance
  exact lt_size_of_get? hi

end Plain

/-! ## Parts -/

/-- The fields or items that the value holds, or that are held where it refers to. -/
def parts (heap : Heap) (v : Value) : List Value :=
  match v.bare with
  | .struct _ fields => fields
  | .ref a => ((heap.get? a).map fun i => i.contents.toList).getD []
  | _ => []

theorem parts_of_struct (heap : Heap) {v : Value} {shape : ShapeId} {fields : List Value}
    (hv : v.bare = .struct shape fields) : heap.parts v = fields := by
  rw [parts, hv]

theorem parts_ref {heap : Heap} {a : Address} {i : Instance} (ha : heap.get? a = some i) :
    heap.parts (.ref a) = i.contents.toList := by
  change ((heap.get? a).map fun i => i.contents.toList).getD [] = _
  rw [ha]
  rfl

/-- What holds of a value if it holds of its parts, holds of plain values. -/
theorem Plain.parts_induction {pool : Pool} {heap : Heap} {motive : Value → Prop}
    (hparts : ∀ v place, heap.Plain pool v place → (∀ u ∈ heap.parts v, motive u) → motive v)
    {v : Value} {place : ShapeId} (h : heap.Plain pool v place) : motive v := by
  induction h with
  | @null place => exact hparts _ place .null nofun
  | @primitive p v place hv hp hnan =>
    refine hparts _ place (.primitive hv hp hnan) fun u hu => ?_
    have hnone : heap.parts v = [] := by
      unfold parts
      split <;> rename_i heq
      · rw [heq] at hv
        cases p <;> exact hv.elim
      · rw [heq] at hv
        exact hv.isContent.elim
      · rfl
    rw [hnone] at hu
    cases hu
  | @struct v shape fields place known hv hp hs hkind htype hlength hfields ih =>
    refine hparts _ place (.struct hv hp hs hkind htype hlength hfields) fun u hu => ?_
    rw [parts_of_struct heap hv] at hu
    obtain ⟨i, hi⟩ := List.mem_iff_getElem?.mp hu
    have hlt : i < known.members.length := hlength ▸ (List.getElem?_eq_some_iff.mp hi).1
    exact ih i u _ hi (List.getElem?_eq_getElem hlt)
  | @object a shape fields place known ha hp hs hkind htype hlength hfields ih =>
    refine hparts _ place (.object ha hp hs hkind htype hlength hfields) fun u hu => ?_
    rw [parts_ref ha] at hu
    obtain ⟨i, hi⟩ := Array.mem_iff_getElem?.mp (Array.mem_toList_iff.mp hu)
    have hlt : i < known.members.length := hlength ▸ (Array.getElem?_eq_some_iff.mp hi).1
    exact ih i u _ hi (List.getElem?_eq_getElem hlt)
  | @seq a shape items place known family element ha hp hs hkind hfamily hitems ih =>
    refine hparts _ place (.seq ha hp hs hkind hfamily hitems) fun u hu => ?_
    rw [parts_ref ha] at hu
    exact ih u (Array.mem_toList_iff.mp hu)

/-- The parts of a plain value are plain. -/
theorem Plain.exists_of_mem_parts {pool : Pool} {heap : Heap} {v u : Value} {place : ShapeId}
    (h : heap.Plain pool v place) (hu : u ∈ heap.parts v) : ∃ place', heap.Plain pool u place' := by
  have hboth : (∃ place, heap.Plain pool v place) ∧
      ∀ u ∈ heap.parts v, ∃ place', heap.Plain pool u place' :=
    h.parts_induction (motive := fun v => (∃ place, heap.Plain pool v place) ∧
        ∀ u ∈ heap.parts v, ∃ place', heap.Plain pool u place')
      fun v place hv ih => ⟨⟨place, hv⟩, fun u hu => (ih u hu).1⟩
  exact hboth.2 u hu

/-! ## Copies -/

/-- The first value, in one heap, is a copy of the second, in another. It is made of instances from
the bound on. -/
inductive Copied (start heap : Heap) (bound : Nat) : Value → Value → Prop
  | null : Copied start heap bound .null .null
  | primitive {p : Primitive} {w v : Value} (hw : w.bare = v.bare) (hv : v.bare.IsPrimitive p)
    (hnan : ∀ x, v.bare = .float x → x.isNaN = false) : Copied start heap bound w v
  | struct {w v : Value} {shape : ShapeId} {ws vs : List Value} (hw : w.bare = .struct shape ws)
    (hv : v.bare = .struct shape vs) (hlength : ws.length = vs.length)
    (hfields : ∀ (i : Nat) (w v : Value), ws[i]? = some w → vs[i]? = some v →
      Copied start heap bound w v) : Copied start heap bound w v
  | ref {a b : Address} {i : Instance} {ws : Array Value} (hbound : bound ≤ a.index)
    (ha : heap.get? a = some (i.mapContents fun _ => ws)) (hb : start.get? b = some i)
    (hstream : ∀ shape source, i ≠ .stream shape source) (hlength : ws.size = i.contents.size)
    (hcontents : ∀ (k : Nat) (w v : Value), ws[k]? = some w → i.contents[k]? = some v →
      Copied start heap bound w v) : Copied start heap bound (.ref a) (.ref b)

namespace Copied

variable {start heap heap' : Heap} {bound bound' : Nat} {w v : Value}

theorem unboxed (h : start.Copied heap bound w v) : start.Copied heap bound w.unboxed v := by
  cases h with
  | null => exact .null
  | primitive hw hv hnan => exact .primitive (w.bare_unboxed.trans hw) hv hnan
  | struct hw hv hlength hfields => exact .struct (w.bare_unboxed.trans hw) hv hlength hfields
  | ref hbound ha hb hstream hlength hcontents =>
    exact .ref hbound ha hb hstream hlength hcontents

theorem box (h : start.Copied heap bound w v) (h' : Heap) :
    start.Copied heap bound (h'.box w).1 v := by
  cases h with
  | null => exact .null
  | primitive hw hv hnan => exact .primitive ((w.bare_box h').trans hw) hv hnan
  | struct hw hv hlength hfields => exact .struct ((w.bare_box h').trans hw) hv hlength hfields
  | ref hbound ha hb hstream hlength hcontents =>
    exact .ref hbound ha hb hstream hlength hcontents

/-- A copy stays one while its instances stay as they are. -/
theorem mono (hle : bound' ≤ bound)
    (hkept : ∀ a i, bound ≤ a.index → heap.get? a = some i → heap'.get? a = some i)
    (h : start.Copied heap bound w v) : start.Copied heap' bound' w v := by
  induction h with
  | null => exact .null
  | primitive hw hv hnan => exact .primitive hw hv hnan
  | struct hw hv hlength _ ih => exact .struct hw hv hlength ih
  | ref hbound ha hb hstream hlength _ ih =>
    exact .ref (Nat.le_trans hle hbound) (hkept _ _ hbound ha) hb hstream hlength ih

theorem kept (hk : heap.Kept heap') (h : start.Copied heap bound w v) :
    start.Copied heap' bound w v :=
  h.mono (Nat.le_refl _) fun a i _ => hk a i

/-- In a place of a primitive kind, a plain value is a copy of itself. -/
theorem self {pool : Pool} {place below : ShapeId} {known : Descriptor} {p : Primitive}
    (hb : pool.Below place below known) (hkind : known.kind = .primitive p)
    (h : start.Plain pool v place) : start.Copied heap bound v v := by
  have hne {own : ShapeId} {known' : Descriptor} (hp : pool.Takes place own)
      (hs : pool.descriptor own = .ok known') (hkind' : known'.kind ≠ .primitive p) : False := by
    obtain rfl := hp.eq hb (by simp [hkind])
    obtain rfl := Except.ok.inj (hs.symm.trans hb.descriptor)
    exact hkind' hkind
  cases h with
  | null => exact .null
  | primitive hv _ hnan => exact .primitive rfl hv hnan
  | struct _ hp hs hkind' _ _ _ => exact (hne hp hs (by simp [hkind'])).elim
  | object _ hp hs hkind' _ _ _ => exact (hne hp hs (by simp [hkind'])).elim
  | seq _ hp hs hkind' _ _ => exact (hne hp hs (by simp [hkind'])).elim

/-- What a copy refers to is a copy of an instance. -/
theorem exists_of_mentions {a : Address} (h : start.Copied heap bound w v) (ha : w.Mentions a) :
    ∃ b, start.Copied heap bound (.ref a) (.ref b) := by
  induction h with
  | null => cases ha
  | primitive hw hv _ =>
    have ha' := Value.mentions_bare ha
    rw [hw] at ha'
    exact (hv.within (p := fun _ => False) a ha').elim
  | @struct _ _ _ ws vs hw _ hlength _ ih =>
    have ha' := Value.mentions_bare ha
    rw [hw] at ha'
    cases ha' with
    | struct hmem ha' =>
      obtain ⟨i, hi⟩ := List.mem_iff_getElem?.mp hmem
      have hlt : i < vs.length := hlength ▸ (List.getElem?_eq_some_iff.mp hi).1
      exact ih i _ _ hi (List.getElem?_eq_getElem hlt) ha'
  | ref hbound ha' hb hstream hlength hcontents =>
    cases ha
    exact ⟨_, .ref hbound ha' hb hstream hlength hcontents⟩

/-- A copy of an instance has the same shape and as many contents, which are copies. -/
theorem of_ref {a b : Address} (h : start.Copied heap bound (.ref a) (.ref b)) :
    bound ≤ a.index ∧ ∃ (i : Instance) (ws : Array Value),
      heap.get? a = some (i.mapContents fun _ => ws) ∧ start.get? b = some i ∧
      (∀ shape source, i ≠ .stream shape source) ∧ ws.size = i.contents.size ∧
      ∀ (k : Nat) (w v : Value), ws[k]? = some w → i.contents[k]? = some v →
        start.Copied heap bound w v := by
  cases h with
  | primitive _ hv _ => exact hv.isContent.elim
  | struct hw _ _ _ => cases hw
  | ref hbound ha hb hstream hlength hcontents =>
    exact ⟨hbound, _, _, ha, hb, hstream, hlength, hcontents⟩

/-- What a copy reaches is new. -/
theorem le_of_reaches {a : Address} (h : start.Copied heap bound w v) (ha : heap.Reaches w a) :
    bound ≤ a.index := by
  have hcopy : ∃ b, start.Copied heap bound (.ref a) (.ref b) := by
    induction ha with
    | here ha => exact h.exists_of_mentions ha
    | @step a b i u _ hi hu hb ih =>
      obtain ⟨c, hc⟩ := ih
      obtain ⟨-, j, ws, ha', -, hstream, hlength, hcontents⟩ := hc.of_ref
      obtain rfl := Option.some.inj (ha'.symm.trans hi)
      have hparts : (j.mapContents fun _ => ws).parts = ws.toList := by
        cases j with
        | object _ _ | seq _ _ => rfl
        | stream shape source => exact absurd rfl (hstream shape source)
      rw [hparts] at hu
      obtain ⟨k, hk⟩ := Array.mem_iff_getElem?.mp (Array.mem_toList_iff.mp hu)
      have hlt : k < j.contents.size := hlength ▸ (Array.getElem?_eq_some_iff.mp hk).1
      exact (hcontents k u _ hk (Array.getElem?_eq_getElem hlt)).exists_of_mentions hb
  obtain ⟨b, hb⟩ := hcopy
  exact hb.of_ref.1

end Copied

end Heap

end Reshape
