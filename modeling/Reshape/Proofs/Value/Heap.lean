import Reshape.Value.Conversion
import Reshape.Value.Default

/-!
# Heaps and references

What a value refers to (`Value.Mentions`), what can be reached from it (`Heap.Reaches`), and what
the operations on heaps change. To write a member or to append an item changes one instance, and
refers to nothing but what the record and the value referred to before (`Heap.get?_writeMember`,
`Heap.within_writeMember`). Conversions of primitives and boxes change no instance at all.
-/

namespace Reshape

/-! ## References -/

/-- The reference stands in the value itself, in a field of a struct or in a box. -/
inductive Value.Mentions : Value → Address → Prop
  | ref (a : Address) : Mentions (.ref a) a
  | boxed {token : Token} {content : Value} {a : Address} (h : Mentions content a) :
    Mentions (.boxed token content) a
  | struct {shape : ShapeId} {fields : List Value} {v : Value} {a : Address} (hv : v ∈ fields)
    (h : Mentions v a) : Mentions (.struct shape fields) a

/-- All that the value refers to satisfies `p`. -/
def Value.Within (p : Address → Prop) (v : Value) : Prop :=
  ∀ a, v.Mentions a → p a

/-- The values that an instance holds. A stream holds the sequence that it reads. -/
def Instance.parts : Instance → List Value
  | .object _ fields => fields.toList
  | .seq _ items => items.toList
  | .stream _ (.items items) => items
  | .stream _ (.sequence a) => [.ref a]

/-- The instance can be reached from the value. -/
inductive Heap.Reaches (heap : Heap) (v : Value) : Address → Prop
  | here {a : Address} (h : v.Mentions a) : Reaches heap v a
  | step {a b : Address} {i : Instance} {w : Value} (h : Reaches heap v a)
    (hi : heap.get? a = some i) (hw : w ∈ i.parts) (hb : w.Mentions b) : Reaches heap v b

namespace Value.Within

variable {p : Address → Prop}

theorem null : Value.Within p .null := by
  rintro a (_ | _ | _)

theorem ref {a : Address} : Value.Within p (.ref a) ↔ p a := by
  constructor
  · exact fun h => h a (.ref a)
  · rintro h _ ⟨⟩
    exact h

theorem boxed {token : Token} {content : Value} :
    Value.Within p (.boxed token content) ↔ content.Within p := by
  constructor
  · exact fun h a ha => h a (.boxed ha)
  · rintro h a (_ | ha | _)
    exact h a ha

theorem struct {shape : ShapeId} {fields : List Value} :
    Value.Within p (.struct shape fields) ↔ ∀ v ∈ fields, v.Within p := by
  constructor
  · exact fun h v hv a ha => h a (.struct hv ha)
  · rintro h a (_ | _ | ⟨hv, ha⟩)
    exact h _ hv a ha

theorem imp {q : Address → Prop} {v : Value} (h : v.Within p) (hpq : ∀ a, p a → q a) :
    v.Within q :=
  fun a ha => hpq a (h a ha)

theorem unboxed {v : Value} (h : v.Within p) : v.unboxed.Within p := by
  cases v with
  | boxed token content => exact boxed.mp h
  | _ => exact h

/-- A value that is a reference, but for boxes, refers to that one instance. -/
theorem iff_of_bare {a : Address} : ∀ {v : Value}, v.bare = .ref a → (v.Within p ↔ p a)
  | .ref _, h => by
    obtain rfl := Value.ref.inj h
    exact ref
  | .boxed _ content, h => boxed.trans (iff_of_bare (v := content) h)

end Value.Within

/-- What is closed under references holds what can be reached from what it holds. -/
theorem Heap.Reaches.within {heap : Heap} {p : Address → Prop} {v : Value} {a : Address}
    (h : heap.Reaches v a)
    (hp : ∀ b i, p b → heap.get? b = some i → ∀ w ∈ i.parts, w.Within p) (hv : v.Within p) :
    p a := by
  induction h with
  | here ha => exact hv _ ha
  | step _ hi hw hb ih => exact hp _ _ ih hi _ hw _ hb

/-- What can be reached from what a value leads to can be reached from the value. -/
theorem Heap.Reaches.of_within {heap : Heap} {v w : Value} {a : Address}
    (hw : w.Within (heap.Reaches v)) (h : heap.Reaches w a) : heap.Reaches v a :=
  h.within (fun _ _ hb hi _ hu _ hc => .step hb hi hu hc) hw

/-- Nothing can be reached from a value that refers to nothing. -/
theorem Heap.not_reaches {heap : Heap} {v : Value} (hv : v.Within fun _ => False) (a : Address) :
    ¬ heap.Reaches v a :=
  fun h => h.within (fun _ _ hb => hb.elim) hv

/-- The value is a primitive of the kind, and no box around one. -/
def Value.IsPrimitive : Primitive → Value → Prop
  | .bool, .bool _ | .int, .int _ | .float, .float _ | .char, .char _ | .str, .str _ _ => True
  | _, _ => False

/-- A primitive or a struct, which a box may be around. -/
def Value.IsContent : Value → Prop
  | .null | .boxed _ _ | .ref _ => False
  | _ => True

theorem Value.IsPrimitive.isContent {kind : Primitive} {v : Value} (h : v.IsPrimitive kind) :
    v.IsContent := by
  cases v <;> first | trivial | (cases kind <;> exact h.elim)

theorem Value.IsPrimitive.within {p : Address → Prop} {kind : Primitive} {v : Value}
    (h : v.IsPrimitive kind) : v.Within p := by
  rintro a ha
  cases ha <;> cases kind <;> exact h.elim

theorem Value.isPrimitive_of_convertInline? {v w : Value} {p : Primitive}
    (h : v.convertInline? p = some w) : w.IsPrimitive p := by
  unfold Value.convertInline? at h
  split at h <;> simp only [Option.some.injEq, Option.map_eq_some_iff, reduceCtorEq] at h <;>
    first
      | (subst h; trivial)
      | (obtain ⟨_, -, rfl⟩ := h; trivial)

/-- Parts of a changed instance are parts of it as it was, or the new value. -/
theorem Instance.within_parts_mapContents {p : Address → Prop} {f : Array Value → Array Value}
    {i : Instance} (hf : ∀ contents : Array Value, (∀ w ∈ contents, w.Within p) →
      ∀ w ∈ f contents, w.Within p) (h : ∀ w ∈ i.parts, w.Within p) :
    ∀ w ∈ (i.mapContents f).parts, w.Within p := by
  cases i with
  | stream _ _ => exact h
  | object _ fields | seq _ fields =>
    intro w hw
    refine hf fields (fun w hw => h w (Array.mem_toList_iff.mpr hw)) w ?_
    exact Array.mem_toList_iff.mp hw

theorem Value.bare_box (v : Value) (heap : Heap) : (heap.box v).1.bare = v.bare := by
  unfold Heap.box
  split <;> rfl

namespace Heap

/-! ## What does not change instances -/

/-- A conversion leads to null or to a primitive of the kind, and makes no instance. -/
theorem convert_spec (v : Value) (p : Primitive) (heap : Heap) :
    (∃ n, (heap.convert v p).2 = { heap with tokens := n }) ∧
      ∀ w, (heap.convert v p).1 = .ok w → w = .null ∨ w.IsPrimitive p := by
  unfold convert
  split
  · exact ⟨⟨heap.tokens, rfl⟩, fun w hw => Or.inl (Except.ok.inj hw).symm⟩
  · exact ⟨⟨heap.tokens, rfl⟩, fun w hw => Or.inr (Except.ok.inj hw ▸ trivial)⟩
  · split
    · exact ⟨⟨heap.tokens + 1, rfl⟩, fun w hw => Or.inr (Except.ok.inj hw ▸ trivial)⟩
    · exact ⟨⟨heap.tokens, rfl⟩, fun w hw => nomatch hw⟩
  · split
    · rename_i w hw
      exact ⟨⟨heap.tokens, rfl⟩, fun w' hw' =>
        Or.inr (Except.ok.inj hw' ▸ Value.isPrimitive_of_convertInline? hw)⟩
    · exact ⟨⟨heap.tokens, rfl⟩, fun w hw => nomatch hw⟩

/-- A box is a token and nothing else. -/
theorem exists_tokens_box (v : Value) (heap : Heap) :
    ∃ n, (heap.box v).2 = { heap with tokens := n } := by
  unfold box
  split
  · exact ⟨heap.tokens + 1, rfl⟩
  · exact ⟨heap.tokens, rfl⟩

theorem within_box {p : Address → Prop} {v : Value} (h : v.Within p) (heap : Heap) :
    (heap.box v).1.Within p := by
  unfold box
  split
  · exact Value.Within.boxed.mpr h
  · exact h

/-! ## What a reference shows -/

theorem shape?_unboxed (heap : Heap) (v : Value) : heap.shape? v.unboxed = heap.shape? v := by
  cases v <;> rfl

theorem member?_unboxed (heap : Heap) (v : Value) (i : Nat) :
    heap.member? v.unboxed i = heap.member? v i := by
  cases v <;> rfl

theorem shape?_bare (heap : Heap) : ∀ v : Value, heap.shape? v.bare = heap.shape? v
  | .boxed _ content => shape?_bare heap content
  | .null | .bool _ | .int _ | .float _ | .char _ | .str _ _ | .struct _ _ | .ref _ => rfl

theorem member?_bare (heap : Heap) (i : Nat) :
    ∀ v : Value, heap.member? v.bare i = heap.member? v i
  | .boxed _ content => member?_bare heap i content
  | .null | .bool _ | .int _ | .float _ | .char _ | .str _ _ | .struct _ _ | .ref _ => rfl

theorem elements?_ref (heap : Heap) (a : Address) : heap.elements? (.ref a) =
    match heap.get? a with
    | some (.seq _ items) => some items.toList
    | some (.stream _ source) => some (heap.streamItems source)
    | _ => none :=
  rfl

theorem member?_ref (heap : Heap) (a : Address) (i : Nat) : heap.member? (.ref a) i =
    match heap.get? a with
    | some (.object _ fields) => fields[i]?
    | _ => none := by
  have hobject : heap.member? (.ref a) i = (heap.object? (.ref a)).bind fun o => o.2[i]? := by
    rw [member?] <;> simp
  rw [hobject, object?, instance?]
  rcases heap.get? a with _ | ⟨_ | _ | _⟩ <;> rfl

/-- The items of a sequence that a stream reads. -/
theorem streamItems_sequence (heap : Heap) (a : Address) : heap.streamItems (.sequence a) =
    match heap.get? a with
    | some (.seq _ items) => items.toList
    | _ => [] := by
  rw [streamItems, seq?, instance?]
  rcases heap.get? a with _ | ⟨_ | _ | _⟩ <;> rfl

variable {heap : Heap} {p : Address → Prop}

theorem within_streamItems {a : Address} (ha : p a)
    (hp : ∀ a i, p a → heap.get? a = some i → ∀ w ∈ i.parts, w.Within p) :
    ∀ e ∈ heap.streamItems (.sequence a), e.Within p := by
  rw [streamItems_sequence]
  cases hi : heap.get? a with
  | none => exact fun _ he => nomatch he
  | some i =>
    cases i with
    | seq _ items => exact hp a _ ha hi
    | object _ _ | stream _ _ => exact fun _ he => nomatch he

/-- The elements of a value are parts of the instance that it refers to, or of the sequence that a
stream reads. -/
theorem within_elements {v : Value} {es : List Value} (hv : v.Within p)
    (hp : ∀ a i, p a → heap.get? a = some i → ∀ w ∈ i.parts, w.Within p)
    (hes : heap.elements? v = some es) : ∀ e ∈ es, e.Within p := by
  obtain ⟨a, rfl⟩ : ∃ a, v = .ref a := by
    cases v <;> first | exact ⟨_, rfl⟩ | cases hes
  rw [elements?_ref] at hes
  cases hi : heap.get? a with
  | none => simp [hi] at hes
  | some i =>
    rw [hi] at hes
    have hparts := hp a i (Value.Within.ref.mp hv) hi
    cases i with
    | object _ _ => cases hes
    | seq _ items =>
      obtain rfl := Option.some.inj hes
      exact hparts
    | stream _ source =>
      obtain rfl := Option.some.inj hes
      cases source with
      | items items => exact hparts
      | sequence b =>
        exact within_streamItems (Value.Within.ref.mp (hparts _ (List.mem_singleton_self _))) hp

/-- The elements of a value are those of another heap that has the same instances in a closed
set. -/
theorem elements?_eq_of_within {heap' : Heap} {v : Value} (hv : v.Within p)
    (hp : ∀ a i, p a → heap.get? a = some i → ∀ w ∈ i.parts, w.Within p)
    (hget : ∀ a, p a → heap'.get? a = heap.get? a) : heap'.elements? v = heap.elements? v := by
  cases v with
  | ref a =>
    have ha : p a := Value.Within.ref.mp hv
    rw [elements?_ref, elements?_ref, hget a ha]
    rcases hi : heap.get? a with _ | ⟨_ | _ | ⟨shape, _ | b⟩⟩
    case some.stream.sequence =>
      have hb : p b := Value.Within.ref.mp (hp a _ ha hi _ (List.mem_singleton_self _))
      dsimp only
      rw [streamItems_sequence, streamItems_sequence, hget b hb]
    all_goals rfl
  | _ => rfl

/-- A member of an object is among its parts. -/
theorem within_member_ref {a : Address} {i : Nat}
    (hp : ∀ j, heap.get? a = some j → ∀ w ∈ j.parts, w.Within p) :
    ((heap.member? (.ref a) i).getD .null).Within p := by
  rw [member?_ref]
  cases ha : heap.get? a with
  | none => exact .null
  | some record =>
    cases record with
    | seq _ _ | stream _ _ => exact .null
    | object _ fields =>
      dsimp only
      cases hf : fields[i]? with
      | none => exact .null
      | some w => exact hp _ ha w (Array.mem_toList_iff.mpr (Array.mem_of_getElem? hf))

/-- So is a member of a record. -/
theorem within_member {i : Nat}
    (hp : ∀ a i, p a → heap.get? a = some i → ∀ w ∈ i.parts, w.Within p) :
    ∀ {v : Value}, v.Within p → ((heap.member? v i).getD .null).Within p
  | .struct _ fields, h => by
    rw [member?]
    cases hi : fields[i]? with
    | none => exact .null
    | some w => exact Value.Within.struct.mp h w (List.mem_of_getElem? hi)
  | .boxed _ content, h => within_member hp (v := content) (Value.Within.boxed.mp h)
  | .ref a, h => within_member_ref fun j => hp a j (Value.Within.ref.mp h)
  | .null, _ | .bool _, _ | .int _, _ | .float _, _ | .char _, _ | .str _ _, _ => .null

/-- And a member of a reference, boxed or not. -/
theorem within_member_of_bare {a : Address} {i : Nat}
    (hp : ∀ j, heap.get? a = some j → ∀ w ∈ j.parts, w.Within p) :
    ∀ {v : Value}, v.bare = .ref a → ((heap.member? v i).getD .null).Within p
  | .boxed _ content, h => within_member_of_bare hp (v := content) h
  | .ref b, h => by
    obtain rfl := Value.ref.inj h
    exact within_member_ref hp

/-- What is shown of a value depends on the one instance that it is a reference to. -/
theorem shape?_and_member?_eq {heap' : Heap} : ∀ {v : Value},
    (∀ a, v.bare = .ref a → heap.get? a = heap'.get? a) →
      heap.shape? v = heap'.shape? v ∧ ∀ i, heap.member? v i = heap'.member? v i
  | .boxed _ content, h => shape?_and_member?_eq (v := content) h
  | .ref a, h => by
    have ha := h a rfl
    exact ⟨by rw [shape?, shape?, ha], fun i => by rw [member?_ref, member?_ref, ha]⟩
  | .null, _ | .bool _, _ | .int _, _ | .float _, _ | .char _, _ | .str _ _, _
  | .struct _ _, _ => ⟨rfl, fun _ => rfl⟩

theorem member?_box (v : Value) (heap : Heap) (i : Nat) :
    (heap.box v).2.member? (heap.box v).1 i = heap.member? v i := by
  rw [← member?_bare, Value.bare_box, member?_bare]
  exact (shape?_and_member?_eq fun a _ => congrFun (get?_box v heap) a).2 i

/-! ## What changes one instance -/

theorem of_getElem?_set {fields : List Value} {i j : Nat} {v w : Value}
    (h : (fields.set i v)[j]? = some w) : i = j ∧ w = v ∨ fields[j]? = some w := by
  rw [List.getElem?_set] at h
  split at h
  · rename_i hij
    split at h
    · exact Or.inl ⟨hij, (Option.some.inj h).symm⟩
    · cases h
  · exact Or.inr h

theorem of_getElem?_setIfInBounds {fields : Array Value} {i j : Nat} {v w : Value}
    (h : (fields.setIfInBounds i v)[j]? = some w) : i = j ∧ w = v ∨ fields[j]? = some w := by
  rw [Array.getElem?_setIfInBounds] at h
  split at h
  · rename_i hij
    split at h
    · exact Or.inl ⟨hij, (Option.some.inj h).symm⟩
    · cases h
  · exact Or.inr h

theorem get?_eq_none_iff {a : Address} : heap.get? a = none ↔ heap.size ≤ a.index :=
  Array.getElem?_eq_none_iff

theorem lt_size_of_get? {a : Address} {i : Instance} (h : heap.get? a = some i) :
    a.index < heap.size :=
  (Array.getElem?_eq_some_iff.mp h).1

theorem get?_alloc_of_get? {new i : Instance} {a : Address} (h : heap.get? a = some i) :
    (heap.alloc new).2.get? a = some i := by
  rw [get?_alloc, if_neg (Nat.ne_of_lt (lt_size_of_get? h)), h]

theorem get?_size (heap : Heap) : heap.get? ⟨heap.size⟩ = none :=
  get?_eq_none_iff.mpr (Nat.le_refl _)

theorem get?_alloc_size (heap : Heap) (new : Instance) :
    (heap.alloc new).2.get? ⟨heap.size⟩ = some new := by
  rw [get?_alloc, if_pos rfl]

section

variable {start : Heap}
  (h : ∀ a i, start.get? a = some i → (heap.get? a).map Instance.shape = some i.shape)

include h

/-- Where no instance is taken away, there are no fewer. -/
theorem size_le_of_shapes : start.size ≤ heap.size := by
  rcases Nat.eq_zero_or_pos start.size with hzero | hpos
  · omega
  · have hlt : start.size - 1 < start.instances.size := Nat.sub_lt hpos Nat.one_pos
    obtain ⟨i, hlast, -⟩ :=
      Option.map_eq_some_iff.mp (h ⟨start.size - 1⟩ _ (Array.getElem?_eq_getElem hlt))
    have := lt_size_of_get? hlast
    dsimp only at this
    omega

/-- Where instances keep their shapes, so do values. -/
theorem shape?_eq_of_shapes {own : ShapeId} : ∀ {v : Value},
    start.shape? v = some own → heap.shape? v = some own
  | .boxed _ content, hv => shape?_eq_of_shapes (v := content) hv
  | .ref a, hv => by
    obtain ⟨i, hi, rfl⟩ := Option.map_eq_some_iff.mp hv
    exact h a i hi
  | .null, hv | .bool _, hv | .int _, hv | .float _, hv | .char _, hv | .str _ _, hv
  | .struct _ _, hv => hv

end

/-- The second heap holds the instances of the first as they are. -/
def Kept (start heap : Heap) : Prop :=
  ∀ a i, start.get? a = some i → heap.get? a = some i

namespace Kept

variable {start heap' : Heap}

theorem refl (heap : Heap) : heap.Kept heap :=
  fun _ _ h => h

theorem trans (h : start.Kept heap) (h' : heap.Kept heap') : start.Kept heap' :=
  fun a i hi => h' a i (h a i hi)

theorem alloc (heap : Heap) (new : Instance) : heap.Kept (heap.alloc new).2 :=
  fun _ _ hi => get?_alloc_of_get? hi

theorem box (heap : Heap) (v : Value) : heap.Kept (heap.box v).2 := by
  intro a i hi
  rw [get?_box]
  exact hi

theorem shapes (h : start.Kept heap) :
    ∀ a i, start.get? a = some i → (heap.get? a).map Instance.shape = some i.shape :=
  fun a i hi => congrArg (Option.map _) (h a i hi)

theorem size_le (h : start.Kept heap) : start.size ≤ heap.size :=
  size_le_of_shapes h.shapes

/-- From a value of the first heap, no more can be reached in the second than before. -/
theorem reaches (h : start.Kept heap) {v : Value} {a : Address}
    (hv : ∀ b, start.Reaches v b → ∃ i, start.get? b = some i) (ha : heap.Reaches v a) :
    start.Reaches v a := by
  refine ha.within (fun b i hb hi w hw c hc => ?_) fun b hb => .here hb
  obtain ⟨i', hi'⟩ := hv b hb
  cases (h b i' hi').symm.trans hi
  exact .step hb hi' hw hc

/-- A value keeps the shape that it has. -/
theorem shape?_eq (h : start.Kept heap) {own : ShapeId} {v : Value}
    (hv : start.shape? v = some own) : heap.shape? v = some own :=
  shape?_eq_of_shapes h.shapes hv

/-- A change of an instance that was not there at the start. -/
theorem of_eq_or {a : Address} (h : start.Kept heap) (ha : start.get? a = none)
    (hget : ∀ b, b ≠ a → heap'.get? b = heap.get? b) : start.Kept heap' := by
  intro b i hb
  have hne : b ≠ a := by
    rintro rfl
    exact nomatch ha.symm.trans hb
  rw [hget b hne]
  exact h b i hb

end Kept

/-- Everything but the one instance stays as it is. That one is an object, and the member is
written. -/
theorem get?_writeMember (i : Nat) (v : Value) (heap : Heap) (b : Address) :
    ∀ record : Value, (heap.writeMember record i v).2.get? b = heap.get? b ∨
      record.bare = .ref b ∧ ∃ shape fields, heap.get? b = some (.object shape fields) ∧
        (heap.writeMember record i v).2.get? b =
          some (.object shape (fields.setIfInBounds i v))
  | .null | .bool _ | .int _ | .float _ | .char _ | .str _ _ | .struct _ _ => Or.inl rfl
  | .boxed _ content => get?_writeMember i v heap b content
  | .ref a => by
    unfold writeMember
    cases ha : heap.get? a with
    | none => exact Or.inl rfl
    | some instance' =>
      cases instance' with
      | seq _ _ | stream _ _ => exact Or.inl rfl
      | object shape fields =>
        by_cases hab : a = b
        · subst hab
          refine Or.inr ⟨rfl, shape, fields, ha, ?_⟩
          change (heap.modifyContents a _).get? a = _
          rw [get?_modifyContents, if_pos rfl, ha]
          rfl
        · refine Or.inl ?_
          change (heap.modifyContents a _).get? b = _
          rw [get?_modifyContents, if_neg hab]

/-- A reference is the same after a member is written. -/
theorem fst_writeMember_ref (a : Address) (i : Nat) (v : Value) (heap : Heap) :
    (heap.writeMember (.ref a) i v).1 = .ref a := by
  unfold writeMember
  split <;> rfl

/-- To write a member changes no sequence. -/
theorem get?_writeMember_of_seq {record v : Value} {i : Nat} {a : Address} {own : ShapeId}
    {items : Array Value} {heap : Heap} (ha : heap.get? a = some (.seq own items)) :
    (heap.writeMember record i v).2.get? a = some (.seq own items) := by
  rcases get?_writeMember i v heap a record with heq | ⟨-, _, _, hobject, -⟩
  · exact heq.trans ha
  · cases hobject.symm.trans ha

theorem size_writeMember (i : Nat) (v : Value) (heap : Heap) :
    ∀ record : Value, (heap.writeMember record i v).2.size = heap.size
  | .null | .bool _ | .int _ | .float _ | .char _ | .str _ _ | .struct _ _ => rfl
  | .boxed _ content => size_writeMember i v heap content
  | .ref a => by
    unfold writeMember
    split
    · exact size_modifyContents ..
    · rfl

/-- Nothing is referred to but what was referred to before. -/
theorem within_writeMember {i : Nat} {v : Value} {heap : Heap}
    (hv : v.Within p) : ∀ {record : Value}, record.Within p →
      (heap.writeMember record i v).1.Within p
  | .null, h | .bool _, h | .int _, h | .float _, h | .char _, h | .str _ _, h => h
  | .struct shape fields, h => by
    refine Value.Within.struct.mpr fun w hw => ?_
    rcases List.mem_or_eq_of_mem_set hw with hw | rfl
    · exact Value.Within.struct.mp h w hw
    · exact hv
  | .boxed _ content, h => Value.Within.boxed.mpr (within_writeMember hv (Value.Within.boxed.mp h))
  | .ref a, h => by
    unfold writeMember
    split <;> exact h

/-- The record stays the reference that it is, or none. -/
theorem bare_writeMember {i : Nat} {v : Value} {heap : Heap} {a : Address} : ∀ {record : Value},
    (heap.writeMember record i v).1.bare = .ref a → record.bare = .ref a
  | .null, h | .bool _, h | .int _, h | .float _, h | .char _, h | .str _ _, h | .struct _ _, h =>
    nomatch h
  | .boxed _ content, h => @bare_writeMember i v heap a content h
  | .ref b, h => by
    unfold writeMember at h
    split at h <;> exact h

/-- An object is changed where it is. -/
theorem writeMember_object {a : Address} {shape : ShapeId} {fields : Array Value} {heap : Heap}
    (ha : heap.get? a = some (.object shape fields)) (i : Nat) (v : Value) :
    heap.writeMember (.ref a) i v = (.ref a, heap.replace a i v) := by
  rw [writeMember, ha]

theorem get?_replace (a : Address) (i : Nat) (v : Value) (heap : Heap) (b : Address) :
    (heap.replace a i v).get? b =
      if a = b then (heap.get? b).map (Instance.mapContents (·.setIfInBounds i v))
      else heap.get? b :=
  get?_modifyContents a _ heap b

/-- The other members stay as they are. -/
theorem member?_writeMember_of_ne {i j : Nat} (hij : i ≠ j) (v : Value) (heap : Heap) :
    ∀ record : Value, (heap.writeMember record i v).2.member? (heap.writeMember record i v).1 j =
      heap.member? record j
  | .null | .bool _ | .int _ | .float _ | .char _ | .str _ _ => rfl
  | .struct shape fields => by
    change (fields.set i v)[j]? = fields[j]?
    rw [List.getElem?_set_ne hij]
  | .boxed _ content => by
    refine Eq.trans ?_ (member?_writeMember_of_ne hij v heap content)
    let written := heap.writeMember content i v
    let next : Heap := { written.2 with tokens := written.2.tokens + 1 }
    have hget : ∀ a, written.1.bare = .ref a → next.get? a = written.2.get? a := fun _ _ => rfl
    exact (shape?_and_member?_eq hget).2 j
  | .ref a => by
    have hb := get?_writeMember i v heap a (.ref a)
    rw [fst_writeMember_ref, member?_ref, member?_ref]
    rcases hb with hb | ⟨-, shape, fields, ha, hb⟩
    · rw [hb]
    · rw [hb, ha]
      exact Array.getElem?_setIfInBounds_ne hij

/-- A member that is there holds what is written to it. -/
theorem member?_writeMember_self {i : Nat} (v : Value) (heap : Heap) : ∀ record : Value,
    (heap.member? record i).isSome = true →
      (heap.writeMember record i v).2.member? (heap.writeMember record i v).1 i = some v
  | .null, h | .bool _, h | .int _, h | .float _, h | .char _, h | .str _ _, h => nomatch h
  | .struct shape fields, h => by
    change (fields.set i v)[i]? = some v
    change (fields[i]?).isSome = true at h
    exact List.getElem?_set_self (by simpa using h)
  | .boxed _ content, h => by
    refine Eq.trans ?_ (member?_writeMember_self v heap content h)
    let written := heap.writeMember content i v
    let next : Heap := { written.2 with tokens := written.2.tokens + 1 }
    have hget : ∀ a, written.1.bare = .ref a → next.get? a = written.2.get? a := fun _ _ => rfl
    exact (shape?_and_member?_eq hget).2 i
  | .ref a, h => by
    obtain ⟨shape, fields, ha, hi⟩ : ∃ shape fields, heap.get? a = some (.object shape fields) ∧
        (fields[i]?).isSome = true := by
      rw [member?_ref] at h
      cases ha : heap.get? a with
      | none => simp [ha] at h
      | some found =>
        cases found with
        | object shape fields => exact ⟨shape, fields, rfl, by simpa [ha] using h⟩
        | seq _ _ | stream _ _ => simp [ha] at h
    have hget : (heap.replace a i v).get? a = some (.object shape (fields.setIfInBounds i v)) := by
      rw [get?_replace, if_pos rfl, ha]
      rfl
    rw [writeMember_object ha, member?_ref, hget]
    exact Array.getElem?_setIfInBounds_self_of_lt (by simpa using hi)

theorem get?_push (a : Address) (v : Value) (heap : Heap) (b : Address) :
    (heap.push a v).get? b =
      if a = b then (heap.get? b).map (Instance.mapContents (·.push v)) else heap.get? b :=
  get?_modifyContents a _ heap b

end Heap

end Reshape
