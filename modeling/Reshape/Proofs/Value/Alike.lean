import Reshape.Proofs.Depth
import Reshape.Proofs.Value.Plain
import Reshape.Value.Equality

/-!
# Values that hold the same

`Heap.Resembles` says that a value in one heap holds what a value in another one holds, down to the
last primitive, where some references may be taken for what they are to lead to. Within one heap,
and with nothing taken for granted, the values are alike (`Heap.Alike`). That is an equivalence on
plain values, and the same as to be equal (`Heap.Alike.equal`, `Heap.Plain.alike_of_equal`).

A copy resembles what it is a copy of, and so is equal to it (`Heap.Copied.equal`).
-/

set_option linter.unusedSectionVars false

namespace Reshape

/-! ## Primitives and instances -/

/-- Two primitives of one kind that are equal, which NaN is to nothing. -/
inductive Value.Agrees : Value → Value → Prop
  | bool (b : Bool) : Agrees (.bool b) (.bool b)
  | int (n : Int64) : Agrees (.int n) (.int n)
  | float {x y : Binary64} (h : x.agrees y = true) : Agrees (.float x) (.float y)
  | char (c : Char) : Agrees (.char c) (.char c)
  | str (token token' : Token) (text : String) : Agrees (.str token text) (.str token' text)

namespace Value.Agrees

variable {u v w : Value}

theorem symm (h : v.Agrees w) : w.Agrees v := by
  cases h with
  | bool b => exact .bool b
  | int n => exact .int n
  | float h => exact .float ((Binary64.agrees_comm _ _).trans h)
  | char c => exact .char c
  | str token token' text => exact .str token' token text

theorem trans (h : u.Agrees v) (h' : v.Agrees w) : u.Agrees w := by
  cases h with
  | float h =>
    cases h' with
    | float h' => exact .float (Binary64.agrees_trans h h')
  | str token _ text =>
    cases h' with
    | str _ token' _ => exact .str token token' text
  | bool _ | int _ | char _ => exact h'

theorem exists_isPrimitive (h : v.Agrees w) : ∃ p, v.IsPrimitive p ∧ w.IsPrimitive p := by
  cases h with
  | bool _ => exact ⟨.bool, trivial, trivial⟩
  | int _ => exact ⟨.int, trivial, trivial⟩
  | float _ => exact ⟨.float, trivial, trivial⟩
  | char _ => exact ⟨.char, trivial, trivial⟩
  | str _ _ _ => exact ⟨.str, trivial, trivial⟩

theorem equalWith (h : v.Agrees w) (ref : Address → Address → Bool) :
    v.equalWith ref w = true := by
  cases h with
  | float h => exact h
  | bool _ | int _ | char _ | str _ _ _ => exact beq_self_eq_true _

/-- A primitive other than NaN agrees with itself. -/
theorem refl {p : Primitive} (h : v.IsPrimitive p) (hnan : ∀ x, v = .float x → x.isNaN = false) :
    v.Agrees v := by
  cases v with
  | bool b => exact .bool b
  | int n => exact .int n
  | float x => exact .float (Binary64.agrees_self_iff.mpr (hnan x rfl))
  | char c => exact .char c
  | str token text => exact .str token token text
  | struct _ _ => cases p <;> exact h.elim
  | null | boxed _ _ | ref _ => exact h.isContent.elim

end Value.Agrees

/-! ## What is equal to a value -/

namespace Value

section

variable (ref : Address → Address → Bool)

/-- Boxes make no difference to equality. -/
theorem equalWith_bare (v : Value) : ∀ w : Value, w.equalWith ref v = w.bare.equalWith ref v.bare
  | .boxed _ content => equalWith_bare v content
  | .null | .bool _ | .int _ | .float _ | .char _ | .str _ _ | .struct _ _ | .ref _ => by
    simp only [bare, equalWith, bare_bare]

theorem allEqualWith_of_getElem? {ws vs : List Value} (hlength : ws.length = vs.length)
    (h : ∀ (i : Nat) (w v : Value), ws[i]? = some w → vs[i]? = some v → w.equalWith ref v = true) :
    allEqualWith ref ws vs = true := by
  induction ws generalizing vs with
  | nil =>
    obtain rfl := List.length_eq_zero_iff.mp hlength.symm
    rfl
  | cons w ws ih =>
    cases vs with
    | nil => cases hlength
    | cons v vs =>
      refine Bool.and_eq_true_iff.mpr ⟨h 0 w v rfl rfl, ih (Nat.succ.inj hlength) fun i w v => ?_⟩
      exact h (i + 1) w v

end

variable {ref : Address → Address → Bool}

/-- Boxes around the second value make no difference either. -/
theorem equalWith_bare_right (ref : Address → Address → Bool) (w v : Value) :
    w.equalWith ref v.bare = w.equalWith ref v := by
  rw [equalWith_bare ref v w, equalWith_bare ref v.bare w, bare_bare]

theorem bare_of_equalWith_null : ∀ {w : Value}, w.equalWith ref .null = true → w.bare = .null
  | .null, _ => rfl
  | .boxed _ content, h => bare_of_equalWith_null (w := content) h
  | .bool _, h | .int _, h | .float _, h | .char _, h | .str _ _, h | .struct _ _, h | .ref _, h =>
    absurd h Bool.false_ne_true

/-- What is equal to a primitive agrees with it. -/
theorem agrees_of_equalWith {p : Primitive} {v : Value} (hv : v.IsPrimitive p) :
    ∀ {w : Value}, w.equalWith ref v = true → w.bare.Agrees v
  | .boxed _ content, h => agrees_of_equalWith hv (w := content) h
  | .null, h | .bool _, h | .int _, h | .float _, h | .char _, h | .str _ _, h | .struct _ _, h
  | .ref _, h => by
    cases v <;> first
      | exact hv.isContent.elim
      | exact absurd h Bool.false_ne_true
      | exact .float h
      | (obtain rfl := eq_of_beq h; constructor)
      | (cases p <;> exact hv.elim)

theorem bare_of_equalWith_struct {shape : ShapeId} {vs : List Value} : ∀ {w : Value},
    w.equalWith ref (.struct shape vs) = true → ∃ ws, w.bare = .struct shape ws ∧
      ws.length = vs.length ∧ allEqualWith ref ws vs = true
  | .struct _ ws, h => by
    obtain ⟨hhead, hall⟩ := Bool.and_eq_true_iff.mp h
    obtain ⟨hshape, hlength⟩ := Bool.and_eq_true_iff.mp hhead
    exact ⟨ws, eq_of_beq hshape ▸ rfl, eq_of_beq hlength, hall⟩
  | .boxed _ content, h => bare_of_equalWith_struct (w := content) h
  | .null, h | .bool _, h | .int _, h | .float _, h | .char _, h | .str _ _, h | .ref _, h =>
    absurd h Bool.false_ne_true

theorem bare_of_equalWith_ref {b : Address} : ∀ {w : Value},
    w.equalWith ref (.ref b) = true → ∃ a, w.bare = .ref a ∧ ref a b = true
  | .ref a, h => ⟨a, rfl, h⟩
  | .boxed _ content, h => bare_of_equalWith_ref (w := content) h
  | .null, h | .bool _, h | .int _, h | .float _, h | .char _, h | .str _ _, h | .struct _ _, h =>
    absurd h Bool.false_ne_true

theorem equalWith_of_allEqualWith {ws vs : List Value} (h : allEqualWith ref ws vs = true) {i : Nat}
    {w v : Value} (hw : ws[i]? = some w) (hv : vs[i]? = some v) : w.equalWith ref v = true := by
  induction ws generalizing vs i with
  | nil => cases hw
  | cons w' ws ih =>
    cases vs with
    | nil => cases hv
    | cons v' vs =>
      obtain ⟨hhead, htail⟩ := Bool.and_eq_true_iff.mp h
      cases i with
      | zero =>
        cases hw
        cases hv
        exact hhead
      | succ i => exact ih htail hw hv

end Value

/-- Two objects, or two sequences, of one shape with as many contents. -/
inductive Instance.Parallel : Instance → Instance → Prop
  | object (shape : ShapeId) {vs ws : Array Value} (h : vs.size = ws.size) :
    Parallel (.object shape vs) (.object shape ws)
  | seq (shape : ShapeId) {vs ws : Array Value} (h : vs.size = ws.size) :
    Parallel (.seq shape vs) (.seq shape ws)

namespace Instance.Parallel

variable {i j k : Instance}

theorem symm (h : i.Parallel j) : j.Parallel i := by
  cases h with
  | object shape h => exact .object shape h.symm
  | seq shape h => exact .seq shape h.symm

theorem trans (h : i.Parallel j) (h' : j.Parallel k) : i.Parallel k := by
  cases h with
  | object shape h =>
    cases h' with
    | object _ h' => exact .object shape (h.trans h')
  | seq shape h =>
    cases h' with
    | seq _ h' => exact .seq shape (h.trans h')

theorem size_eq (h : i.Parallel j) : i.contents.size = j.contents.size := by
  cases h with
  | object _ h | seq _ h => exact h

theorem parts_eq (h : i.Parallel j) : i.parts = i.contents.toList := by
  cases h <;> rfl

/-- What stands at the same place on the other side. -/
theorem exists_content (h : i.Parallel j) {n : Nat} {v : Value} (hv : j.contents[n]? = some v) :
    ∃ w, i.contents[n]? = some w :=
  ⟨_, Array.getElem?_eq_getElem (h.size_eq ▸ (Array.getElem?_eq_some_iff.mp hv).1)⟩

theorem of_mapContents {ws : Array Value} (h : ∀ shape source, i ≠ .stream shape source)
    (hsize : ws.size = i.contents.size) : (i.mapContents fun _ => ws).Parallel i := by
  cases i with
  | object shape _ => exact .object shape hsize
  | seq shape _ => exact .seq shape hsize
  | stream shape source => exact absurd rfl (h shape source)

end Instance.Parallel

namespace Heap

/-- Instances that are equal are one, or of one kind with equal contents. -/
theorem of_equalInstances {heap : Heap} {n : Nat} {a b : Address}
    (h : heap.equalInstances n a b = true) : a = b ∨ ∃ m i j, heap.get? a = some i ∧
      heap.get? b = some j ∧ i.Parallel j ∧
      Value.allEqualWith (heap.equalInstances m) i.contents.toList j.contents.toList = true := by
  cases n with
  | zero => exact Or.inl (eq_of_beq h)
  | succ m =>
    rw [equalInstances, Bool.or_eq_true] at h
    refine h.imp eq_of_beq fun h => ?_
    split at h
    · rename_i shape vs shape' ws ha hb
      obtain ⟨hhead, hall⟩ := Bool.and_eq_true_iff.mp h
      obtain ⟨hshape, hsize⟩ := Bool.and_eq_true_iff.mp hhead
      obtain rfl := eq_of_beq hshape
      exact ⟨m, _, _, ha, hb, .object shape (eq_of_beq hsize), hall⟩
    · rename_i shape vs shape' ws ha hb
      obtain ⟨hhead, hall⟩ := Bool.and_eq_true_iff.mp h
      obtain ⟨hshape, hsize⟩ := Bool.and_eq_true_iff.mp hhead
      obtain rfl := eq_of_beq hshape
      exact ⟨m, _, _, ha, hb, .seq shape (eq_of_beq hsize), hall⟩
    · cases h

/-! ## Values of two heaps -/

/-- The first value, in one heap, holds what the second holds in another, if what is taken to do so
does. Other references lead to instances of the free addresses. -/
inductive Resembles (start heap : Heap) (free : Address → Prop) (taken : Address → Value → Prop) :
    Value → Value → Prop
  | null : Resembles start heap free taken .null .null
  | primitive {w v : Value} (h : w.bare.Agrees v.bare) : Resembles start heap free taken w v
  | struct {w v : Value} {shape : ShapeId} {ws vs : List Value} (hw : w.bare = .struct shape ws)
    (hv : v.bare = .struct shape vs) (hlength : ws.length = vs.length)
    (hfields : ∀ (i : Nat) (w v : Value), ws[i]? = some w → vs[i]? = some v →
      Resembles start heap free taken w v) : Resembles start heap free taken w v
  | ref {a b : Address} {i j : Instance} (hfree : free a) (ha : heap.get? a = some i)
    (hb : start.get? b = some j) (hij : i.Parallel j)
    (hcontents : ∀ (n : Nat) (w v : Value), i.contents[n]? = some w → j.contents[n]? = some v →
      Resembles start heap free taken w v) : Resembles start heap free taken (.ref a) (.ref b)
  | taken {a : Address} {v : Value} (h : taken a v) : Resembles start heap free taken (.ref a) v

/-- The values hold the same. -/
def Alike (heap : Heap) : Value → Value → Prop :=
  heap.Resembles heap (fun _ => True) fun _ _ => False

/-! ### What a value is alike -/

namespace Alike

variable {heap : Heap} {u v : Value}

theorem eq_null (h : heap.Alike .null v) : v = .null := by
  cases h with
  | null => rfl
  | primitive h => cases h
  | struct hw _ _ _ => cases hw

theorem of_primitive {p : Primitive} (h : heap.Alike u v) (hu : u.bare.IsPrimitive p) :
    u.bare.Agrees v.bare := by
  cases h with
  | null | ref _ _ _ _ _ => exact hu.isContent.elim
  | primitive h => exact h
  | struct hw _ _ _ =>
    rw [hw] at hu
    cases p <;> exact hu.elim
  | taken h => exact h.elim

/-- What is alike a struct is one of the same shape, with fields that are alike. -/
theorem of_struct {shape : ShapeId} {us : List Value} (h : heap.Alike u v)
    (hu : u.bare = .struct shape us) : ∃ vs, v.bare = .struct shape vs ∧ us.length = vs.length ∧
      ∀ (i : Nat) (u v : Value), us[i]? = some u → vs[i]? = some v → heap.Alike u v := by
  cases h with
  | null | ref _ _ _ _ _ => cases hu
  | primitive h =>
    obtain ⟨p, hp, -⟩ := h.exists_isPrimitive
    rw [hu] at hp
    cases p <;> exact hp.elim
  | struct hw hv hlength hfields =>
    cases hu.symm.trans hw
    exact ⟨_, hv, hlength, hfields⟩
  | taken h => exact h.elim

/-- What is alike an instance is one of the same kind, with contents that are alike. -/
theorem of_ref {a : Address} (h : heap.Alike (.ref a) v) : ∃ b i j, v = .ref b ∧
    heap.get? a = some i ∧ heap.get? b = some j ∧ i.Parallel j ∧
    ∀ (n : Nat) (w v : Value), i.contents[n]? = some w → j.contents[n]? = some v →
      heap.Alike w v := by
  cases h with
  | primitive h => cases h
  | struct hw _ _ _ => cases hw
  | ref _ ha hb hij hcontents => exact ⟨_, _, _, rfl, ha, hb, hij, hcontents⟩
  | taken h => exact h.elim

/-- What is alike an object is one of the same shape, with fields that are alike. -/
theorem of_object {a : Address} {shape : ShapeId} {us : List Value} (h : heap.Alike (.ref a) v)
    (ha : heap.get? a = some (.object shape us.toArray)) : ∃ (b : Address) (vs : List Value),
      v = .ref b ∧
      heap.get? b = some (.object shape vs.toArray) ∧ us.length = vs.length ∧
      ∀ (i : Nat) (u v : Value), us[i]? = some u → vs[i]? = some v → heap.Alike u v := by
  obtain ⟨b, i, j, rfl, ha', hb, hij, hcontents⟩ := h.of_ref
  obtain rfl := Option.some.inj (ha.symm.trans ha')
  cases hij with
  | @object _ _ vs hsize =>
    refine ⟨b, vs.toList, rfl, hb, hsize, fun i u v hu hv => hcontents i u v ?_ ?_⟩
    · simpa [Instance.contents] using hu
    · simpa [Instance.contents] using hv

end Alike

/-! ### Laws -/

namespace Resembles

variable {start start' heap heap' : Heap} {free free' p : Address → Prop}
  {taken taken' : Address → Value → Prop} {u v w : Value}

theorem unboxed (h : start.Resembles heap free taken w v) :
    start.Resembles heap free taken w.unboxed v := by
  cases h with
  | null => exact .null
  | primitive h => exact .primitive (w.bare_unboxed.symm ▸ h)
  | struct hw hv hlength hfields => exact .struct (w.bare_unboxed.trans hw) hv hlength hfields
  | ref hfree ha hb hij hcontents => exact .ref hfree ha hb hij hcontents
  | taken h => exact .taken h

theorem box (h : start.Resembles heap free taken w v) (h' : Heap) :
    start.Resembles heap free taken (h'.box w).1 v := by
  cases h with
  | null => exact .null
  | primitive h => exact .primitive ((w.bare_box h').symm ▸ h)
  | struct hw hv hlength hfields => exact .struct ((w.bare_box h').trans hw) hv hlength hfields
  | ref hfree ha hb hij hcontents => exact .ref hfree ha hb hij hcontents
  | taken h => exact .taken h

/-- The free instances stay as they are, and what is taken for granted still is. -/
theorem mono (hfree : ∀ a i, free a → heap.get? a = some i → free' a ∧ heap'.get? a = some i)
    (htaken : ∀ a v, taken a v → taken' a v) (h : start.Resembles heap free taken w v) :
    start.Resembles heap' free' taken' w v := by
  induction h with
  | null => exact .null
  | primitive h => exact .primitive h
  | struct hw hv hlength _ ih => exact .struct hw hv hlength ih
  | ref ha hi hb hij _ ih =>
    obtain ⟨ha', hi'⟩ := hfree _ _ ha hi
    exact .ref ha' hi' hb hij ih
  | taken h => exact .taken (htaken _ _ h)

/-- The second value is one of another heap, which has the same instances in a closed set. -/
theorem of_start (hp : ∀ a i, p a → start.get? a = some i → ∀ w ∈ i.parts, w.Within p)
    (hget : ∀ a i, p a → start.get? a = some i → start'.get? a = some i) (hv : v.Within p)
    (h : start.Resembles heap free taken w v) : start'.Resembles heap free taken w v := by
  induction h with
  | null => exact .null
  | primitive h => exact .primitive h
  | @struct _ _ _ _ vs hw hv' hlength _ ih =>
    refine .struct hw hv' hlength fun i w v hi hj => ih i w v hi hj fun a ha => ?_
    exact hv a (Value.mentions_of_bare (hv' ▸ .struct (List.mem_of_getElem? hj) ha))
  | @ref _ b _ j hfree ha hb hij _ ih =>
    have hpb : p b := Value.Within.ref.mp hv
    refine .ref hfree ha (hget b j hpb hb) hij fun n w v hi hj => ih n w v hi hj ?_
    refine hp b j hpb hb v ?_
    rw [hij.symm.parts_eq]
    exact Array.mem_toList_iff.mpr (Array.mem_of_getElem? hj)
  | taken h => exact .taken h

/-- What resembles a value resembles what is alike, if that is so of what is taken for granted. -/
theorem trans (htaken : ∀ a u v, taken a u → start.Alike u v → taken a v)
    (h : start.Resembles heap free taken w u) (h' : start.Alike u v) :
    start.Resembles heap free taken w v := by
  induction h generalizing v with
  | null =>
    obtain rfl := h'.eq_null
    exact .null
  | primitive h =>
    obtain ⟨p, -, hu⟩ := h.exists_isPrimitive
    exact .primitive (h.trans (h'.of_primitive hu))
  | @struct w u _ _ us hw hu hlength _ ih =>
    obtain ⟨vs, hv, hlength', hfields⟩ := h'.of_struct hu
    refine .struct hw hv (hlength.trans hlength') fun i w v hi hk => ?_
    have hlt : i < us.length := hlength'.symm ▸ (List.getElem?_eq_some_iff.mp hk).1
    have hj := List.getElem?_eq_getElem hlt
    exact ih i w _ hi hj (hfields i _ v hj hk)
  | ref hfree ha hb hij _ ih =>
    obtain ⟨c, j', k, rfl, hb', hc, hjk, hcontents⟩ := h'.of_ref
    obtain rfl := Option.some.inj (hb.symm.trans hb')
    refine .ref hfree ha hc (hij.trans hjk) fun n w v hi hk => ?_
    obtain ⟨u, hj⟩ := hjk.exists_content hk
    exact ih n w u hi hj (hcontents n u v hj hk)
  | taken h => exact .taken (htaken _ _ _ h h')

end Resembles

/-! ## Values of one heap -/

namespace Alike

variable {heap : Heap} {u v w : Value}

theorem symm (h : heap.Alike v w) : heap.Alike w v := by
  induction h with
  | null => exact .null
  | primitive h => exact .primitive h.symm
  | struct hw hv hlength _ ih =>
    exact .struct hv hw hlength.symm fun i w v hi hj => ih i v w hj hi
  | ref _ ha hb hij _ ih =>
    exact .ref trivial hb ha hij.symm fun n w v hi hj => ih n v w hj hi
  | taken h => exact h.elim

theorem trans (h : heap.Alike u v) (h' : heap.Alike v w) : heap.Alike u w :=
  Resembles.trans (fun _ _ _ h => h.elim) h h'

/-- References from a value that another one is alike lead to instances that do not lead back to
themselves. -/
theorem acc (h : heap.Alike w v) : ∀ a, v.Mentions a → Acc heap.Leads a := by
  induction h with
  | null => exact nofun
  | primitive h =>
    intro a ha
    obtain ⟨p, -, hv⟩ := h.exists_isPrimitive
    exact (hv.within (p := fun _ => False) a (Value.mentions_bare ha)).elim
  | @struct _ _ _ ws vs _ hv hlength _ ih =>
    intro a ha
    have ha' := Value.mentions_bare ha
    rw [hv] at ha'
    cases ha' with
    | struct hmem ha' =>
      obtain ⟨i, hi⟩ := List.mem_iff_getElem?.mp hmem
      have hlt : i < ws.length := hlength.symm ▸ (List.getElem?_eq_some_iff.mp hi).1
      exact ih i _ _ (List.getElem?_eq_getElem hlt) hi a ha'
  | @ref _ b _ j _ _ hb hij _ ih =>
    rintro a ⟨⟩
    refine Acc.intro b ?_
    rintro c ⟨j', v, hj', hv, hc⟩
    obtain rfl := Option.some.inj (hb.symm.trans hj')
    rw [hij.symm.parts_eq] at hv
    obtain ⟨n, hn⟩ := Array.mem_iff_getElem?.mp (Array.mem_toList_iff.mp hv)
    obtain ⟨w, hw⟩ := hij.exists_content hn
    exact ih n w v hw hn c hc
  | taken h => exact h.elim

/-- Values that are alike are equal, if instances that are alike are taken for equal. -/
theorem equalWith (h : heap.Alike w v) {ref : Address → Address → Bool}
    (href : ∀ a b, v.Mentions b → heap.Alike (.ref a) (.ref b) → ref a b = true) :
    w.equalWith ref v = true := by
  induction h with
  | null => rfl
  | @primitive w v h =>
    rw [Value.equalWith_bare]
    exact h.equalWith ref
  | @struct w v shape ws vs hw hv hlength _ ih =>
    rw [Value.equalWith_bare, hw, hv]
    have hfields := Value.allEqualWith_of_getElem? ref hlength fun i w v hi hj =>
      ih i w v hi hj fun a b hb =>
        href a b (Value.mentions_of_bare (hv ▸ .struct (List.mem_of_getElem? hj) hb))
    simp [Value.equalWith, Value.bare, hlength, hfields]
  | ref hfree ha hb hij hcontents => exact href _ _ (.ref _) (.ref hfree ha hb hij hcontents)
  | taken h => exact h.elim

/-- Instances that are alike are equal, if those that they lead to are. -/
theorem equalInstances_succ {a b : Address} (h : heap.Alike (.ref a) (.ref b)) {depth : Nat}
    (hdepth : ∀ c, heap.Leads c b → (heap.get? c).isSome → ∀ a, heap.Alike (.ref a) (.ref c) →
      heap.equalInstances depth a c = true) : heap.equalInstances (depth + 1) a b = true := by
  obtain ⟨_, i, j, heq, ha, hb, hij, hcontents⟩ := h.of_ref
  obtain rfl := Value.ref.inj heq
  have hall : Value.allEqualWith (heap.equalInstances depth) i.contents.toList
      j.contents.toList = true := by
    refine Value.allEqualWith_of_getElem? _ (by simpa using hij.size_eq) fun n w v hw hv => ?_
    rw [Array.getElem?_toList] at hw hv
    refine equalWith (hcontents n w v hw hv) fun a c hc hac => hdepth c ⟨j, v, hb, ?_, hc⟩ ?_ a hac
    · rw [hij.symm.parts_eq]
      exact Array.mem_toList_iff.mpr (Array.mem_of_getElem? hv)
    · obtain ⟨_, _, _, heq, -, hc', -⟩ := hac.of_ref
      obtain rfl := Value.ref.inj heq
      exact Option.isSome_of_mem hc'
  rw [equalInstances, ha, hb]
  cases hij with
  | object _ hsize | seq _ hsize =>
    simp only [Instance.contents] at hall
    simp [hsize, hall]

/-- Values that are alike are equal. -/
theorem equal (h : heap.Alike w v) : heap.equal w v = true := by
  let leads (j i : Nat) : Prop := heap.Leads ⟨j⟩ ⟨i⟩ ∧ (heap.get? ⟨j⟩).isSome
  refine h.equalWith fun a b hb hab => ?_
  have hacc : Acc leads b.index :=
    Subrelation.accessible (fun h => h.1) (InvImage.accessible Address.mk (h.acc b hb))
  refine holds_within leads ?_ (fun n i => ∀ a, heap.Alike (.ref a) (.ref ⟨i⟩) →
    heap.equalInstances n a ⟨i⟩ = true) ?_ hacc a hab
  · rintro i j ⟨-, hj⟩
    obtain ⟨_, hj⟩ := Option.isSome_iff_exists.mp hj
    exact Nat.lt_of_lt_of_le (lt_size_of_get? hj) (Nat.le_mul_self _)
  · exact fun n i hn a ha => ha.equalInstances_succ fun c hc hsome => hn c.index ⟨hc, hsome⟩

end Alike

/-! ## Plain values -/

namespace Plain

variable {pool : Pool} {heap : Heap} {v w : Value} {place place' : ShapeId}

theorem alike_self (h : heap.Plain pool v place) : heap.Alike v v := by
  induction h with
  | null => exact .null
  | primitive hv _ hnan => exact .primitive (.refl hv hnan)
  | @struct _ _ fields _ known hv _ _ _ _ hlength _ ih =>
    refine .struct hv hv rfl fun i w v hw hv => ?_
    obtain rfl := Option.some.inj (hw.symm.trans hv)
    have hlt : i < known.members.length := hlength ▸ (List.getElem?_eq_some_iff.mp hw).1
    exact ih i w _ hw (List.getElem?_eq_getElem hlt)
  | @object _ shape fields _ known ha _ _ _ _ hlength _ ih =>
    refine .ref trivial ha ha (.object shape rfl) fun i w v hw hv => ?_
    obtain rfl := Option.some.inj (hw.symm.trans hv)
    have hlt : i < known.members.length := hlength ▸ (Array.getElem?_eq_some_iff.mp hw).1
    exact ih i w _ hw (List.getElem?_eq_getElem hlt)
  | @seq _ shape items _ _ _ _ ha _ _ _ _ _ ih =>
    refine .ref trivial ha ha (.seq shape rfl) fun i w v hw hv => ?_
    obtain rfl := Option.some.inj (hw.symm.trans hv)
    exact ih w (Array.mem_of_getElem? hw)

/-- There are no boxes around null or a reference. -/
theorem eq_of_bare (h : heap.Plain pool v place) (hv : v.bare = .null ∨ ∃ a, v.bare = .ref a) :
    v.bare = v := by
  have hcontent (hc : v.bare.IsContent) : False := by
    rcases hv with hv | ⟨_, hv⟩ <;> exact (hv ▸ hc :)
  cases h with
  | primitive hv' _ _ => exact (hcontent hv'.isContent).elim
  | struct hv' _ _ _ _ _ _ => exact (hcontent (hv' ▸ trivial)).elim
  | null | object _ _ _ _ _ _ _ | seq _ _ _ _ _ _ => rfl

/-- A plain value is alike a plain reference that it is equal to, if contents that are equal to
those of the instance are alike them. -/
theorem alike_ref_of_equalWith {b : Address} {j : Instance} {n : Nat}
    (hw : heap.Plain pool w place') (hv : heap.Plain pool (.ref b) place)
    (hb : heap.get? b = some j)
    (hcontents : ∀ v ∈ j.contents, ∀ w place' m, heap.Plain pool w place' →
      w.equalWith (heap.equalInstances m) v = true → heap.Alike w v)
    (h : w.equalWith (heap.equalInstances n) (.ref b) = true) : heap.Alike w (.ref b) := by
  obtain ⟨a, hbare, hab⟩ := Value.bare_of_equalWith_ref h
  obtain rfl := (hw.eq_of_bare (Or.inr ⟨a, hbare⟩)).symm.trans hbare
  rcases of_equalInstances hab with rfl | ⟨m, i, j', ha, hb', hij, hall⟩
  · exact hv.alike_self
  · obtain rfl := Option.some.inj (hb.symm.trans hb')
    obtain ⟨i', ha', hparts⟩ := hw.exists_instance
    obtain rfl := Option.some.inj (ha.symm.trans ha')
    refine .ref trivial ha hb hij fun k w v hw hv => ?_
    obtain ⟨place', hw'⟩ := hparts w
      (hij.parts_eq ▸ Array.mem_toList_iff.mpr (Array.mem_of_getElem? hw))
    refine hcontents v (Array.mem_of_getElem? hv) w place' m hw' ?_
    exact Value.equalWith_of_allEqualWith hall (Array.getElem?_toList.trans hw)
      (Array.getElem?_toList.trans hv)

/-- Plain values that are equal, within some depth, are alike. -/
theorem alike_of_equalWith (hw : heap.Plain pool w place') (hv : heap.Plain pool v place) {n : Nat}
    (h : w.equalWith (heap.equalInstances n) v = true) : heap.Alike w v := by
  induction hv generalizing w place' n with
  | null =>
    have hbare := Value.bare_of_equalWith_null h
    exact (hw.eq_of_bare (Or.inl hbare)).symm.trans hbare ▸ .null
  | primitive hv _ _ =>
    rw [← Value.equalWith_bare_right] at h
    exact .primitive (Value.agrees_of_equalWith hv h)
  | @struct v shape vs _ known hv hp hs hkind htype hlength hfields ih =>
    rw [← Value.equalWith_bare_right, hv] at h
    obtain ⟨ws, hbare, hlength', hall⟩ := Value.bare_of_equalWith_struct h
    refine .struct hbare hv hlength' fun i u v hu hv => ?_
    obtain ⟨place', hu'⟩ := hw.exists_of_mem_parts
      (parts_of_struct heap hbare ▸ List.mem_of_getElem? hu)
    have hlt := (List.getElem?_eq_some_iff.mp hv).1
    exact ih i v _ hv (List.getElem?_eq_getElem (hlength ▸ hlt)) hu'
      (Value.equalWith_of_allEqualWith hall hu hv)
  | object ha hp hs hkind htype hlength hfields ih =>
    refine hw.alike_ref_of_equalWith (.object ha hp hs hkind htype hlength hfields) ha
      (fun v hv w place' m hw h => ?_) h
    obtain ⟨i, hi⟩ := Array.mem_iff_getElem?.mp hv
    have hlt := (Array.getElem?_eq_some_iff.mp hi).1
    exact ih i v _ hi (List.getElem?_eq_getElem (hlength ▸ hlt)) hw h
  | seq ha hp hs hkind hfamily hitems ih =>
    refine hw.alike_ref_of_equalWith (.seq ha hp hs hkind hfamily hitems) ha
      (fun v hv w place' m hw h => ?_) h
    exact ih v hv hw h

theorem alike_of_equal (hw : heap.Plain pool w place') (hv : heap.Plain pool v place)
    (h : heap.equal w v = true) : heap.Alike w v :=
  hw.alike_of_equalWith hv h

end Plain

/-! ## Copies -/

namespace Copied

variable {start heap : Heap} {bound : Nat} {w v : Value}

/-- A copy resembles what it is a copy of, and is made of instances from the bound on. -/
theorem resembles (h : start.Copied heap bound w v) :
    start.Resembles heap (fun a => bound ≤ a.index) (fun _ _ => False) w v := by
  induction h with
  | null => exact .null
  | @primitive _ w v hw hv hnan =>
    have hself : v.bare.Agrees v.bare := .refl hv hnan
    exact .primitive (hw.symm ▸ hself)
  | struct hw hv hlength _ ih => exact .struct hw hv hlength ih
  | @ref a b i ws hbound ha hb hstream hlength _ ih =>
    refine .ref hbound ha hb (.of_mapContents hstream hlength) fun n w v hw hv => ih n w v ?_ hv
    cases i with
    | object _ _ | seq _ _ => exact hw
    | stream shape source => exact absurd rfl (hstream shape source)

/-- A copy is equal to the value that it is a copy of. -/
theorem equal (h : start.Copied heap bound w v) (hk : start.Kept heap) :
    heap.equal w v = true := by
  have hfree : start.Resembles heap (fun _ => True) (fun _ _ => False) w v :=
    h.resembles.mono (fun _ _ _ hi => ⟨trivial, hi⟩) fun _ _ h => h
  have halike : heap.Alike w v := hfree.of_start (p := fun _ => True)
    (fun _ _ _ _ _ _ _ _ => trivial) (fun a i _ => hk a i) fun _ _ => trivial
  exact halike.equal

end Copied

end Heap

end Reshape
