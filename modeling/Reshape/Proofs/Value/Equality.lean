import Mathlib.Logic.Relation
import Reshape.Proofs.Depth
import Reshape.Proofs.Value.Alike
import Reshape.Proofs.Value.Finite

/-!
# Laws of equality

`Value.Matches` says when two values are equal, given which instances are ; boxes around them make
no difference. So equality of values is symmetric and transitive wherever that of instances is
(`Value.Matches.flip`, `Value.Matches.trans`), and by induction on the depth of the comparison that
of instances is, too (`Heap.equalInstances_flip`, `Heap.equalInstances_trans`).

To put a value in a box, or to take it out of one, does not change what is equal to what
(`Value.Reboxed`, `Heap.Reboxed.equalInstances_eq`), be it in a field, in an item or at the top.

Where no instance leads back to itself the comparison ends by itself : past the number of instances
its depth makes no difference (`Heap.equalInstances_eq_of_acc`), so it follows its clauses to their
end (`Heap.Equals.equal`).
-/

namespace Reshape

/-! ## Values -/

namespace Value

theorem bare_cases : ∀ v : Value, v.bare = .null ∨ (∃ p, v.bare.IsPrimitive p) ∨
    (∃ shape fields, v.bare = .struct shape fields) ∨ ∃ a, v.bare = .ref a
  | .boxed _ content => bare_cases content
  | .null => .inl rfl
  | .bool _ => .inr (.inl ⟨.bool, trivial⟩)
  | .int _ => .inr (.inl ⟨.int, trivial⟩)
  | .float _ => .inr (.inl ⟨.float, trivial⟩)
  | .char _ => .inr (.inl ⟨.char, trivial⟩)
  | .str _ _ => .inr (.inl ⟨.str, trivial⟩)
  | .struct shape fields => .inr (.inr (.inl ⟨shape, fields, rfl⟩))
  | .ref a => .inr (.inr (.inr ⟨a, rfl⟩))

theorem sizeOf_bare_le : ∀ v : Value, sizeOf v.bare ≤ sizeOf v
  | .boxed _ content => by
    have hle := sizeOf_bare_le content
    rw [bare, boxed.sizeOf_spec]
    omega
  | .null | .bool _ | .int _ | .float _ | .char _ | .str _ _ | .struct _ _ | .ref _ =>
    Nat.le_refl _

/-- What holds of a value if it holds of the fields that it has in place, holds of every value. -/
theorem fields_induction {motive : Value → Prop}
    (hfields : ∀ v, (∀ shape fields, v.bare = .struct shape fields → ∀ u ∈ fields, motive u) →
      motive v) (v : Value) : motive v :=
  hfields v fun shape fields hv u hu =>
    have hlt : sizeOf u < sizeOf v := by
      have hle := sizeOf_bare_le v
      have hlt := List.sizeOf_lt_of_mem hu
      rw [hv, struct.sizeOf_spec] at hle
      omega
    fields_induction hfields u
termination_by sizeOf v

/-- The values are equal but for boxes around them, where `same` compares the instances that they
refer to. -/
inductive Matches (same : Address → Address → Bool) : Value → Value → Prop
  | null {v w : Value} (hv : v.bare = .null) (hw : w.bare = .null) : Matches same v w
  | primitive {v w : Value} (h : v.bare.Agrees w.bare) : Matches same v w
  | struct {v w : Value} {shape : ShapeId} {vs ws : List Value} (hv : v.bare = .struct shape vs)
    (hw : w.bare = .struct shape ws) (hlength : vs.length = ws.length)
    (hfields : ∀ (i : Nat) (v w : Value), vs[i]? = some v → ws[i]? = some w → Matches same v w) :
    Matches same v w
  | ref {v w : Value} {a b : Address} (hv : v.bare = .ref a) (hw : w.bare = .ref b)
    (h : same a b = true) : Matches same v w

section

variable {same same' : Address → Address → Bool} {u v w : Value}

theorem Matches.of_equalWith (h : v.equalWith same w = true) : v.Matches same w := by
  induction v using fields_induction generalizing w with
  | hfields v ih =>
    rw [← equalWith_bare_right] at h
    rcases w.bare_cases with hw | ⟨p, hw⟩ | ⟨shape, ws, hw⟩ | ⟨b, hw⟩
    · rw [hw] at h
      exact .null (bare_of_equalWith_null h) hw
    · exact .primitive (agrees_of_equalWith hw h)
    · rw [hw] at h
      obtain ⟨vs, hv, hlength, hall⟩ := bare_of_equalWith_struct h
      refine .struct hv hw hlength fun i u w hu hw => ?_
      exact ih shape vs hv u (List.mem_of_getElem? hu) (equalWith_of_allEqualWith hall hu hw)
    · rw [hw] at h
      obtain ⟨a, hv, hab⟩ := bare_of_equalWith_ref h
      exact .ref hv hw hab

theorem Matches.equalWith (h : v.Matches same w) : v.equalWith same w = true := by
  induction h with
  | null hv hw =>
    rw [equalWith_bare, hv, hw]
    rfl
  | primitive h =>
    rw [equalWith_bare]
    exact h.equalWith same
  | struct hv hw hlength _ ih =>
    rw [equalWith_bare, hv, hw]
    simp [Value.equalWith, bare, hlength, allEqualWith_of_getElem? same hlength ih]
  | ref hv hw h =>
    rw [equalWith_bare, hv, hw]
    exact h

theorem equalWith_iff : v.equalWith same w = true ↔ v.Matches same w :=
  ⟨.of_equalWith, Matches.equalWith⟩

namespace Matches

theorem flip (h : v.Matches same w) : w.Matches (fun a b => same b a) v := by
  induction h with
  | null hv hw => exact .null hw hv
  | primitive h => exact .primitive h.symm
  | struct hv hw hlength _ ih =>
    exact .struct hw hv hlength.symm fun i w v hw hv => ih i v w hv hw
  | ref hv hw h => exact .ref hw hv h

theorem trans (hsame : ∀ a b c, same a b = true → same b c = true → same a c = true)
    (h : u.Matches same v) (h' : v.Matches same w) : u.Matches same w := by
  -- Both matches are of one kind, for `v` without its boxes has one form.
  induction h generalizing w with
  | null hu hv =>
    cases h' with
    | null _ hw => exact .null hu hw
    | primitive h' => exact nomatch hv ▸ h'
    | struct hv' _ _ _ | ref hv' _ _ => exact nomatch hv.symm.trans hv'
  | primitive h =>
    cases h' with
    | primitive h' => exact .primitive (h.trans h')
    | null hv' _ | struct hv' _ _ _ | ref hv' _ _ => exact nomatch hv' ▸ h.symm
  | @struct _ v _ _ vs hu hv hlength _ ih =>
    cases h' with
    | struct hv' hw hlength' hfields' =>
      cases hv.symm.trans hv'
      refine .struct hu hw (hlength.trans hlength') fun i u w hu hw => ?_
      have hlt : i < vs.length := hlength' ▸ (List.getElem?_eq_some_iff.mp hw).1
      have hv := List.getElem?_eq_getElem hlt
      exact ih i u _ hu hv (hfields' i _ w hv hw)
    | primitive h' => exact nomatch hv ▸ h'
    | null hv' _ | ref hv' _ _ => exact nomatch hv.symm.trans hv'
  | ref hu hv h =>
    cases h' with
    | ref hv' hw h' =>
      cases hv.symm.trans hv'
      exact .ref hu hw (hsame _ _ _ h h')
    | primitive h' => exact nomatch hv ▸ h'
    | null hv' _ | struct hv' _ _ _ => exact nomatch hv.symm.trans hv'

/-- Another comparison relates as much of what the first value refers to. -/
theorem imp (hsame : ∀ a b, v.Mentions a → same a b = true → same' a b = true)
    (h : v.Matches same w) : v.Matches same' w := by
  induction h with
  | null hv hw => exact .null hv hw
  | primitive h => exact .primitive h
  | struct hv hw hlength _ ih =>
    refine .struct hv hw hlength fun i v w hv' hw => ih i v w hv' hw fun a b ha => hsame a b ?_
    exact mentions_of_bare (hv ▸ .struct (List.mem_of_getElem? hv') ha)
  | ref hv hw h => exact .ref hv hw (hsame _ _ (mentions_of_bare (hv ▸ .ref _)) h)

/-- A value matches itself, if no NaN stands in it. -/
theorem refl (hsame : ∀ a, same a a = true) (heap : Heap)
    (hnan : ∀ u x, u = v ∨ heap.Inside u v → u.bare = .float x → x.isNaN = false) :
    v.Matches same v := by
  induction v using fields_induction with
  | hfields v ih =>
    rcases v.bare_cases with hv | ⟨p, hv⟩ | ⟨shape, vs, hv⟩ | ⟨a, hv⟩
    · exact .null hv hv
    · exact .primitive (.refl hv fun x => hnan v x (.inl rfl))
    · refine .struct hv hv rfl fun i u w hu hw => ?_
      obtain rfl := Option.some.inj (hu.symm.trans hw)
      have hmem : u ∈ vs := List.mem_of_getElem? hu
      have hheld : u ∈ heap.held v := by rwa [Heap.held, hv]
      refine ih shape vs hv u hmem fun w x hw => hnan w x (.inr ?_)
      rcases hw with rfl | hw
      · exact .single hheld
      · exact hw.tail hheld
    · exact .ref hv hv (hsame a)

end Matches

theorem equalWith_flip (same : Address → Address → Bool) (v w : Value) :
    v.equalWith same w = w.equalWith (fun a b => same b a) v :=
  Bool.eq_iff_iff.mpr <| equalWith_iff.trans <|
    Iff.trans ⟨Matches.flip, Matches.flip⟩ equalWith_iff.symm

theorem allEqualWith_iff {vs ws : List Value} (hlength : vs.length = ws.length) :
    allEqualWith same vs ws = true ↔ ∀ (i : Nat) (v w : Value), vs[i]? = some v →
      ws[i]? = some w → v.Matches same w := by
  constructor
  · exact fun h i v w hv hw => .of_equalWith (equalWith_of_allEqualWith h hv hw)
  · exact fun h => allEqualWith_of_getElem? same hlength fun i v w hv hw =>
      (h i v w hv hw).equalWith

/-! ### Boxes -/

/-- One value is put in a box or taken out of one, at the top or inside. -/
inductive Reboxed : Value → Value → Prop
  | box (token : Token) (v : Value) : Reboxed v (.boxed token v)
  | unbox (token : Token) (v : Value) : Reboxed (.boxed token v) v
  | content {v w : Value} (token token' : Token) (h : Reboxed v w) :
    Reboxed (.boxed token v) (.boxed token' w)
  | field (shape : ShapeId) {fields : List Value} {i : Nat} {v w : Value} (hi : fields[i]? = some v)
    (h : Reboxed v w) : Reboxed (.struct shape fields) (.struct shape (fields.set i w))

/-- One of the values may be another one that is equal to as much. -/
theorem allEqualWith_set {vs : List Value} {i : Nat} (hi : vs[i]? = some v)
    (hv : ∀ u, w.equalWith same u = v.equalWith same u) (us : List Value) :
    allEqualWith same (vs.set i w) us = allEqualWith same vs us := by
  induction vs generalizing i us with
  | nil => rfl
  | cons v' vs ih =>
    cases us with
    | nil => cases i <;> rfl
    | cons u us =>
      cases i with
      | zero =>
        cases hi
        rw [List.set_cons_zero, allEqualWith, allEqualWith, hv u]
      | succ i => rw [List.set_cons_succ, allEqualWith, allEqualWith, ih hi us]

/-- Boxes in a value make no difference, as those around it do not. -/
theorem Reboxed.equalWith_left (h : v.Reboxed w) (u : Value) :
    w.equalWith same u = v.equalWith same u := by
  induction h generalizing u with
  | box _ _ | unbox _ _ => rfl
  | content _ _ _ ih => exact ih u
  | field _ hi _ ih => simp only [equalWith, List.length_set, allEqualWith_set hi ih]

theorem Reboxed.equalWith_right (h : v.Reboxed w) (u : Value) :
    u.equalWith same w = u.equalWith same v := by
  rw [equalWith_flip, h.equalWith_left, ← equalWith_flip]

end

end Value

/-! ## Instances -/

namespace Instance

/-- Compares two instances by their kind, their shape and their contents. -/
def equalWith (same : Address → Address → Bool) : Instance → Instance → Bool
  | .object shape vs, .object shape' ws =>
    shape == shape' && vs.size == ws.size && Value.allEqualWith same vs.toList ws.toList
  | .seq shape vs, .seq shape' ws =>
    shape == shape' && vs.size == ws.size && Value.allEqualWith same vs.toList ws.toList
  | _, _ => false

/-- One of the contents is reboxed, or one of the items that a stream keeps. -/
inductive Reboxed : Instance → Instance → Prop
  | content {i : Instance} {k : Nat} {v w : Value} (hv : i.contents[k]? = some v)
    (h : v.Reboxed w) : Reboxed i (i.mapContents (·.setIfInBounds k w))
  | source (shape : ShapeId) {items : List Value} {k : Nat} {v w : Value}
    (hv : items[k]? = some v) (h : v.Reboxed w) :
    Reboxed (.stream shape (.items items)) (.stream shape (.items (items.set k w)))

section

variable {same same' : Address → Address → Bool} {i j k : Instance}

theorem equalWith_iff : i.equalWith same j = true ↔ i.Parallel j ∧
    ∀ (n : Nat) (v w : Value), i.contents[n]? = some v → j.contents[n]? = some w →
      v.Matches same w := by
  have hcontents {vs ws : Array Value} (hsize : vs.size = ws.size) :
      Value.allEqualWith same vs.toList ws.toList = true ↔
        ∀ (n : Nat) (v w : Value), vs[n]? = some v → ws[n]? = some w → v.Matches same w := by
    have hlists := @Value.allEqualWith_iff same vs.toList ws.toList hsize
    simpa only [Array.getElem?_toList] using hlists
  constructor
  · intro h
    unfold equalWith at h
    split at h
    · simp only [Bool.and_eq_true, beq_iff_eq] at h
      obtain ⟨⟨rfl, hsize⟩, hall⟩ := h
      exact ⟨.object _ hsize, (hcontents hsize).mp hall⟩
    · simp only [Bool.and_eq_true, beq_iff_eq] at h
      obtain ⟨⟨rfl, hsize⟩, hall⟩ := h
      exact ⟨.seq _ hsize, (hcontents hsize).mp hall⟩
    · cases h
  · rintro ⟨hij, h⟩
    cases hij with
    | object _ hsize | seq _ hsize =>
      have hall := (hcontents hsize).mpr h
      simp [equalWith, hsize, hall]

theorem equalWith_flip (same : Address → Address → Bool) (i j : Instance) :
    i.equalWith same j = j.equalWith (fun a b => same b a) i := by
  have hflip {same : Address → Address → Bool} {i j : Instance} (h : i.equalWith same j = true) :
      j.equalWith (fun a b => same b a) i = true := by
    obtain ⟨hij, hcontents⟩ := equalWith_iff.mp h
    exact equalWith_iff.mpr ⟨hij.symm, fun n w v hw hv => (hcontents n v w hv hw).flip⟩
  exact Bool.eq_iff_iff.mpr ⟨hflip, hflip⟩

theorem equalWith_trans (hsame : ∀ a b c, same a b = true → same b c = true → same a c = true)
    (h : i.equalWith same j = true) (h' : j.equalWith same k = true) :
    i.equalWith same k = true := by
  obtain ⟨hij, hcontents⟩ := equalWith_iff.mp h
  obtain ⟨hjk, hcontents'⟩ := equalWith_iff.mp h'
  refine equalWith_iff.mpr ⟨hij.trans hjk, fun n u w hu hw => ?_⟩
  obtain ⟨v, hv⟩ := hjk.exists_content hw
  exact (hcontents n u v hu hv).trans hsame (hcontents' n v w hv hw)

/-- Only the comparison of what the first instance refers to counts. -/
theorem equalWith_congr (hsame : ∀ v ∈ i.parts, ∀ a b, v.Mentions a → same a b = same' a b)
    (j : Instance) : i.equalWith same j = i.equalWith same' j := by
  have himp {same same' : Address → Address → Bool}
      (hsame : ∀ v ∈ i.parts, ∀ a b, v.Mentions a → same a b = same' a b)
      (h : i.equalWith same j = true) : i.equalWith same' j = true := by
    obtain ⟨hij, hcontents⟩ := equalWith_iff.mp h
    refine equalWith_iff.mpr ⟨hij, fun n v w hv hw => ?_⟩
    have hmem : v ∈ i.parts :=
      hij.parts_eq ▸ Array.mem_toList_iff.mpr (Array.mem_of_getElem? hv)
    exact (hcontents n v w hv hw).imp fun a b ha h => hsame v hmem a b ha ▸ h
  exact Bool.eq_iff_iff.mpr
    ⟨himp hsame, himp fun v hv a b ha => (hsame v hv a b ha).symm⟩

theorem Reboxed.equalWith_left (h : i.Reboxed j) (k : Instance) :
    j.equalWith same k = i.equalWith same k := by
  cases h with
  | @content _ n v w hv h =>
    cases i with
    | object _ vs | seq _ vs =>
      have hi : vs.toList[n]? = some v := Array.getElem?_toList.trans hv
      have hall (us : List Value) : Value.allEqualWith same (vs.toList.set n w) us =
          Value.allEqualWith same vs.toList us :=
        Value.allEqualWith_set hi h.equalWith_left us
      cases k <;> simp [mapContents, equalWith, hall]
    | stream _ _ => rfl
  | source _ _ _ => rfl

theorem Reboxed.equalWith_right (h : i.Reboxed j) (k : Instance) :
    k.equalWith same j = k.equalWith same i := by
  rw [equalWith_flip, h.equalWith_left, ← equalWith_flip]

end

end Instance

/-! ## Heaps -/

namespace Heap

/-- One of the instances is reboxed, and stays where it is. -/
def Reboxed (heap heap' : Heap) : Prop :=
  heap'.size = heap.size ∧ ∃ a i j, heap.get? a = some i ∧ i.Reboxed j ∧ heap'.get? a = some j ∧
    ∀ b, b ≠ a → heap'.get? b = heap.get? b

section

variable {heap heap' : Heap} {a b c : Address} {depth : Nat}

/-- To write a box over its content, or the content over its box, reboxes an instance. -/
theorem Reboxed.of_replace {i : Instance} {k : Nat} {v w : Value} (ha : heap.get? a = some i)
    (hv : i.contents[k]? = some v) (h : v.Reboxed w) : heap.Reboxed (heap.replace a k w) := by
  refine ⟨size_modifyContents .., a, i, _, ha, .content hv h, ?_, fun b hb => ?_⟩
  · rw [get?_replace, if_pos rfl, ha]
    rfl
  · rw [get?_replace, if_neg (Ne.symm hb)]

theorem equalInstances_succ (heap : Heap) (depth : Nat) (a b : Address) :
    heap.equalInstances (depth + 1) a b = (a == b || (heap.get? a).any fun i =>
      (heap.get? b).any (i.equalWith (heap.equalInstances depth))) := by
  rw [equalInstances]
  rcases heap.get? a with _ | ⟨_ | _ | _⟩ <;> rcases heap.get? b with _ | ⟨_ | _ | _⟩ <;> rfl

theorem equalInstances_flip (heap : Heap) (depth : Nat) :
    (fun a b => heap.equalInstances depth b a) = heap.equalInstances depth := by
  induction depth with
  | zero =>
    funext a b
    exact BEq.comm
  | succ depth ih =>
    funext a b
    rw [equalInstances_succ, equalInstances_succ, BEq.comm (a := a)]
    congr 1
    cases heap.get? a <;> cases heap.get? b <;> simp only [Option.any]
    rw [Instance.equalWith_flip, ih]

theorem equalInstances_succ_iff : heap.equalInstances (depth + 1) a b = true ↔ a = b ∨
    ∃ i j, heap.get? a = some i ∧ heap.get? b = some j ∧
      i.equalWith (heap.equalInstances depth) j = true := by
  simp [equalInstances_succ, Option.any_eq_true]

theorem equalInstances_trans (h : heap.equalInstances depth a b = true)
    (h' : heap.equalInstances depth b c = true) : heap.equalInstances depth a c = true := by
  induction depth generalizing a b c with
  | zero =>
    obtain rfl := eq_of_beq h
    exact h'
  | succ depth ih =>
    rcases equalInstances_succ_iff.mp h with rfl | ⟨i, j, ha, hb, hij⟩
    · exact h'
    · rcases equalInstances_succ_iff.mp h' with rfl | ⟨j', k, hb', hc, hjk⟩
      · exact h
      · obtain rfl := Option.some.inj (hb.symm.trans hb')
        refine equalInstances_succ_iff.mpr (.inr ⟨i, k, ha, hc, ?_⟩)
        exact Instance.equalWith_trans (fun _ _ _ h h' => ih h h') hij hjk

theorem Reboxed.equalInstances_eq (h : heap.Reboxed heap') (depth : Nat) :
    heap'.equalInstances depth = heap.equalInstances depth := by
  obtain ⟨-, x, i, j, hi, hij, hj, hne⟩ := h
  have hany (a : Address) {p : Instance → Bool} (hp : p j = p i) :
      (heap'.get? a).any p = (heap.get? a).any p := by
    by_cases ha : a = x
    · rw [ha, hi, hj]
      exact hp
    · rw [hne a ha]
  induction depth with
  | zero => rfl
  | succ depth ih =>
    -- One of the two instances may be the reboxed one, or both.
    funext a b
    rw [equalInstances_succ, equalInstances_succ, ih]
    congr 1
    rw [hany a (congrArg (heap'.get? b).any (funext hij.equalWith_left))]
    exact congrArg (heap.get? a).any (funext fun k => hany b (hij.equalWith_right k))

/-! ### Depth -/

/-- No more depth is needed where an instance does not lead back to itself than there are
instances. -/
theorem equalInstances_eq_of_acc (ha : Acc heap.Leads a) (hdepth : heap.size < depth)
    (b : Address) : heap.equalInstances depth a b = heap.equalInstances (heap.size + 1) a b := by
  let leads (j i : Nat) : Prop := heap.Leads ⟨j⟩ ⟨i⟩
  have hacc : Acc leads a.index := InvImage.accessible Address.mk ha
  refine holds_beyond leads (fun n i => ∀ m, n ≤ m → ∀ b,
    heap.equalInstances m ⟨i⟩ b = heap.equalInstances n ⟨i⟩ b) ?_ ?_ hacc depth hdepth b
  · -- Where there is no instance, nothing is compared but addresses.
    intro n i hi m hm b
    obtain ⟨m, rfl⟩ := Nat.exists_eq_add_of_lt (Nat.lt_of_lt_of_le (Nat.succ_pos n) hm)
    have hnone : heap.get? ⟨i⟩ = none := get?_eq_none_iff.mpr hi
    simp [equalInstances_succ, hnone]
  · -- An instance needs one step more than those that it leads to.
    intro n i hn m hm b
    obtain ⟨m, rfl⟩ := Nat.exists_eq_add_of_lt (Nat.lt_of_lt_of_le (Nat.succ_pos n) hm)
    rw [Nat.zero_add, equalInstances_succ, equalInstances_succ]
    congr 1
    cases hi : heap.get? ⟨i⟩ with
    | none => rfl
    | some j =>
      have hsame : ∀ v ∈ j.parts, ∀ c d, v.Mentions c →
          heap.equalInstances m c d = heap.equalInstances n c d :=
        fun v hv c d hc => hn c.index ⟨j, v, hi, hv, hc⟩ m (by omega) d
      exact congrArg (heap.get? b).any (funext (Instance.equalWith_congr hsame))

/-- Where nothing leads back to itself, there is an end to where an instance leads. -/
theorem acc_leads (hround : ∀ x, ¬ Relation.TransGen heap.Leads x x) (a : Address) :
    Acc heap.Leads a := by
  refine acc_of_not_leadsAround ((List.range heap.size).map Address.mk) ?_
    fun ⟨x, _, hx⟩ => hround x hx
  rintro a b ⟨i, -, hi, -, -⟩
  exact List.mem_map.mpr ⟨a.index, List.mem_range.mpr (lt_size_of_get? hi), rfl⟩

/-- So, where nothing leads back to itself, more depth than the comparison has makes no
difference. -/
theorem equalInstances_eq_of_lt (hround : ∀ x, ¬ Relation.TransGen heap.Leads x x)
    (hdepth : heap.size * heap.size < depth) :
    heap.equalInstances depth = heap.equalInstances (heap.size * heap.size + 1) := by
  have hsquare : heap.size ≤ heap.size * heap.size := Nat.le_mul_self _
  funext a b
  have heq {n : Nat} (hn : heap.size < n) := equalInstances_eq_of_acc (acc_leads hround a) hn b
  exact (heq (by omega)).trans (heq (by omega)).symm

/-! ### Clauses -/

/-- The values are equal by the clauses of the comparison, taken as often as they lead on. -/
inductive Equals (heap : Heap) : Value → Value → Prop
  | null {v w : Value} (hv : v.bare = .null) (hw : w.bare = .null) : Equals heap v w
  | primitive {v w : Value} (h : v.bare.Agrees w.bare) : Equals heap v w
  | struct {v w : Value} {shape : ShapeId} {vs ws : List Value} (hv : v.bare = .struct shape vs)
    (hw : w.bare = .struct shape ws) (hlength : vs.length = ws.length)
    (hfields : ∀ (i : Nat) (v w : Value), vs[i]? = some v → ws[i]? = some w → Equals heap v w) :
    Equals heap v w
  | same {v w : Value} {a : Address} (hv : v.bare = .ref a) (hw : w.bare = .ref a) :
    Equals heap v w
  | contents {v w : Value} {a b : Address} {i j : Instance} (hv : v.bare = .ref a)
    (hw : w.bare = .ref b) (ha : heap.get? a = some i) (hb : heap.get? b = some j)
    (hij : i.Parallel j) (hcontents : ∀ (n : Nat) (v w : Value), i.contents[n]? = some v →
      j.contents[n]? = some w → Equals heap v w) : Equals heap v w

theorem Equals.of_matches {same : Address → Address → Bool} {v w : Value}
    (hsame : ∀ v w a b, v.bare = .ref a → w.bare = .ref b → same a b = true → heap.Equals v w)
    (h : v.Matches same w) : heap.Equals v w := by
  induction h with
  | null hv hw => exact .null hv hw
  | primitive h => exact .primitive h
  | struct hv hw hlength _ ih => exact .struct hv hw hlength ih
  | ref hv hw h => exact hsame _ _ _ _ hv hw h

/-- What is found equal within some depth is equal by the clauses. -/
theorem Equals.of_equalInstances {v w : Value} (hv : v.bare = .ref a) (hw : w.bare = .ref b)
    (h : heap.equalInstances depth a b = true) : heap.Equals v w := by
  induction depth generalizing v w a b with
  | zero =>
    obtain rfl := eq_of_beq h
    exact .same hv hw
  | succ depth ih =>
    rcases equalInstances_succ_iff.mp h with rfl | ⟨i, j, ha, hb, h⟩
    · exact .same hv hw
    · obtain ⟨hij, hcontents⟩ := Instance.equalWith_iff.mp h
      refine .contents hv hw ha hb hij fun n v w hv hw => ?_
      exact .of_matches (fun _ _ _ _ => ih) (hcontents n v w hv hw)

/-! ### Verdicts -/

variable {u v w : Value}

theorem equal_comm (heap : Heap) (v w : Value) : heap.equal v w = heap.equal w v := by
  rw [equal, Value.equalWith_flip, equalInstances_flip, ← equal]

theorem equal_trans (h : heap.equal u v = true) (h' : heap.equal v w = true) :
    heap.equal u w = true :=
  Value.Matches.equalWith <|
    (Value.Matches.of_equalWith h).trans (fun _ _ _ => equalInstances_trans) (.of_equalWith h')

theorem equal_self (hnan : ∀ u x, u = v ∨ heap.Inside u v → u.bare = .float x → x.isNaN = false) :
    heap.equal v v = true :=
  (Value.Matches.refl (heap.equalInstances_self _) heap hnan).equalWith

/-- One instance is equal to itself, whatever it holds. A box is not an instance in this sense : it
is what it holds. -/
theorem equal_of_sameInstance (h : v.sameInstance w = true)
    (hbox : ∀ token content, v ≠ .boxed token content)
    (htext : ∀ token text text', v = .str token text → w = .str token text' → text = text') :
    heap.equal v w = true := by
  cases v with
  | boxed token content => exact absurd rfl (hbox token content)
  | null =>
    cases w with
    | null => rfl
    | _ => cases h
  | str token text =>
    cases w with
    | str token' text' =>
      obtain rfl := eq_of_beq h
      exact beq_iff_eq.mpr (htext token text text' rfl rfl)
    | _ => cases h
  | ref a =>
    cases w with
    | ref b =>
      obtain rfl := eq_of_beq h
      exact heap.equalInstances_self _ a
    | _ => cases h
  | _ => cases h

theorem equal_of_reboxed {v' w' : Value} (hheap : Relation.ReflTransGen Reboxed heap heap')
    (hv : Relation.ReflTransGen Value.Reboxed v v')
    (hw : Relation.ReflTransGen Value.Reboxed w w') : heap'.equal v' w' = heap.equal v w := by
  have hheap' (v w : Value) : heap'.equal v w = heap.equal v w := by
    induction hheap with
    | refl => rfl
    | tail _ h ih => rw [equal, h.equalInstances_eq, h.1, ← equal, ih]
  have hw' (v : Value) : heap.equal v w' = heap.equal v w := by
    induction hw with
    | refl => rfl
    | tail _ h ih => exact (h.equalWith_right v).trans ih
  have hv' : heap.equal v' w = heap.equal v w := by
    induction hv with
    | refl => rfl
    | tail _ h ih => exact (h.equalWith_left w).trans ih
  rw [hheap', hw', hv']

theorem equals_of_equal (h : heap.equal v w = true) : heap.Equals v w :=
  .of_matches (fun _ _ _ _ => .of_equalInstances) (.of_equalWith h)

/-- What is equal by the clauses is found equal, where nothing leads back to itself. -/
theorem Equals.equal (hround : ∀ x, ¬ Relation.TransGen heap.Leads x x) (h : heap.Equals v w) :
    heap.equal v w = true := by
  induction h with
  | null hv hw => exact Value.Matches.equalWith (.null hv hw)
  | primitive h => exact Value.Matches.equalWith (.primitive h)
  | struct hv hw hlength _ ih =>
    exact Value.Matches.equalWith <|
      .struct hv hw hlength fun i v w hv hw => .of_equalWith (ih i v w hv hw)
  | same hv hw => exact Value.Matches.equalWith (.ref hv hw (heap.equalInstances_self _ _))
  | contents hv hw ha hb hij _ ih =>
    refine Value.Matches.equalWith (.ref hv hw ?_)
    rw [← equalInstances_eq_of_lt hround (Nat.lt_add_of_pos_right Nat.two_pos)]
    refine equalInstances_succ_iff.mpr (.inr ⟨_, _, ha, hb, ?_⟩)
    exact Instance.equalWith_iff.mpr ⟨hij, fun n v w hv hw => .of_equalWith (ih n v w hv hw)⟩

/-- In a heap where nothing leads back to itself, equality is symmetric and transitive, and it is
reflexive on what holds no NaN at any depth. One object, sequence, stream or string is equal to
itself in any case, where strings of one token have one text. Boxes that are put somewhere or taken
away, any number of them, leave the verdict as it is. The verdict is that of the clauses, and owes
nothing to the depth at which the comparison breaks off. -/
theorem equal_partialEquivalence (hround : ∀ x, ¬ Relation.TransGen heap.Leads x x)
    (a b c : Value) :
    heap.equal a b = heap.equal b a ∧
    (heap.equal a b = true → heap.equal b c = true → heap.equal a c = true) ∧
    ((∀ u x, u = a ∨ heap.Inside u a → u.bare = .float x → x.isNaN = false) →
      heap.equal a a = true) ∧
    (a.sameInstance b = true → (∀ token content, a ≠ .boxed token content) →
      (∀ token text text', a = .str token text → b = .str token text' → text = text') →
      heap.equal a b = true) ∧
    (∀ heap' a' b', Relation.ReflTransGen Reboxed heap heap' →
      Relation.ReflTransGen Value.Reboxed a a' → Relation.ReflTransGen Value.Reboxed b b' →
      heap'.equal a' b' = heap.equal a b) ∧
    (heap.equal a b = true ↔ heap.Equals a b) :=
  ⟨heap.equal_comm a b, equal_trans, equal_self, equal_of_sameInstance,
    fun _ _ _ => equal_of_reboxed, equals_of_equal, Equals.equal hround⟩

end

/-- Two lists of lists that hold the same but for a box. -/
def boxedTwins : Heap where
  instances := #[.seq ShapeId.untypedList #[.int 5],
    .seq ShapeId.untypedList #[.boxed ⟨0⟩ (.int 5)],
    .seq ShapeId.untypedList #[.ref ⟨0⟩], .seq ShapeId.untypedList #[.ref ⟨1⟩]]
  tokens := 1

theorem lt_of_leads_boxedTwins {a b : Address} (h : boxedTwins.Leads b a) : b.index < a.index := by
  obtain ⟨i, v, hi, hv, hb⟩ := h
  obtain ⟨_ | _ | _ | _ | n⟩ := a
  case succ.succ.succ.succ => simp [boxedTwins, get?] at hi
  all_goals
    obtain rfl := Option.some.inj hi
    obtain rfl := List.mem_singleton.mp hv
    cases hb <;> first | decide | (rename_i hb; cases hb)

theorem equal_boxedTwins : (∀ x, ¬ Relation.TransGen boxedTwins.Leads x x) ∧
    boxedTwins.equal (.ref ⟨2⟩) (.ref ⟨3⟩) = true ∧
    boxedTwins.equal (.ref ⟨3⟩) (.ref ⟨2⟩) = true ∧
    boxedTwins.equal (.ref ⟨3⟩) (.ref ⟨3⟩) = true ∧
    (boxedTwins.replace ⟨1⟩ 0 (.int 5)).equal (.ref ⟨3⟩) (.ref ⟨2⟩) = true := by
  have hround (x : Address) : ¬ Relation.TransGen boxedTwins.Leads x x := by
    have hlt {a b : Address} (h : Relation.TransGen boxedTwins.Leads b a) : b.index < a.index := by
      induction h with
      | single h => exact lt_of_leads_boxedTwins h
      | tail _ h ih => exact Nat.lt_trans ih (lt_of_leads_boxedTwins h)
    exact fun h => Nat.lt_irrefl _ (hlt h)
  have hequal : boxedTwins.equal (.ref ⟨2⟩) (.ref ⟨3⟩) = true := by decide
  have hreboxed : boxedTwins.Reboxed (boxedTwins.replace ⟨1⟩ 0 (.int 5)) :=
    .of_replace rfl rfl (.unbox ⟨0⟩ (.int 5))
  obtain ⟨hcomm, htrans, -, -, hkeep, -⟩ :=
    equal_partialEquivalence hround (.ref ⟨3⟩) (.ref ⟨2⟩) (.ref ⟨3⟩)
  have hequal' := hcomm.trans hequal
  exact ⟨hround, hequal, hequal', htrans hequal' hequal,
    (hkeep _ _ _ (.single hreboxed) .refl .refl).trans hequal'⟩

end Heap

end Reshape
