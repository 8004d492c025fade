import Reshape.Proofs.Depth
import Reshape.Proofs.Outcome

/-!
# Failures of pools

Where a pool cannot tell a shape, a zero value or a template, its error says why, and what it says
is so (`ShapeError.CausedBy`) : the id was never handed out, or it was declared under that name and
never described, or the shapes lead around in a circle. So in a pool whose nullable shapes and value
types do not lead back to themselves, only the first two remain. That is so of each descent because
it is so of what one step of it can fail with (`Pool.failsBy_within`), whatever is asked of errors
(`Pool.stripNullable_failsWith`, `Pool.zeroValue_failsWith`, `Pool.template_failsWith`).

A zero value that is not found before the descent to it is cut off is found at no depth, and the
shape is on its way around in a circle (`Pool.circles_of_zeroValue`).

`Except.FailsBy` bounds the errors of a computation, and takes it apart along its binds.
-/

namespace Reshape

/-! ## Errors of computations -/

/-- If the computation fails, its error satisfies `p`. -/
def Except.FailsBy {ε α : Type} (p : ε → Prop) (x : Except ε α) : Prop :=
  ∀ e, x = .error e → p e

namespace Except.FailsBy

variable {ε α β : Type} {p : ε → Prop}

theorem ok (a : α) : FailsBy p (.ok a) :=
  fun _ h => nomatch h

theorem error {e : ε} (h : p e) : FailsBy p (.error e : Except ε α) := by
  rintro _ ⟨⟩
  exact h

theorem bind {x : Except ε α} {f : α → Except ε β} (hx : FailsBy p x)
    (hf : ∀ a, x = .ok a → FailsBy p (f a)) : FailsBy p (x >>= f) := by
  cases x with
  | error e => exact error (hx e rfl)
  | ok a => exact hf a rfl

theorem map {x : Except ε α} (hx : FailsBy p x) (f : α → β) : FailsBy p (f <$> x) := by
  cases x with
  | error e => exact error (hx e rfl)
  | ok a => exact ok (f a)

theorem ite {c : Prop} [Decidable c] {x y : Except ε α} (hx : FailsBy p x) (hy : FailsBy p y) :
    FailsBy p (if c then x else y) := by
  split
  · exact hx
  · exact hy

theorem mapM {f : α → Except ε β} {as : List α} (hf : ∀ a ∈ as, FailsBy p (f a)) :
    FailsBy p (as.mapM f) := by
  induction as with
  | nil => exact ok _
  | cons a as ih =>
    rw [List.mapM_cons]
    exact bind (hf a List.mem_cons_self) fun _ _ =>
      bind (ih fun b hb => hf b (List.mem_cons_of_mem _ hb)) fun _ _ => ok _

theorem of_bind {x : Except ε α} {f : α → Except ε β} (h : FailsBy p (x >>= f)) : FailsBy p x := by
  rintro e rfl
  exact h e rfl

/-- Only the elements up to the first that fails make a difference. -/
theorem mapM_eq {f g : α → Except ε β} {as : List α} (h : FailsBy p (as.mapM f))
    (hfg : ∀ a ∈ as, FailsBy p (f a) → g a = f a) : as.mapM g = as.mapM f := by
  induction as with
  | nil => rfl
  | cons a as ih =>
    rw [List.mapM_cons] at h
    rw [List.mapM_cons, List.mapM_cons, hfg a List.mem_cons_self h.of_bind]
    cases ha : f a with
    | error e => rfl
    | ok b =>
      rw [ha] at h
      have hrest : FailsBy p (as.mapM f) := of_bind h
      rw [ih hrest fun b hb => hfg b (List.mem_cons_of_mem _ hb)]

end Except.FailsBy

/-! ## Causes -/

namespace Pool

/-- The shape is `inner` or null. -/
def IsNullable (pool : Pool) (inner id : ShapeId) : Prop :=
  ∃ known, pool.descriptor id = .ok known ∧ known.kind = .nullable inner

/-- The shape is a value type with a member of the shape `inner`. -/
def Contains (pool : Pool) (inner id : ShapeId) : Prop :=
  ∃ known, pool.descriptor id = .ok known ∧ known.kind = .record ∧ known.valueType = true ∧
    ∃ m ∈ known.members, m.shape = inner

/-- A new instance of the shape `id` starts with the zero value of another one : of the shape itself
if it is a value type, and else of each of its members. -/
inductive StartsWith (pool : Pool) (id : ShapeId) : ShapeId → Prop
  | itself {known : Descriptor} (hknown : pool.descriptor id = .ok known)
    (htype : known.valueType = true) : StartsWith pool id id
  | member {known : Descriptor} {m : Member} (hknown : pool.descriptor id = .ok known)
    (htype : known.valueType = false) (hconstructor : known.defaultConstructor = true)
    (hkind : known.kind = .record) (hm : m ∈ known.members) : StartsWith pool id m.shape

/-- Through members that are held in place the shape leads to one that contains itself, and however
deep the descent goes, it comes to no zero value of the shape. -/
structure Circles (pool : Pool) (id : ShapeId) : Prop where
  around : LeadsAround pool.Contains id
  endless (depth : Nat) : ∃ x, pool.zeroValueWithin depth id = .error (.endless x)

end Pool

/-- What the error says of the pool is so. No pool gives cause for the errors of definitions. -/
def ShapeError.CausedBy (pool : Pool) : ShapeError → Prop
  | unknown id => pool.slots[id.index]? = none
  | undefinedShape id name => pool.slots[id.index]? = some ⟨name, none⟩
  | endless _ => ¬(WellFounded pool.IsNullable ∧ WellFounded pool.Contains)
  | alreadyDefined _ _ | nameMismatch _ _ _ => False

/-- The error is not that of a descent without end. -/
def ShapeError.Plain : ShapeError → Prop
  | endless _ => False
  | _ => True

namespace Pool

variable (pool : Pool)

/-- A shape without a descriptor is not in the pool, or was declared and never described. -/
theorem descriptor_failsWith {p : ShapeError → Prop} {id : ShapeId}
    (hunknown : pool.slots[id.index]? = none → p (.unknown id))
    (hundefined : ∀ name, pool.slots[id.index]? = some ⟨name, none⟩ → p (.undefinedShape id name)) :
    Except.FailsBy p (pool.descriptor id) := by
  unfold descriptor
  split
  · rename_i hnone
    exact .error (hunknown hnone)
  · rename_i slot hslot
    split
    · rename_i hdescriptor
      exact .error (hundefined slot.name (hslot.trans (hdescriptor ▸ rfl)))
    · exact .ok _

theorem descriptor_failsPlainly (id : ShapeId) :
    Except.FailsBy ShapeError.Plain (pool.descriptor id) :=
  pool.descriptor_failsWith (fun _ => trivial) fun _ _ => trivial

theorem descriptor_failsBy (id : ShapeId) : Except.FailsBy (·.CausedBy pool) (pool.descriptor id) :=
  pool.descriptor_failsWith (fun h => h) fun _ h => h

/-- A shape that is not in the pool is found missing at once. -/
theorem descriptor_eq_error {id : ShapeId} (h : pool.size ≤ id.index) :
    pool.descriptor id = .error (.unknown id) := by
  unfold descriptor
  rw [List.getElem?_eq_none h]

/-- The errors of a descent satisfy `p` if those of each step do, and if the descent has an end or
`p` holds of the error of one that has none. As many steps as there are shapes suffice. -/
theorem failsBy_within {α : Type} {p : ShapeError → Prop} (leads : ShapeId → ShapeId → Prop)
    (x : Nat → ShapeId → Except ShapeError α)
    (hleads : ∀ inner id, leads inner id → ∃ known, pool.descriptor id = .ok known)
    (hzero : ∀ id, x 0 id = .error (.endless id))
    (hstep : ∀ n id, (∀ inner, leads inner id → Except.FailsBy p (x n inner)) →
      Except.FailsBy p (x (n + 1) id)) {id : ShapeId}
    (hend : Acc leads id ∨ ∀ id, p (.endless id)) : Except.FailsBy p (x (pool.size + 1) id) := by
  rcases hend with hacc | hendless
  · refine holds_beyond (fun j i => leads ⟨j⟩ ⟨i⟩)
      (fun n i => Except.FailsBy p (x n ⟨i⟩)) (fun n i hi => ?_)
      (fun n i h => hstep n ⟨i⟩ fun inner => h inner.index)
      (InvImage.accessible ShapeId.mk hacc)
    refine hstep n ⟨i⟩ fun inner hinner => ?_
    obtain ⟨known, hknown⟩ := hleads inner ⟨i⟩ hinner
    rw [pool.descriptor_eq_error hi] at hknown
    cases hknown
  · -- In a circle the descent may be cut off anywhere.
    generalize pool.size + 1 = steps
    induction steps generalizing id with
    | zero =>
      rw [hzero]
      exact .error (hendless id)
    | succ n ih => exact hstep n id fun _ _ => ih

section

variable {pool} {p : ShapeError → Prop} (hdescriptor : ∀ id, Except.FailsBy p (pool.descriptor id))

include hdescriptor

theorem stripNullable_failsWith {id : ShapeId}
    (hend : Acc pool.IsNullable id ∨ ∀ id, p (.endless id)) :
    Except.FailsBy p (pool.stripNullable id) := by
  refine pool.failsBy_within pool.IsNullable pool.stripNullableWithin
    (fun _ _ ⟨known, hknown, _⟩ => ⟨known, hknown⟩) (fun _ => rfl) (fun n id h => ?_) hend
  rw [stripNullableWithin]
  split
  · rename_i e he
    exact .error (hdescriptor id e he)
  · rename_i known hknown
    split
    · rename_i inner hkind
      exact h inner ⟨known, hknown, hkind⟩
    · exact .ok _

theorem zeroValue_failsWith {id : ShapeId}
    (hend : Acc pool.Contains id ∨ ∀ id, p (.endless id)) :
    Except.FailsBy p (pool.zeroValue id) := by
  refine pool.failsBy_within pool.Contains pool.zeroValueWithin
    (fun _ _ ⟨known, hknown, _⟩ => ⟨known, hknown⟩) (fun _ => rfl) (fun n id h => ?_) hend
  rw [zeroValueWithin]
  refine .bind (hdescriptor id) fun known hknown => ?_
  split
  · exact .ok _
  · exact .ok _
  · exact .ok _
  · exact .ok _
  · rename_i hkind
    split
    · rename_i htype
      refine .bind (.mapM fun m hm => ?_) fun _ _ => .ok _
      exact h m.shape ⟨known, hknown, hkind, htype, m, hm, rfl⟩
    · exact .ok _
  · exact .ok _

/-- A template fails as the pool does with a shape or with a zero value that the template is made
of. -/
theorem template_failsWith {id : ShapeId}
    (hzero : ∀ x, pool.StartsWith id x → Except.FailsBy p (pool.zeroValue x)) :
    Except.FailsBy p (Template.ofShape pool id) := by
  unfold Template.ofShape
  refine .bind (hdescriptor id) fun known hknown => ?_
  split
  · rename_i htype
    exact .bind (hzero id (.itself hknown htype)) fun _ _ => .ok _
  · rename_i htype
    split
    · exact .ok _
    · rename_i hconstructor
      split
      · rename_i hkind
        refine .bind (.mapM fun m hm => ?_) fun _ _ => .ok _
        exact hzero m.shape (.member hknown (Bool.eq_false_iff.mpr htype)
          (by simpa using hconstructor) hkind hm)
      · exact .ok _
      · exact .ok _

end

/-! ## Errors of a pool -/

/-- One of the two descents has an end, or there is a circle, as the error of the other says. -/
theorem endless_causedBy {p : Prop}
    (h : WellFounded pool.IsNullable ∧ WellFounded pool.Contains → p) :
    p ∨ ∀ id, (ShapeError.endless id).CausedBy pool := by
  by_cases hp : p
  · exact .inl hp
  · exact .inr fun _ hboth => hp (h hboth)

theorem stripNullable_failsBy (id : ShapeId) :
    Except.FailsBy (·.CausedBy pool) (pool.stripNullable id) :=
  stripNullable_failsWith pool.descriptor_failsBy
    (pool.endless_causedBy fun h => h.1.apply id)

theorem zeroValue_failsBy (id : ShapeId) :
    Except.FailsBy (·.CausedBy pool) (pool.zeroValue id) :=
  zeroValue_failsWith pool.descriptor_failsBy (pool.endless_causedBy fun h => h.2.apply id)

end Pool

theorem Template.ofShape_failsBy (pool : Pool) (id : ShapeId) :
    Except.FailsBy (·.CausedBy pool) (Template.ofShape pool id) :=
  Pool.template_failsWith pool.descriptor_failsBy fun x _ => pool.zeroValue_failsBy x

/-! ## Zero values without end -/

namespace Pool

/-- The descent to the zero value of the shape has come to its end at this depth. -/
def EndsWithin (pool : Pool) (depth : Nat) (id : ShapeId) : Prop :=
  Except.FailsBy ShapeError.Plain (pool.zeroValueWithin depth id)

/-- The member is held in place, and its descent has come to its end just before that of the
record. -/
def EndsBefore (pool : Pool) (inner id : ShapeId) : Prop :=
  pool.Contains inner id ∧
    ∃ n, pool.EndsWithin n inner ∧ pool.EndsWithin (n + 1) id ∧ ¬ pool.EndsWithin n id

variable {pool : Pool} {id : ShapeId} {m n : Nat}

theorem not_endsWithin_zero : ¬ pool.EndsWithin 0 id :=
  fun h => h _ rfl

theorem not_endsWithin_iff :
    ¬ pool.EndsWithin n id ↔ ∃ x, pool.zeroValueWithin n id = .error (.endless x) := by
  constructor
  · intro h
    refine Classical.byContradiction fun hno => h fun e he => ?_
    cases e with
    | endless x => exact hno ⟨x, he⟩
    | _ => trivial
  · rintro ⟨x, hx⟩ h
    exact h _ hx

namespace EndsWithin

/-- Two depths come to the same if they do so for the members that are looked at. -/
theorem succ_eq (h : pool.EndsWithin (n + 1) id)
    (hmembers : ∀ inner, pool.Contains inner id → pool.EndsWithin n inner →
      pool.zeroValueWithin m inner = pool.zeroValueWithin n inner) :
    pool.zeroValueWithin (m + 1) id = pool.zeroValueWithin (n + 1) id := by
  cases hknown : pool.descriptor id with
  | error e => simp only [zeroValueWithin, hknown, bind, Except.bind]
  | ok known =>
    unfold EndsWithin at h
    rw [zeroValueWithin, hknown] at h
    rw [zeroValueWithin, zeroValueWithin, hknown]
    obtain ⟨name, kind, members, valueType, defaultConstructor⟩ := known
    cases kind with
    | primitive p => cases p <;> rfl
    | record =>
      cases valueType with
      | false => rfl
      | true =>
        let struct (fields : List Value) : Except ShapeError Value := .ok (.struct id fields)
        have hfields : Except.FailsBy ShapeError.Plain
            (members.mapM fun m => pool.zeroValueWithin n m.shape) := .of_bind (f := struct) h
        exact congrArg (· >>= struct) (hfields.mapM_eq fun m hm =>
          hmembers m.shape ⟨_, hknown, rfl, rfl, m, hm, rfl⟩)
    | _ => rfl

theorem eq_of_le (h : pool.EndsWithin n id) (hle : n ≤ m) :
    pool.zeroValueWithin m id = pool.zeroValueWithin n id := by
  induction n generalizing m id with
  | zero => exact absurd h not_endsWithin_zero
  | succ n ih =>
    obtain ⟨m, rfl⟩ : ∃ m', m = m' + 1 := ⟨m - 1, by omega⟩
    exact h.succ_eq fun inner _ hinner => ih hinner (Nat.le_of_succ_le_succ hle)

theorem mono (h : pool.EndsWithin n id) (hle : n ≤ m) : pool.EndsWithin m id := by
  unfold EndsWithin
  rwa [h.eq_of_le hle]

/-- What a descent comes to does not depend on the depth, once it has come to its end. -/
theorem eq (h : pool.EndsWithin m id) (h' : pool.EndsWithin n id) :
    pool.zeroValueWithin m id = pool.zeroValueWithin n id := by
  rcases Nat.le_total n m with hle | hle
  · exact h'.eq_of_le hle
  · exact (h.eq_of_le hle).symm

theorem acc (h : pool.EndsWithin n id) : Acc pool.EndsBefore id := by
  induction n generalizing id with
  | zero => exact absurd h not_endsWithin_zero
  | succ n ih =>
    refine ⟨id, fun inner hinner => ?_⟩
    obtain ⟨-, k, hk, -, hbefore⟩ := hinner
    have hle : k ≤ n := Nat.le_of_not_lt fun hlt => hbefore (h.mono hlt)
    exact ih (hk.mono hle)

/-- There is a depth at which the descent comes to its end, and one less is too few. -/
theorem exists_first (h : pool.EndsWithin n id) :
    ∃ k, pool.EndsWithin (k + 1) id ∧ ¬ pool.EndsWithin k id := by
  induction n with
  | zero => exact absurd h not_endsWithin_zero
  | succ n ih =>
    by_cases hn : pool.EndsWithin n id
    · exact ih hn
    · exact ⟨n, h, hn⟩

/-- If the descent ends at all, it ends at the depth at which it is cut off. -/
theorem size_succ (h : pool.EndsWithin n id) : pool.EndsWithin (pool.size + 1) id := by
  refine holds_beyond (fun j i => pool.EndsBefore ⟨j⟩ ⟨i⟩)
    (fun m i => (∃ n, pool.EndsWithin n ⟨i⟩) → pool.EndsWithin m ⟨i⟩) (fun m i hi _ => ?_)
    (fun m i hmembers ⟨n, hn⟩ => ?_) (InvImage.accessible ShapeId.mk h.acc) ⟨n, h⟩
  · unfold EndsWithin
    simp only [zeroValueWithin, pool.descriptor_eq_error hi, bind, Except.bind]
    exact .error trivial
  · obtain ⟨k, hk, hbefore⟩ := hn.exists_first
    unfold EndsWithin
    rw [hk.succ_eq fun inner hinner hends => ?_]
    · exact hk
    · exact (hmembers inner.index ⟨hinner, k, hends, hk, hbefore⟩ ⟨k, hends⟩).eq hends

end EndsWithin

/-- Where no record held in place is on the way around, the descent ends. -/
theorem acc_contains (h : ¬ LeadsAround pool.Contains id) : Acc pool.Contains id := by
  refine acc_of_not_leadsAround ((List.range pool.size).map ShapeId.mk) ?_ h
  rintro id inner ⟨known, hknown, -⟩
  refine List.mem_map.mpr ⟨id.index, List.mem_range.mpr (Nat.lt_of_not_le fun hle => ?_), rfl⟩
  cases hknown.symm.trans (pool.descriptor_eq_error hle)

/-- A descent that is cut off would be cut off at any depth, and is on the way around. -/
theorem circles_of_zeroValue {x : ShapeId} (h : pool.zeroValue id = .error (.endless x)) :
    pool.Circles id := by
  constructor
  · refine Classical.byContradiction fun hround => ?_
    exact zeroValue_failsWith pool.descriptor_failsPlainly (.inl (acc_contains hround)) _ h
  · exact fun depth => not_endsWithin_iff.mp fun hends => hends.size_succ _ h

theorem circles_of_template {x : ShapeId} (h : Template.ofShape pool id = .error (.endless x)) :
    ∃ y, pool.StartsWith id y ∧ pool.Circles y := by
  refine Classical.byContradiction fun hno => ?_
  refine template_failsWith pool.descriptor_failsPlainly (fun y hy e he => ?_) _ h
  cases e with
  | endless z => exact hno ⟨y, hy, circles_of_zeroValue he⟩
  | _ => trivial

end Pool

end Reshape
