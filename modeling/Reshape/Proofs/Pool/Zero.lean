import Mathlib.Data.List.Forall2
import Reshape.Proofs.Pool.Growth

/-!
# Zero values of shapes

A zero value is made by a descent through records held in place, member by member. The descent is
cut off at a depth that goes by the size of the pool, and where no record held in place contains
itself that depth is never reached (`Pool.zeroValueWithin_of_lt`). So there each zero value is made
of the zero values of the members (`Pool.zeroValue_eq_ok_iff`), and holds no reference
(`Pool.referenceFree_of_zeroValue`).

The shapes that the descent may come to are named by the places of the members that lead to them
(`Pool.LeadsBy`). It meets a shape before those of its members, and these in their order, which is
the lexicographic order of the places. It fails just where one of the shapes is missing in the pool,
with the error of the first of them (`Pool.zeroValue_eq_error_iff`).
-/

namespace Reshape

/-! ## Values without references -/

/-- Nothing in the value is a reference : no object, sequence or stream, no string and no box. -/
inductive Value.ReferenceFree : Value → Prop
  | null : ReferenceFree .null
  | bool (b : Bool) : ReferenceFree (.bool b)
  | int (n : Int64) : ReferenceFree (.int n)
  | float (x : Binary64) : ReferenceFree (.float x)
  | char (c : Char) : ReferenceFree (.char c)
  | struct {shape : ShapeId} {fields : List Value} (h : ∀ v ∈ fields, ReferenceFree v) :
    ReferenceFree (.struct shape fields)

/-! ## One turn of the descent -/

theorem Except.mapM_eq_ok_iff {ε α β : Type} {f : α → Except ε β} {as : List α} {bs : List β} :
    as.mapM f = .ok bs ↔ List.Forall₂ (fun a b => f a = .ok b) as bs := by
  induction as generalizing bs with
  | nil =>
    rw [List.forall₂_nil_left_iff]
    exact ⟨fun h => by cases h; rfl, fun h => h ▸ rfl⟩
  | cons a as ih =>
    rw [List.mapM_cons, Except.bind_eq_ok_iff, List.forall₂_cons_left_iff]
    refine exists_congr fun b => ?_
    rw [Except.bind_eq_ok_iff]
    constructor
    · rintro ⟨hb, bs', hbs, ⟨⟩⟩
      exact ⟨bs', hb, ih.mp hbs, rfl⟩
    · rintro ⟨bs', hb, hbs, rfl⟩
      exact ⟨hb, bs', ih.mpr hbs, rfl⟩

/-- The value is the zero value of the shape `id` that is so described, if `zero` tells those of
other shapes : the zero of a primitive held in place, a struct of the zero values of the members
for a record held in place, and null for all else. -/
def Descriptor.HasZero (known : Descriptor) (id : ShapeId)
    (zero : ShapeId → Except ShapeError Value) (v : Value) : Prop :=
  match known.kind, known.valueType with
  | .primitive .bool, _ => v = .bool false
  | .primitive .int, _ => v = .int 0
  | .primitive .float, _ => v = .float Binary64.zero
  | .primitive .char, _ => v = .char '\x00'
  | .record, true => ∃ fields, v = .struct id fields ∧
      List.Forall₂ (fun m field => zero m.shape = .ok field) known.members fields
  | _, _ => v = .null

namespace Pool

/-- The pool does not tell what the shape is, with this error : it has no such id, or nothing says
what the id stands for. -/
inductive Missing (pool : Pool) (id : ShapeId) : ShapeError → Prop
  | unknown (h : pool.size ≤ id.index) : Missing pool id (.unknown id)
  | undefined {name : String} (h : pool.slots[id.index]? = some ⟨name, none⟩) :
    Missing pool id (.undefinedShape id name)

/-- The shape is a record held in place, with these members. -/
def IsStruct (pool : Pool) (id : ShapeId) (members : List Member) : Prop :=
  ∃ known, pool.descriptor id = .ok known ∧ known.kind = .record ∧ known.valueType = true ∧
    known.members = members

/-- The members in these places, each of a record held in place that the one before has led to,
lead from `id` to `x`. -/
inductive LeadsBy (pool : Pool) : ShapeId → List Nat → ShapeId → Prop
  | self {id : ShapeId} : LeadsBy pool id [] id
  | member {id x : ShapeId} {members : List Member} {i : Nat} {m : Member} {path : List Nat}
    (hid : pool.IsStruct id members) (hm : members[i]? = some m) (h : LeadsBy pool m.shape path x) :
    LeadsBy pool id (i :: path) x

section

variable {pool : Pool} {id : ShapeId} {depth : Nat} {v : Value} {e : ShapeError}

theorem descriptor_eq_error_iff : pool.descriptor id = .error e ↔ pool.Missing id e := by
  constructor
  · exact pool.descriptor_failsWith (fun h => .unknown (List.getElem?_eq_none_iff.mp h))
      (fun _ h => .undefined h) e
  · rintro (h | h)
    · exact pool.descriptor_eq_error h
    · simp only [descriptor, h]

theorem IsStruct.unique {members members' : List Member} (h : pool.IsStruct id members)
    (h' : pool.IsStruct id members') : members' = members := by
  obtain ⟨known, hknown, -, -, rfl⟩ := h
  obtain ⟨known', hknown', -, -, rfl⟩ := h'
  cases hknown.symm.trans hknown'
  rfl

theorem contains_iff {inner : ShapeId} : pool.Contains inner id ↔
    ∃ members, pool.IsStruct id members ∧ ∃ m ∈ members, m.shape = inner := by
  constructor
  · rintro ⟨known, hknown, hkind, htype, hinner⟩
    exact ⟨_, ⟨known, hknown, hkind, htype, rfl⟩, hinner⟩
  · rintro ⟨_, ⟨known, hknown, hkind, htype, rfl⟩, hinner⟩
    exact ⟨known, hknown, hkind, htype, hinner⟩

theorem IsStruct.contains {members : List Member} (h : pool.IsStruct id members) {i : Nat}
    {m : Member} (hm : members[i]? = some m) : pool.Contains m.shape id :=
  contains_iff.mpr ⟨members, h, m, List.mem_of_getElem? hm, rfl⟩

theorem zeroValueWithin_succ_eq_ok_iff : pool.zeroValueWithin (depth + 1) id = .ok v ↔
    ∃ known, pool.descriptor id = .ok known ∧
      known.HasZero id (pool.zeroValueWithin depth) v := by
  rw [zeroValueWithin, Except.bind_eq_ok_iff]
  refine exists_congr fun known => and_congr_right fun _ => ?_
  obtain ⟨name, kind, members, valueType, defaultConstructor⟩ := known
  have hleaf {w : Value} : (Except.ok w : Except ShapeError Value) = .ok v ↔ v = w := by
    rw [Except.ok.injEq, eq_comm]
  cases kind with
  | primitive p => cases p <;> exact hleaf
  | record =>
    cases valueType with
    | false => exact hleaf
    | true =>
      refine Except.bind_eq_ok_iff.trans (exists_congr fun fields => ?_)
      rw [Except.mapM_eq_ok_iff, and_comm]
      exact and_congr_left fun _ => hleaf
  | any | nullable _ | collection _ _ => exact hleaf

theorem IsStruct.zeroValueWithin_succ {members : List Member} (h : pool.IsStruct id members) :
    pool.zeroValueWithin (depth + 1) id =
      Value.struct id <$> members.mapM fun m => pool.zeroValueWithin depth m.shape := by
  obtain ⟨⟨name, kind, members, valueType, defaultConstructor⟩, hknown, rfl, rfl, rfl⟩ := h
  rw [zeroValueWithin, hknown, map_eq_pure_bind]
  rfl

theorem zeroValueWithin_succ_of_error (h : pool.descriptor id = .error e) (depth : Nat) :
    pool.zeroValueWithin (depth + 1) id = .error e := by
  rw [zeroValueWithin, h]
  rfl

/-- What is no struct has its zero value at once. -/
theorem exists_zeroValueWithin_succ {known : Descriptor} (hknown : pool.descriptor id = .ok known)
    (h : ∀ members, ¬ pool.IsStruct id members) :
    ∃ v, ∀ depth, pool.zeroValueWithin (depth + 1) id = .ok v := by
  suffices hzero : ∃ v, ∀ zero, known.HasZero id zero v from
    hzero.imp fun v hv depth => zeroValueWithin_succ_eq_ok_iff.mpr ⟨known, hknown, hv _⟩
  unfold Descriptor.HasZero
  split
  · exact ⟨_, fun _ => rfl⟩
  · exact ⟨_, fun _ => rfl⟩
  · exact ⟨_, fun _ => rfl⟩
  · exact ⟨_, fun _ => rfl⟩
  · rename_i hkind htype
    exact absurd ⟨known, hknown, hkind, htype, rfl⟩ (h known.members)
  · exact ⟨_, fun _ => rfl⟩

/-- At a greater depth, a zero value is missing if it was missing already, or if some member of a
record held in place has none ; the first such member decides. -/
theorem zeroValueWithin_succ_eq_error_iff : pool.zeroValueWithin (depth + 1) id = .error e ↔
    pool.Missing id e ∨ ∃ members, pool.IsStruct id members ∧
      ∃ (i : Nat) (m : Member), members[i]? = some m ∧
        pool.zeroValueWithin depth m.shape = .error e ∧
        ∀ j < i, ∀ m', members[j]? = some m' →
          ∃ w, pool.zeroValueWithin depth m'.shape = .ok w := by
  rw [← descriptor_eq_error_iff]
  cases hknown : pool.descriptor id with
  | error e' =>
    rw [zeroValueWithin_succ_of_error hknown, Except.error.injEq, Except.error.injEq, or_iff_left]
    rintro ⟨members, ⟨known, hknown', -⟩, -⟩
    cases hknown.symm.trans hknown'
  | ok known =>
    rw [or_iff_right nofun]
    by_cases hstruct : ∃ members, pool.IsStruct id members
    · obtain ⟨members, hmembers⟩ := hstruct
      have hfails : pool.zeroValueWithin (depth + 1) id = .error e ↔
          members.mapM (fun m => pool.zeroValueWithin depth m.shape) = .error e := by
        rw [hmembers.zeroValueWithin_succ, Except.map_eq_error_iff]
      rw [hfails, Except.mapM_eq_error_iff]
      constructor
      · exact fun h => ⟨members, hmembers, h⟩
      · rintro ⟨members', hmembers', h⟩
        exact hmembers.unique hmembers' ▸ h
    · obtain ⟨v, hv⟩ := exists_zeroValueWithin_succ hknown (not_exists.mp hstruct)
      rw [hv]
      exact ⟨nofun, fun ⟨members, hmembers, _⟩ => absurd ⟨members, hmembers⟩ hstruct⟩

/-- However deep the descent goes, what it makes holds no reference. -/
theorem referenceFree_of_zeroValueWithin (h : pool.zeroValueWithin depth id = .ok v) :
    v.ReferenceFree := by
  induction depth generalizing id v with
  | zero => cases h
  | succ depth ih =>
    obtain ⟨known, -, hzero⟩ := zeroValueWithin_succ_eq_ok_iff.mp h
    unfold Descriptor.HasZero at hzero
    split at hzero
    · exact hzero ▸ .bool _
    · exact hzero ▸ .int _
    · exact hzero ▸ .float _
    · exact hzero ▸ .char _
    · obtain ⟨fields, rfl, hfields⟩ := hzero
      refine .struct fun w hw => ?_
      obtain ⟨m, -, hm⟩ := (Except.mem_iff_of_mapM_eq_ok (Except.mapM_eq_ok_iff.mpr hfields)).mp hw
      exact ih hm
    · exact hzero ▸ .null

end

/-! ## Descents that end -/

section

variable {pool : Pool}

/-- Where no record held in place contains itself, every descent through them ends. -/
theorem wellFounded_contains (h : ∀ id, ¬ Relation.TransGen pool.Contains id id) :
    WellFounded pool.Contains :=
  ⟨fun _ => acc_contains fun ⟨x, _, hround⟩ => h x hround⟩

/-- That is so where records held in place contain only such of a lower rank. -/
theorem not_transGen_of_rank (rank : Nat → Nat)
    (h : pool.slots.zipIdx.all (fun slot => slot.1.descriptor?.all fun d =>
      !(d.isRecord && d.valueType) ||
        d.members.all fun m => rank m.shape.index < rank slot.2) = true)
    (id : ShapeId) : ¬ Relation.TransGen pool.Contains id id := by
  have hlower {inner id : ShapeId} (hinner : pool.Contains inner id) :
      rank inner.index < rank id.index := by
    obtain ⟨known, hknown, hkind, htype, m, hm, rfl⟩ := hinner
    obtain ⟨slot, hslot, hdescriptor⟩ := descriptor_eq_ok_iff.mp hknown
    have hall := List.all_eq_true.mp h (slot, id.index) (List.mem_zipIdx_iff_getElem?.mpr hslot)
    simp only [hdescriptor, Option.all_some, Descriptor.isRecord, hkind, htype, Bool.and_self,
      Bool.not_true, Bool.false_or] at hall
    exact of_decide_eq_true (List.all_eq_true.mp hall m hm)
  have hlowest {inner id : ShapeId} (hinner : Relation.TransGen pool.Contains inner id) :
      rank inner.index < rank id.index := by
    induction hinner with
    | single h => exact hlower h
    | tail _ h ih => exact Nat.lt_trans ih (hlower h)
  exact fun hround => Nat.lt_irrefl _ (hlowest hround)

variable (hpool : WellFounded pool.Contains) {id : ShapeId} {v : Value} {e : ShapeError}

include hpool

/-- To cut the descent off later makes no difference. -/
theorem zeroValueWithin_of_lt {depth : Nat} (hdepth : pool.size < depth) (id : ShapeId) :
    pool.zeroValueWithin depth id = pool.zeroValue id := by
  have hends : pool.EndsWithin (pool.size + 1) id :=
    zeroValue_failsWith pool.descriptor_failsPlainly (.inl (hpool.apply id))
  exact hends.eq_of_le hdepth

theorem zeroValueWithin_succ_size (id : ShapeId) :
    pool.zeroValueWithin (pool.size + 1 + 1) id = pool.zeroValue id :=
  zeroValueWithin_of_lt hpool (Nat.lt_succ_of_lt (Nat.lt_succ_self _)) id

/-- The zero value of a shape is made of those of its members. -/
theorem zeroValue_eq_ok_iff : pool.zeroValue id = .ok v ↔
    ∃ known, pool.descriptor id = .ok known ∧ known.HasZero id pool.zeroValue v := by
  rw [← zeroValueWithin_succ_size hpool, zeroValueWithin_succ_eq_ok_iff]
  rfl

theorem IsStruct.zeroValue_eq {members : List Member} (h : pool.IsStruct id members) :
    pool.zeroValue id = Value.struct id <$> members.mapM fun m => pool.zeroValue m.shape := by
  rw [← zeroValueWithin_succ_size hpool, h.zeroValueWithin_succ]
  rfl

/-! ## Shapes that are missing -/

/-- There is a zero value if the pool tells all shapes that the descent may come to. -/
theorem exists_zeroValue_iff : (∃ v, pool.zeroValue id = .ok v) ↔
    ∀ path x, pool.LeadsBy id path x → ∃ known, pool.descriptor x = .ok known := by
  induction hpool.apply id with
  | intro id _ ih =>
    constructor
    · rintro ⟨v, hv⟩ path x hx
      cases hx with
      | self =>
        obtain ⟨known, hknown, -⟩ := (zeroValue_eq_ok_iff hpool).mp hv
        exact ⟨known, hknown⟩
      | member hid hm hrest =>
        rw [hid.zeroValue_eq hpool] at hv
        obtain ⟨fields, hfields, -⟩ := Except.map_eq_ok_iff.mp hv
        have hfield := Except.exists_of_mapM_eq_ok hfields (List.mem_of_getElem? hm)
        exact (ih _ (hid.contains hm)).mp hfield _ _ hrest
    · intro hall
      by_cases hstruct : ∃ members, pool.IsStruct id members
      · obtain ⟨members, hid⟩ := hstruct
        obtain ⟨fields, hfields⟩ : ∃ fields,
            members.mapM (fun m => pool.zeroValue m.shape) = .ok fields := by
          refine Except.exists_mapM_eq_ok fun m hm => ?_
          obtain ⟨i, hi⟩ := List.mem_iff_getElem?.mp hm
          exact (ih _ (hid.contains hi)).mpr fun path x hx => hall _ x (.member hid hi hx)
        rw [hid.zeroValue_eq hpool, hfields]
        exact ⟨_, rfl⟩
      · obtain ⟨known, hknown⟩ := hall [] id .self
        obtain ⟨v, hv⟩ := exists_zeroValueWithin_succ hknown (not_exists.mp hstruct)
        exact ⟨v, hv pool.size⟩

/-- The error is that of the first missing shape. -/
theorem zeroValue_eq_error_iff : pool.zeroValue id = .error e ↔
    ∃ path x, pool.LeadsBy id path x ∧ pool.Missing x e ∧
      ∀ path' < path, ∀ x', pool.LeadsBy id path' x' → ∃ known, pool.descriptor x' = .ok known := by
  induction hpool.apply id with
  | intro id _ ih =>
    rw [← zeroValueWithin_succ_size hpool, zeroValueWithin_succ_eq_error_iff]
    constructor
    · rintro (hmissing | ⟨members, hid, i, m, hm, hfails, hbefore⟩)
      · exact ⟨[], id, .self, hmissing, fun path' hlt => absurd hlt (List.not_lt_nil path')⟩
      · obtain ⟨path, x, hx, hmissing, hfirst⟩ := (ih _ (hid.contains hm)).mp hfails
        refine ⟨i :: path, x, .member hid hm hx, hmissing, fun path' hlt x' hx' => ?_⟩
        cases hx' with
        | self =>
          obtain ⟨known, hknown, -⟩ := hid
          exact ⟨known, hknown⟩
        | member hid' hm' hrest =>
          cases hid.unique hid'
          rcases List.cons_lt_cons_iff.mp hlt with hplace | ⟨rfl, hinner⟩
          · exact (exists_zeroValue_iff hpool).mp (hbefore _ hplace _ hm') _ _ hrest
          · cases hm.symm.trans hm'
            exact hfirst _ hinner _ hrest
    · rintro ⟨path, x, hx, hmissing, hfirst⟩
      cases hx with
      | self => exact .inl hmissing
      | @member _ _ members i m path hid hm hx =>
        refine .inr ⟨members, hid, i, m, hm, ?_, fun j hj m' hm' => ?_⟩
        · refine (ih _ (hid.contains hm)).mpr ⟨path, x, hx, hmissing, fun path' hlt x' hx' => ?_⟩
          exact hfirst _ (List.cons_lt_cons_iff.mpr (.inr ⟨rfl, hlt⟩)) x' (.member hid hm hx')
        · refine (exists_zeroValue_iff hpool).mpr fun path' x' hx' => ?_
          exact hfirst _ (List.cons_lt_cons_iff.mpr (.inl hj)) x' (.member hid hm' hx')

end

/-- In a pool where no record held in place contains itself through others, however many, the
descent to the zero value of any shape ends : to cut it off later makes no difference, and it is not
cut off. It fails just if the shape, or one that it comes to by the members of records held in
place, is missing in the pool, and its error is that of the first of these, where a shape is met
before those of its members and these are met in their order. Otherwise the zero value is that of
its kind : of a primitive held in place the zero, of a record held in place a struct with one field
for each member, which is the zero value of its shape, and null of all else. It holds no
reference. -/
theorem zeroValue_ends {pool : Pool} (hpool : ∀ id, ¬ Relation.TransGen pool.Contains id id)
    (id : ShapeId) :
    (∀ depth, pool.size < depth → pool.zeroValueWithin depth id = pool.zeroValue id) ∧
      (∀ x, pool.zeroValue id ≠ .error (.endless x)) ∧
      ((∃ e, pool.zeroValue id = .error e) ↔
        ∃ path x e, pool.LeadsBy id path x ∧ pool.Missing x e) ∧
      (∀ e, pool.zeroValue id = .error e ↔ ∃ path x, pool.LeadsBy id path x ∧ pool.Missing x e ∧
        ∀ path' < path, ∀ x', pool.LeadsBy id path' x' →
          ∃ known, pool.descriptor x' = .ok known) ∧
      ∀ v, (pool.zeroValue id = .ok v ↔
        ∃ known, pool.descriptor id = .ok known ∧ known.HasZero id pool.zeroValue v) ∧
        (pool.zeroValue id = .ok v → v.ReferenceFree) := by
  have hwf := wellFounded_contains hpool
  refine ⟨fun depth hdepth => zeroValueWithin_of_lt hwf hdepth id, fun x h => ?_,
    ⟨fun ⟨e, he⟩ => ?_, fun ⟨path, x, e, hx, hmissing⟩ => ?_⟩,
    fun e => zeroValue_eq_error_iff hwf,
    fun v => ⟨zeroValue_eq_ok_iff hwf, referenceFree_of_zeroValueWithin⟩⟩
  · obtain ⟨_, _, -, hmissing, -⟩ := (zeroValue_eq_error_iff hwf).mp h
    cases hmissing
  · obtain ⟨path, x, hx, hmissing, -⟩ := (zeroValue_eq_error_iff hwf).mp he
    exact ⟨path, x, e, hx, hmissing⟩
  · cases hzero : pool.zeroValue id with
    | error e' => exact ⟨e', rfl⟩
    | ok v =>
      obtain ⟨known, hknown⟩ := (exists_zeroValue_iff hwf).mp ⟨v, hzero⟩ path x hx
      cases hknown.symm.trans (descriptor_eq_error_iff.mpr hmissing)

/-- A pool with a line between two points. Nobody says what the span of a point is, and the pool has
no id for the shape of the second point. -/
def sketch : Pool :=
  [Operation.declare "Span",
    .register (.ofRecord "Point" [⟨"x", ShapeId.int, {}⟩, ⟨"span", ⟨7⟩, {}⟩] true),
    .register (.ofRecord "Line"
      [⟨"note", ShapeId.str, {}⟩, ⟨"start", ⟨8⟩, {}⟩, ⟨"finish", ⟨20⟩, {}⟩] true),
    .register (.ofRecord "Label"
      [⟨"text", ShapeId.str, {}⟩, ⟨"mark", ShapeId.char, {}⟩] true)].foldl
    Operation.apply Pool.initial

theorem not_transGen_sketch (id : ShapeId) : ¬ Relation.TransGen sketch.Contains id id :=
  not_transGen_of_rank (fun i => if i < 20 then i else 0) (by decide) id

/-- There a line has no zero value, and the span of its first point is the first that is missing. A
label has one, which holds no reference. -/
theorem zeroValue_ends_sketch :
    (∀ id, ¬ Relation.TransGen sketch.Contains id id) ∧
      sketch.zeroValue ⟨9⟩ = .error (.undefinedShape ⟨7⟩ "Span") ∧
      (∃ path x, sketch.LeadsBy ⟨9⟩ path x ∧ sketch.Missing x (.undefinedShape ⟨7⟩ "Span") ∧
        ∀ path' < path, ∀ x', sketch.LeadsBy ⟨9⟩ path' x' →
          ∃ known, sketch.descriptor x' = .ok known) ∧
      sketch.zeroValue ⟨10⟩ = .ok (.struct ⟨10⟩ [.null, .char '\x00']) ∧
      (Value.struct ⟨10⟩ [.null, .char '\x00']).ReferenceFree := by
  obtain ⟨-, -, -, hfails, -⟩ := zeroValue_ends not_transGen_sketch ⟨9⟩
  obtain ⟨-, -, -, -, hsucceeds⟩ := zeroValue_ends not_transGen_sketch ⟨10⟩
  exact ⟨not_transGen_sketch, rfl, (hfails _).mp rfl, rfl, (hsucceeds _).2 rfl⟩

end Pool

end Reshape
