import Reshape.Proofs.Pool.Below
import Reshape.Proofs.Pool.Interning
import Reshape.Proofs.Program.Emitted

/-!
# Looking below nullable shapes

`stripNullable` goes from a nullable shape to the one that it names, until it comes to a shape that
is not nullable, or of which nothing is known (`Pool.Stops`). `Pool.Strips` says in which turn that
is. Unless the nullable shapes lead around in a circle, there are no more turns than shapes
(`Pool.exists_strips_of_not_leadsAround`), and otherwise there is no end to them
(`Pool.not_strips_of_leadsAround`).

Circles are possible, for descriptors are taken as they are given : a declared shape may be defined
as the nullable shape of itself. They take the definition of a nullable shape before that of the
shape it names. `Pool.nullable` never makes one, and where nobody else has (`Pool.GroundedBy`),
there is no circle (`Pool.Grounded.not_leadsAround`).
-/

namespace Reshape

namespace Pool

/-! ## Turns -/

/-- The shape is not nullable, as far as the pool knows. What it is, or what is wrong with it. -/
inductive Stops (pool : Pool) (id : ShapeId) : Except ShapeError ShapeId → Prop
  | described {known : Descriptor} (h : pool.descriptor id = .ok known)
    (hkind : ∀ inner, known.kind ≠ .nullable inner) : Stops pool id (.ok id)
  | unknown (h : pool.size ≤ id.index) : Stops pool id (.error (.unknown id))
  | undefined {name : String} (h : pool.slots[id.index]? = some ⟨name, none⟩) :
    Stops pool id (.error (.undefinedShape id name))

/-- From `id` the search below nullable shapes ends in its `n`th turn, with that result. -/
inductive Strips (pool : Pool) : Nat → ShapeId → Except ShapeError ShapeId → Prop
  | stops {id : ShapeId} {result : Except ShapeError ShapeId} (h : pool.Stops id result) :
    Strips pool 1 id result
  | follows {n : Nat} {inner id : ShapeId} {result : Except ShapeError ShapeId}
    (h : pool.IsNullable inner id) (hrest : Strips pool n inner result) :
    Strips pool (n + 1) id result

/-- The second shape is nullable and names the first, which is nullable too. -/
def NamesNullable (pool : Pool) (inner id : ShapeId) : Prop :=
  pool.IsNullable inner id ∧ ∃ next, pool.IsNullable next inner

/-- The ids of the pool without the first, which every pool has for the truth values. -/
def nullableIds (pool : Pool) : List ShapeId :=
  (List.range (pool.size - 1)).map fun i => ⟨i + 1⟩

section

variable {pool : Pool} {n steps : Nat} {inner inner' id : ShapeId}
  {result : Except ShapeError ShapeId}

/-- In every turn the search either ends or goes on. -/
theorem stops_or_isNullable (pool : Pool) (id : ShapeId) :
    (∃ result, pool.Stops id result) ∨ ∃ inner, pool.IsNullable inner id := by
  cases hslot : pool.slots[id.index]? with
  | none => exact .inl ⟨_, .unknown (List.getElem?_eq_none_iff.mp hslot)⟩
  | some slot =>
    obtain ⟨name, _ | known⟩ := slot
    · exact .inl ⟨_, .undefined hslot⟩
    · have hknown : pool.descriptor id = .ok known := descriptor_eq_ok_iff.mpr ⟨_, hslot, rfl⟩
      by_cases hkind : ∃ inner, known.kind = .nullable inner
      · obtain ⟨inner, hkind⟩ := hkind
        exact .inr ⟨inner, known, hknown, hkind⟩
      · exact .inl ⟨_, .described hknown (not_exists.mp hkind)⟩

theorem IsNullable.unique (h : pool.IsNullable inner id) (h' : pool.IsNullable inner' id) :
    inner' = inner := by
  obtain ⟨known, hknown, hkind⟩ := h
  obtain ⟨known', hknown', hkind'⟩ := h'
  cases hknown.symm.trans hknown'
  cases hkind.symm.trans hkind'
  rfl

theorem IsNullable.strip_eq (h : pool.IsNullable inner id) :
    pool.stripNullableWithin (steps + 1) id = pool.stripNullableWithin steps inner := by
  obtain ⟨known, hknown, hkind⟩ := h
  simp only [stripNullableWithin, hknown, hkind]

theorem Stops.strip_eq (h : pool.Stops id result) :
    pool.stripNullableWithin (steps + 1) id = result := by
  cases h with
  | described hknown hkind => simp only [stripNullableWithin, hknown]
  | unknown hsize => simp only [stripNullableWithin, pool.descriptor_eq_error hsize]
  | undefined hslot => simp only [stripNullableWithin, descriptor, hslot]

theorem Stops.not_isNullable (h : pool.Stops id result) : ¬ pool.IsNullable inner id := by
  rintro ⟨known, hknown, hkind⟩
  cases h with
  | described hknown' hne =>
    cases hknown.symm.trans hknown'
    exact hne inner hkind
  | unknown hsize => exact absurd (lt_size_of_descriptor hknown) (Nat.not_lt.mpr hsize)
  | undefined hslot =>
    obtain ⟨slot, hslot', hdescriptor⟩ := descriptor_eq_ok_iff.mp hknown
    cases hslot.symm.trans hslot'
    cases hdescriptor

/-- No shape that the search stops at is without end. -/
theorem Stops.ne_endless (h : pool.Stops id result) (x : ShapeId) :
    result ≠ .error (.endless x) := by
  cases h <;> simp

/-- The search that may take as many turns, or more, finds the result. -/
theorem Strips.strip_eq (h : pool.Strips n id result) (hle : n ≤ steps) :
    pool.stripNullableWithin steps id = result := by
  induction h generalizing steps with
  | stops h =>
    obtain ⟨steps, rfl⟩ : ∃ m, steps = m + 1 := ⟨steps - 1, by omega⟩
    exact h.strip_eq
  | follows h _ ih =>
    obtain ⟨steps, rfl⟩ : ∃ m, steps = m + 1 := ⟨steps - 1, by omega⟩
    rw [h.strip_eq]
    exact ih (by omega)

/-- The last turn is about a shape of the chain, which the search stops at. -/
theorem Strips.exists_last (h : pool.Strips n id result) :
    ∃ last, (last = id ∨ Relation.TransGen pool.IsNullable last id) ∧ pool.Stops last result := by
  induction h with
  | stops h => exact ⟨_, .inl rfl, h⟩
  | follows h _ ih =>
    obtain ⟨last, rfl | hlast, hstops⟩ := ih
    · exact ⟨last, .inr (.single h), hstops⟩
    · exact ⟨last, .inr (hlast.tail h), hstops⟩

/-- A nullable shape leads no further than the one it names. -/
theorem IsNullable.acc (h : pool.IsNullable inner id) (hinner : Acc pool.IsNullable inner) :
    Acc pool.IsNullable id :=
  ⟨id, fun inner' h' => by rwa [h.unique h']⟩

theorem Stops.acc (h : pool.Stops id result) : Acc pool.IsNullable id :=
  ⟨id, fun _ hinner => absurd hinner h.not_isNullable⟩

theorem Strips.acc (h : pool.Strips n id result) : Acc pool.IsNullable id := by
  induction h with
  | stops h => exact h.acc
  | follows h _ ih => exact h.acc ih

theorem mem_nullableIds (hinitial : Pool.initial.GrowsTo pool) (h : pool.IsNullable inner id) :
    id ∈ pool.nullableIds := by
  obtain ⟨known, hknown, hkind⟩ := h
  have hlt := lt_size_of_descriptor hknown
  have hpos : id.index ≠ 0 := by
    intro hzero
    obtain rfl : id = ShapeId.bool := congrArg ShapeId.mk hzero
    cases hknown.symm.trans (hinitial.descriptor rfl)
    cases hkind
  exact List.mem_map.mpr ⟨id.index - 1, List.mem_range.mpr (by omega),
    congrArg ShapeId.mk (by omega)⟩

/-- Where the chain of nullable shapes has an end, there are no more turns than shapes. The last one
may be about a shape that the pool does not hold, but not all that it holds are nullable. -/
theorem exists_strips_of_not_leadsAround (hinitial : Pool.initial.GrowsTo pool)
    (h : ¬ LeadsAround pool.IsNullable id) :
    ∃ n result, n ≤ pool.size ∧ pool.Strips n id result := by
  have hsize : 7 ≤ pool.size := hinitial.size_le
  rcases stops_or_isNullable pool id with ⟨result, hstops⟩ | hnullable
  · exact ⟨1, result, by omega, .stops hstops⟩
  · have hlength : pool.nullableIds.length = pool.size - 1 := by simp [nullableIds]
    have hnext (n : Nat) (id : ShapeId) (ih : ∀ inner, pool.NamesNullable inner id →
        (∃ next, pool.IsNullable next inner) → ∃ m result, m ≤ n + 1 ∧ pool.Strips m inner result)
        (hid : ∃ inner, pool.IsNullable inner id) :
        ∃ m result, m ≤ n + 2 ∧ pool.Strips m id result := by
      obtain ⟨inner, hinner⟩ := hid
      rcases stops_or_isNullable pool inner with ⟨result, hstops⟩ | hnext
      · exact ⟨2, result, by omega, .follows hinner (.stops hstops)⟩
      · obtain ⟨m, result, hm, hstrips⟩ := ih inner ⟨hinner, hnext⟩ hnext
        exact ⟨m + 1, result, by omega, .follows hinner hstrips⟩
    obtain ⟨n, result, hn, hstrips⟩ := holds_ahead_of_mem pool.NamesNullable
      (fun _ _ ⟨_, _, hnext⟩ => mem_nullableIds hinitial hnext)
      (fun n id => (∃ inner, pool.IsNullable inner id) →
        ∃ m result, m ≤ n + 1 ∧ pool.Strips m id result)
      hnext (fun haround => h (haround.imp fun _ _ hinner => hinner.1))
      (mem_nullableIds hinitial hnullable.choose_spec) hnullable
    exact ⟨n, result, by omega, hstrips⟩

/-- Where the nullable shapes lead around in a circle, the search does not end in any turn. -/
theorem not_strips_of_leadsAround (h : LeadsAround pool.IsNullable id) :
    ¬ pool.Strips n id result :=
  fun hstrips => not_leadsAround_of_acc hstrips.acc h

/-- There the search that is cut off finds nothing, however late it is cut off. -/
theorem strip_eq_endless (h : LeadsAround pool.IsNullable id) (steps : Nat) :
    ∃ x, pool.stripNullableWithin steps id = .error (.endless x) := by
  replace h : ¬ Acc pool.IsNullable id := fun hacc => not_leadsAround_of_acc hacc h
  induction steps generalizing id with
  | zero => exact ⟨id, rfl⟩
  | succ steps ih =>
    rcases stops_or_isNullable pool id with ⟨result, hstops⟩ | ⟨inner, hinner⟩
    · exact absurd hstops.acc h
    · rw [hinner.strip_eq]
      exact ih fun hacc => h (hinner.acc hacc)

/-- The search is cut off at a shape from which there is no end, if there is none from the first. -/
theorem acc_of_strip_eq_endless {x : ShapeId}
    (h : pool.stripNullableWithin steps id = .error (.endless x)) (hx : Acc pool.IsNullable x) :
    Acc pool.IsNullable id := by
  induction steps generalizing id with
  | zero =>
    cases h
    exact hx
  | succ steps ih =>
    rcases stops_or_isNullable pool id with ⟨result, hstops⟩ | ⟨inner, hinner⟩
    · exact hstops.acc
    · rw [hinner.strip_eq] at h
      exact hinner.acc (ih h)

/-- The search is cut off in no other case. -/
theorem leadsAround_of_endless (hinitial : Pool.initial.GrowsTo pool) {x : ShapeId}
    (h : pool.stripNullable id = .error (.endless x)) : LeadsAround pool.IsNullable x := by
  refine Classical.byContradiction fun hx => ?_
  have hacc : Acc pool.IsNullable x :=
    acc_of_not_leadsAround pool.nullableIds (fun _ _ h => mem_nullableIds hinitial h) hx
  have hid := not_leadsAround_of_acc (acc_of_strip_eq_endless h hacc)
  obtain ⟨n, result, hn, hstrips⟩ := exists_strips_of_not_leadsAround hinitial hid
  obtain ⟨last, -, hstops⟩ := hstrips.exists_last
  exact hstops.ne_endless x ((hstrips.strip_eq (Nat.le_succ_of_le hn)).symm.trans h)

end

end Pool

/-! ## Nullable shapes of described shapes -/

/-- If the descriptor is that of a nullable shape, the pool knows what it names. -/
def Descriptor.GroundedIn (d : Descriptor) (pool : Pool) : Prop :=
  ∀ inner, d.kind = .nullable inner → ∃ known, pool.descriptor inner = .ok known

namespace Pool

/-- The operation defines no nullable shape before the shape that it names. -/
def Operation.GroundedIn (pool : Pool) : Operation → Prop
  | define _ d | register d => d.GroundedIn pool
  | _ => True

/-- None of the operations does, one after the other. -/
def GroundedBy : Pool → List Operation → Prop
  | _, [] => True
  | pool, operation :: operations =>
    operation.GroundedIn pool ∧ GroundedBy (operation.apply pool) operations

/-- Nullable shapes name described shapes, and do not lead around in a circle. -/
structure Grounded (pool : Pool) : Prop where
  described : ∀ inner id, pool.IsNullable inner id → ∃ known, pool.descriptor inner = .ok known
  acc : ∀ id, Acc pool.IsNullable id

theorem grounded_initial : Pool.initial.Grounded := by
  have hnone (inner id : ShapeId) : ¬ Pool.initial.IsNullable inner id := by
    rintro ⟨known, hknown, hkind⟩
    have hother := of_descriptors (p := fun d => d.kind != .nullable inner) rfl hknown
    simp [hkind] at hother
  exact ⟨fun inner id h => absurd h (hnone inner id), fun id => ⟨id, fun inner h =>
    absurd h (hnone inner id)⟩⟩

namespace Grounded

variable {pool more : Pool} {d : Descriptor}

/-- A grounded pool grows by nullable shapes of the shapes that it knows. What it knows leads to
nothing else than before, and all that is new leads there. -/
theorem grows (h : pool.Grounded) (hgrows : pool.GrowsTo more)
    (hnew : ∀ inner id, more.IsNullable inner id →
      ∃ known, pool.descriptor inner = .ok known) : more.Grounded := by
  have hacc (id : ShapeId) (hid : ∃ known, pool.descriptor id = .ok known) :
      Acc more.IsNullable id := by
    induction h.acc id with
    | intro id _ ih =>
      refine ⟨id, fun inner hinner => ih inner ?_ (hnew inner id hinner)⟩
      obtain ⟨known, hknown⟩ := hid
      obtain ⟨known', hknown', hkind⟩ := hinner
      cases (hgrows.descriptor hknown).symm.trans hknown'
      exact ⟨known, hknown, hkind⟩
  refine ⟨fun inner id hinner => ?_, fun id => ⟨id, fun inner hinner => ?_⟩⟩
  · obtain ⟨known, hknown⟩ := hnew inner id hinner
    exact ⟨known, hgrows.descriptor hknown⟩
  · exact hacc inner (hnew inner id hinner)

theorem declare (h : pool.Grounded) (name : String) : (After (declare name) pool).Grounded := by
  refine h.grows (Growing.declare name pool) fun inner id ⟨known, hknown, hkind⟩ => ?_
  refine h.described inner id ⟨known, ?_, hkind⟩
  unfold After at hknown
  cases hl : pool.lookup name with
  | some _ => rwa [declare_of_lookup hl] at hknown
  | none =>
    rw [declare_of_lookup_eq_none hl] at hknown
    obtain ⟨slot, hslot, hdescriptor⟩ := descriptor_eq_ok_iff.mp hknown
    rw [getElem?_slots_push] at hslot
    split at hslot
    · cases hslot
      cases hdescriptor
    · exact descriptor_eq_ok_iff.mpr ⟨slot, hslot, hdescriptor⟩

theorem define (h : pool.Grounded) (hd : d.GroundedIn pool) (id : ShapeId) :
    (After (define id d) pool).Grounded := by
  refine h.grows (Growing.define id d pool) fun inner id' hinner => ?_
  have hcases : pool.IsNullable inner id' ∨ d.kind = .nullable inner := by
    obtain ⟨known, hknown, hkind⟩ := hinner
    unfold Pool.define at hknown
    rw [after_get_bind] at hknown
    split at hknown
    · exact .inl ⟨known, hknown, hkind⟩
    · rename_i slot hslot
      split at hknown
      · exact .inl ⟨known, hknown, hkind⟩
      · split at hknown
        · split at hknown
          · exact .inl ⟨known, hknown, hkind⟩
          · exact .inl ⟨known, hknown, hkind⟩
        · obtain ⟨slot', hslot', hdescriptor⟩ := descriptor_eq_ok_iff.mp hknown
          by_cases hid : id.index = id'.index
          · have hlt : id.index < pool.slots.length := (List.getElem?_eq_some_iff.mp hslot).1
            rw [← hid] at hslot'
            cases (List.getElem?_set_self hlt).symm.trans hslot'
            cases hdescriptor
            exact .inr hkind
          · refine .inl ⟨known, descriptor_eq_ok_iff.mpr ⟨slot', ?_, hdescriptor⟩, hkind⟩
            exact (List.getElem?_set_ne hid).symm.trans hslot'
  exact hcases.elim (h.described inner id') (hd inner)

theorem register (h : pool.Grounded) (hd : d.GroundedIn pool) :
    (After (register d) pool).Grounded := by
  have hdeclare := h.declare d.name
  have hd' : d.GroundedIn (After (Pool.declare d.name) pool) := fun inner hinner =>
    (hd inner hinner).imp fun _ hknown => (Growing.declare d.name pool).descriptor hknown
  refine after_bind hdeclare fun id declared hok hdeclared => ?_
  rw [After, hok] at hd'
  exact after_bind (hdeclared.define hd' id) fun _ _ _ hdefined => hdefined

/-- What is not nullable is grounded in every pool. -/
theorem register_of_ne (h : pool.Grounded) (hkind : ∀ inner, d.kind ≠ .nullable inner) :
    (After (Pool.register d) pool).Grounded :=
  h.register fun inner hinner => absurd hinner (hkind inner)

theorem declaredName_bind (h : pool.Grounded) (id : ShapeId) {d : String → Descriptor}
    (hkind : ∀ name inner, (d name).kind ≠ .nullable inner) :
    (After (declaredName id >>= fun name => Pool.register (d name)) pool).Grounded := by
  have hname : After (declaredName id) pool = pool := by
    rw [declaredName, after_get_bind]
    cases pool.slots[id.index]? <;> rfl
  exact after_bind (hname.symm ▸ h) fun name _ _ hpool => hpool.register_of_ne (hkind name)

/-- The nullable shape of a shape is built when that is described. -/
theorem nullable (h : pool.Grounded) (id : ShapeId) : (After (nullable id) pool).Grounded := by
  cases hknown : pool.descriptor id with
  | error e =>
    rwa [Pool.nullable, after_get_bind, hknown]
  | ok known =>
    by_cases hkind : ∃ inner, known.kind = .nullable inner
    · obtain ⟨inner, hkind⟩ := hkind
      rwa [After, nullable_of_isNullable ⟨known, hknown, hkind⟩]
    · rw [After, nullable_of_ne hknown (not_exists.mp hkind)]
      refine h.register fun inner hinner => ?_
      cases hinner
      exact ⟨known, hknown⟩

theorem arrayOf (h : pool.Grounded) (id : ShapeId) : (After (arrayOf id) pool).Grounded :=
  h.declaredName_bind id nofun

theorem listOf (h : pool.Grounded) (id : ShapeId) : (After (listOf id) pool).Grounded :=
  h.declaredName_bind id nofun

theorem intern (h : pool.Grounded) (expr : ShapeExpr) : (After expr.intern pool).Grounded := by
  induction expr with
  | primitive kind => exact h
  | list element ih => exact after_bind ih fun id _ _ hpool => hpool.listOf id
  | nullable inner ih => exact after_bind ih fun id _ _ hpool => hpool.nullable id

theorem apply (h : pool.Grounded) {operation : Operation} (ho : operation.GroundedIn pool) :
    (operation.apply pool).Grounded := by
  cases operation with
  | declare name => exact h.declare name
  | define id d => exact h.define ho id
  | register d => exact h.register ho
  | arrayOf element => exact h.arrayOf element
  | listOf element => exact h.listOf element
  | nullable inner => exact h.nullable inner
  | insertable name element => exact h.register_of_ne nofun
  | opaqueCollection name element => exact h.register_of_ne nofun
  | intern expr => exact h.intern expr

theorem foldl_apply (h : pool.Grounded) {operations : List Operation}
    (ho : GroundedBy pool operations) : (operations.foldl Operation.apply pool).Grounded := by
  induction operations generalizing pool with
  | nil => exact h
  | cons operation operations ih => exact ih (h.apply ho.1) ho.2

theorem not_leadsAround (h : pool.Grounded) (id : ShapeId) : ¬ LeadsAround pool.IsNullable id :=
  not_leadsAround_of_acc (h.acc id)

end Grounded

/-! ## After operations -/

/-- A compilation is cut off only at a shape from which nullable shapes lead around in a circle. -/
theorem leadsAround_of_met {pool : Pool} (hinitial : Pool.initial.GrowsTo pool) {x : ShapeId}
    (h : CompileError.Met pool (.shape (.endless x))) : LeadsAround pool.IsNullable x := by
  cases h with
  | descriptor h => exact (pool.descriptor_failsPlainly _ _ h).elim
  | stripNullable h => exact leadsAround_of_endless hinitial h

/-- Whatever has been done to a pool : from a shape whose nullable shapes do not lead around in a
circle, the search below them ends after no more turns than there are shapes, with a described shape
that is not nullable, or with the error of the shape of which the pool does not know what it is.
From any other shape it does not end. Nothing else is without end where a routine, a plan for a
collection or the program for an instance is compiled. And there are no circles unless a nullable
shape has been defined before the shape that it names. -/
theorem stripNullable_after_operations (operations : List Operation) :
    let pool := operations.foldl Operation.apply Pool.initial
    (∀ id, ¬ LeadsAround pool.IsNullable id → ∃ n last result, n ≤ pool.size ∧
      pool.Strips n id result ∧ pool.stripNullable id = result ∧
      (last = id ∨ Relation.TransGen pool.IsNullable last id) ∧ pool.Stops last result) ∧
      (∀ id, LeadsAround pool.IsNullable id → (∀ n result, ¬ pool.Strips n id result) ∧
        ∀ steps, ∃ x, pool.stripNullableWithin steps id = .error (.endless x)) ∧
      (∀ (mapping : Mapping) (source target x : ShapeId),
        mapping.plan pool source target = .error (.shape (.endless x)) →
          LeadsAround pool.IsNullable x) ∧
      (∀ (mapping : Mapping) (source target x : ShapeId) (sourceShape targetShape : Descriptor),
        planCollection pool mapping source sourceShape target targetShape =
          .error (.shape (.endless x)) → LeadsAround pool.IsNullable x) ∧
      (∀ shape x : ShapeId, instanceProgram pool shape = .error (.shape (.endless x)) →
        LeadsAround pool.IsNullable x) ∧
      (GroundedBy Pool.initial operations → ∀ id, ¬ LeadsAround pool.IsNullable id) := by
  intro pool
  have hinitial : Pool.initial.GrowsTo pool := growsTo_foldl operations Pool.initial
  refine ⟨fun id hid => ?_, fun id hid => ⟨fun n result => not_strips_of_leadsAround hid,
    strip_eq_endless hid⟩, fun mapping source target x h => ?_,
    fun mapping source target x sourceShape targetShape h => ?_, fun shape x h => ?_,
    fun ho => (grounded_initial.foldl_apply ho).not_leadsAround⟩
  · obtain ⟨n, result, hn, hstrips⟩ := exists_strips_of_not_leadsAround hinitial hid
    obtain ⟨last, hlast, hstops⟩ := hstrips.exists_last
    exact ⟨n, last, result, hn, hstrips, hstrips.strip_eq (Nat.le_succ_of_le hn), hlast, hstops⟩
  · exact leadsAround_of_met hinitial (Mapping.plan_failsBy source target _ h)
  · exact leadsAround_of_met hinitial (Mapping.planCollection_failsBy source target _ _ _ h)
  · exact leadsAround_of_met hinitial (Mapping.instanceProgram_failsBy shape _ h)

/-- The pool after a declared shape has been defined as its own nullable shape. -/
def selfNullable : Pool :=
  [Operation.declare "a", .define ⟨7⟩ (.ofNullable "a" ⟨7⟩)].foldl Operation.apply Pool.initial

/-- There the search below the shape does not end, and so not after as many turns as there are
shapes. -/
theorem not_strips_selfNullable :
    selfNullable.IsNullable ⟨7⟩ ⟨7⟩ ∧
      (¬ ∃ n result, n ≤ selfNullable.size ∧ selfNullable.Strips n ⟨7⟩ result) ∧
      selfNullable.stripNullable ⟨7⟩ = .error (.endless ⟨7⟩) := by
  have hself : selfNullable.IsNullable ⟨7⟩ ⟨7⟩ := ⟨.ofNullable "a" ⟨7⟩, rfl, rfl⟩
  refine ⟨hself, fun ⟨n, result, _, hstrips⟩ => ?_, rfl⟩
  exact not_strips_of_leadsAround ⟨⟨7⟩, .inl rfl, .single hself⟩ hstrips

end Pool

end Reshape
