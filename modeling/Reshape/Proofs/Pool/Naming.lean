import Reshape.Proofs.Pool.Growth

/-!
# Names and ids

A pool keeps its shapes in the order of their ids, and beside them the id of every name. The two
are filled by different operations, and `Pool.WellNamed` says that they agree : every shape is found
under its name, nothing else is found, and what a shape stands for has the name that was declared.

Every operation keeps that, whether it succeeds or fails, and the id it answers is one of the pool's
(`Pool.Naming`). So the ids of a pool are the numbers below its size, one for each name, whatever
has been done to it, and nothing that is done afterwards changes what one of them stands for
(`Pool.names_after_operations`).
-/

namespace Reshape

namespace Pool

/-! ## Well-named pools -/

/-- The index of names and the list of shapes agree. -/
structure WellNamed (pool : Pool) : Prop where
  found : ∀ (i : Nat) (slot : Slot), pool.slots[i]? = some slot → pool.lookup slot.name = some ⟨i⟩
  bound : ∀ (name : String) (id : ShapeId), pool.lookup name = some id →
    ∃ slot, pool.slots[id.index]? = some slot ∧ slot.name = name
  described : ∀ (i : Nat) (slot : Slot) (known : Descriptor), pool.slots[i]? = some slot →
    slot.descriptor? = some known → known.name = slot.name

theorem lookup_push (pool : Pool) (slot : Slot) (name : String) :
    (pool.push slot).lookup name =
      if name = slot.name then some ⟨pool.size⟩ else pool.lookup name := by
  unfold lookup push
  rw [List.lookup_cons]
  split <;> simp_all

@[simp] theorem size_push (pool : Pool) (slot : Slot) : (pool.push slot).size = pool.size + 1 := by
  simp [push, size]

theorem getElem?_slots_push (pool : Pool) (slot : Slot) (i : Nat) :
    (pool.push slot).slots[i]? = if i = pool.size then some slot else pool.slots[i]? := by
  unfold push size
  split
  · rename_i hi
    rw [hi, List.getElem?_concat_length]
  · rename_i hi
    rcases Nat.lt_or_gt_of_ne hi with hlt | hgt
    · exact List.getElem?_append_left hlt
    · have hge : pool.slots.length ≤ i := Nat.le_of_lt hgt
      rw [List.getElem?_eq_none hge, List.getElem?_eq_none (by rw [List.length_append]; exact hgt)]

theorem getElem?_slots_of_lt {pool : Pool} {id : ShapeId} (h : id.index < pool.size) :
    ∃ slot, pool.slots[id.index]? = some slot :=
  ⟨_, List.getElem?_eq_getElem h⟩

theorem nameOf_eq {pool : Pool} {id : ShapeId} {slot : Slot}
    (h : pool.slots[id.index]? = some slot) : pool.nameOf id = slot.name := by
  rw [nameOf, h]

namespace WellNamed

variable {pool : Pool}

theorem empty : WellNamed ⟨[], []⟩ where
  found _ _ h := nomatch h
  bound _ _ h := nomatch h
  described _ _ _ h := nomatch h

/-- A shape under a new name. -/
theorem push (h : pool.WellNamed) {slot : Slot} (hnew : pool.lookup slot.name = none)
    (hdescribed : ∀ known, slot.descriptor? = some known → known.name = slot.name) :
    (pool.push slot).WellNamed where
  found i other hother := by
    rw [getElem?_slots_push] at hother
    rw [lookup_push]
    split at hother
    · rename_i hi
      cases hother
      rw [if_pos rfl, hi]
    · have hfound := h.found i other hother
      have hname : other.name ≠ slot.name := by
        intro heq
        rw [heq, hnew] at hfound
        cases hfound
      rw [if_neg hname, hfound]
  bound name id hid := by
    rw [lookup_push] at hid
    split at hid
    · rename_i hname
      cases hid
      exact ⟨slot, by rw [getElem?_slots_push, if_pos rfl], hname.symm⟩
    · obtain ⟨other, hother, hname⟩ := h.bound name id hid
      have hlt : id.index < pool.size := (List.getElem?_eq_some_iff.mp hother).1
      exact ⟨other, by rw [getElem?_slots_push, if_neg (Nat.ne_of_lt hlt), hother], hname⟩
  described i other known hother hknown := by
    rw [getElem?_slots_push] at hother
    split at hother
    · cases hother
      exact hdescribed known hknown
    · exact h.described i other known hother hknown

/-- Described shapes under new names, all of them different. -/
theorem foldl_push (h : pool.WellNamed) (ds : List Descriptor) (hnodup : (ds.map (·.name)).Nodup)
    (hnew : ∀ d ∈ ds, pool.lookup d.name = none) :
    (ds.foldl (fun pool d => pool.push ⟨d.name, some d⟩) pool).WellNamed := by
  induction ds generalizing pool with
  | nil => exact h
  | cons d ds ih =>
    obtain ⟨hd, hnodup⟩ := List.nodup_cons.mp hnodup
    have hpush : (pool.push ⟨d.name, some d⟩).WellNamed := by
      refine h.push (hnew d List.mem_cons_self) fun known hknown => ?_
      cases hknown
      rfl
    refine ih hpush hnodup fun d' hd' => ?_
    have hname : d'.name ≠ d.name := fun heq => hd (List.mem_map.mpr ⟨d', hd', heq⟩)
    rw [lookup_push, if_neg hname]
    exact hnew d' (List.mem_cons_of_mem d hd')

theorem initial : Pool.initial.WellNamed :=
  empty.foldl_push initialDescriptors (by decide) fun _ _ => rfl

/-- Saying what a shape stands for, in its own name. -/
theorem describe (h : pool.WellNamed) {id : ShapeId} {slot : Slot}
    (hslot : pool.slots[id.index]? = some slot) {descriptor : Descriptor}
    (hname : slot.name = descriptor.name) :
    WellNamed { pool with slots := pool.slots.set id.index ⟨slot.name, some descriptor⟩ } := by
  have hlt : id.index < pool.slots.length := (List.getElem?_eq_some_iff.mp hslot).1
  have hself : (pool.slots.set id.index ⟨slot.name, some descriptor⟩)[id.index]? =
    some ⟨slot.name, some descriptor⟩ := List.getElem?_set_self hlt
  refine ⟨fun i other hother => ?_, fun name id' hid' => ?_, fun i other known hother hknown => ?_⟩
  · by_cases hi : id.index = i
    · subst hi
      cases hself.symm.trans hother
      exact h.found id.index slot hslot
    · exact h.found i other ((List.getElem?_set_ne hi).symm.trans hother)
  · obtain ⟨other, hother, rfl⟩ := h.bound name id' hid'
    by_cases hi : id.index = id'.index
    · cases hslot.symm.trans (hi ▸ hother)
      exact ⟨⟨slot.name, some descriptor⟩, hi ▸ hself, rfl⟩
    · exact ⟨other, (List.getElem?_set_ne hi).trans hother, rfl⟩
  · by_cases hi : id.index = i
    · subst hi
      cases hself.symm.trans hother
      cases hknown
      exact hname.symm
    · exact h.described i other known ((List.getElem?_set_ne hi).symm.trans hother) hknown

theorem lookup_nameOf (h : pool.WellNamed) {id : ShapeId} (hid : id.index < pool.size) :
    pool.lookup (pool.nameOf id) = some id := by
  obtain ⟨slot, hslot⟩ := getElem?_slots_of_lt hid
  rw [nameOf_eq hslot]
  exact h.found id.index slot hslot

theorem nameOf_of_lookup (h : pool.WellNamed) {name : String} {id : ShapeId}
    (hid : pool.lookup name = some id) : pool.nameOf id = name := by
  obtain ⟨slot, hslot, hname⟩ := h.bound name id hid
  exact (nameOf_eq hslot).trans hname

theorem lt_size_of_lookup (h : pool.WellNamed) {name : String} {id : ShapeId}
    (hid : pool.lookup name = some id) : id.index < pool.size := by
  obtain ⟨slot, hslot, -⟩ := h.bound name id hid
  exact (List.getElem?_eq_some_iff.mp hslot).1

theorem exists_lookup_iff (h : pool.WellNamed) (id : ShapeId) :
    (∃ name, pool.lookup name = some id) ↔ id.index < pool.size :=
  ⟨fun ⟨_, hid⟩ => h.lt_size_of_lookup hid, fun hid => ⟨_, h.lookup_nameOf hid⟩⟩

theorem name_of_descriptor (h : pool.WellNamed) {id : ShapeId} {known : Descriptor}
    (hknown : pool.descriptor id = .ok known) : known.name = pool.nameOf id := by
  obtain ⟨slot, hslot, hdescriptor⟩ := descriptor_eq_ok_iff.mp hknown
  rw [nameOf_eq hslot]
  exact h.described id.index slot known hslot hdescriptor

end WellNamed

/-! ## Operations -/

/-- A well-named pool stays one, and what is answered has `p` there. -/
def Naming {α : Type} (p : α → Pool → Prop) (x : PoolM α) : Prop :=
  ∀ pool : Pool, pool.WellNamed →
    Ensures x pool (fun a after => after.WellNamed ∧ p a after) fun _ after => after.WellNamed

/-- The pool holds the shape, described or not. -/
def Holds (id : ShapeId) (pool : Pool) : Prop :=
  id.index < pool.size

namespace Naming

variable {α β : Type} {p : α → Pool → Prop} {q : β → Pool → Prop}

theorem bind {x : PoolM α} {f : α → PoolM β} (hx : Naming p x)
    (hf : ∀ a pool, pool.WellNamed → p a pool →
      Ensures (f a) pool (fun b after => after.WellNamed ∧ q b after)
        fun _ after => after.WellNamed) :
    Naming q (x >>= f) :=
  fun pool hpool =>
    .bind ((hx pool hpool).mono (fun a after h => hf a after h.1 h.2) fun _ _ h => h)

/-- Where nothing has to be known of what was answered first. -/
theorem bind' {x : PoolM α} {f : α → PoolM β} (hx : Naming p x) (hf : ∀ a, Naming q (f a)) :
    Naming q (x >>= f) :=
  hx.bind fun a pool hpool _ => hf a pool hpool

theorem declare (name : String) : Naming Holds (Pool.declare name) := by
  intro pool hpool
  cases hl : pool.lookup name with
  | some id => exact .of_ok (declare_of_lookup hl) ⟨hpool, hpool.lt_size_of_lookup hl⟩
  | none =>
    have hlt : pool.size < (pool.push ⟨name, none⟩).size := by simp
    exact .of_ok (declare_of_lookup_eq_none hl) ⟨hpool.push hl nofun, hlt⟩

theorem define (id : ShapeId) (descriptor : Descriptor) :
    Naming (fun _ after => Holds id after) (Pool.define id descriptor) := by
  intro pool hpool
  unfold Pool.define
  refine .of_eq (get_bind _ pool) ?_
  split
  · exact .throw hpool
  · rename_i slot hslot
    have hlt : id.index < pool.size := (List.getElem?_eq_some_iff.mp hslot).1
    split
    · exact .throw hpool
    · rename_i hname
      split
      · split
        · exact .pure ⟨hpool, hlt⟩
        · exact .throw hpool
      · refine .of_ok rfl ⟨hpool.describe hslot (Decidable.not_not.mp hname), ?_⟩
        simpa [Holds, size] using hlt

theorem register (descriptor : Descriptor) : Naming Holds (Pool.register descriptor) :=
  .bind' (.declare _) fun id =>
    .bind (.define id descriptor) fun _ _ hpool hid => .pure ⟨hpool, hid⟩

theorem declaredName (id : ShapeId) : Naming (fun _ _ => True) (Pool.declaredName id) := by
  intro pool hpool
  refine .of_eq (get_bind _ pool) ?_
  split
  · exact .throw hpool
  · exact .pure ⟨hpool, trivial⟩

theorem arrayOf (element : ShapeId) : Naming Holds (Pool.arrayOf element) :=
  .bind' (.declaredName element) fun _ => .register _

theorem listOf (element : ShapeId) : Naming Holds (Pool.listOf element) :=
  .bind' (.declaredName element) fun _ => .register _

theorem nullable (inner : ShapeId) : Naming Holds (Pool.nullable inner) := by
  intro pool hpool
  refine .of_eq (get_bind _ pool) ?_
  split
  · exact .throw hpool
  · rename_i known hknown
    split
    · exact .pure ⟨hpool, lt_size_of_descriptor hknown⟩
    · exact register _ pool hpool

/-- The pool holds the primitives, which are answered without looking. -/
theorem intern (expr : ShapeExpr) (pool : Pool) (hpool : pool.WellNamed)
    (hsize : Pool.initial.size ≤ pool.size) :
    Ensures expr.intern pool (fun id after => after.WellNamed ∧ Holds id after)
      fun _ after => after.WellNamed := by
  induction expr with
  | primitive kind =>
    have hkind : kind.shape.index < Pool.initial.size := by cases kind <;> decide
    exact .pure ⟨hpool, Nat.lt_of_lt_of_le hkind hsize⟩
  | list element ih => exact .bind (ih.mono (fun id after h => listOf id after h.1) fun _ _ h => h)
  | nullable inner ih =>
    exact .bind (ih.mono (fun id after h => nullable id after h.1) fun _ _ h => h)

end Naming

/-- The id that an operation answers, if it answers one. -/
def Operation.answer? (pool : Pool) : Operation → Option ShapeId
  | declare name => (Pool.declare name).run' pool
  | define _ _ => none
  | register descriptor => (Pool.register descriptor).run' pool
  | arrayOf element => (Pool.arrayOf element).run' pool
  | listOf element => (Pool.listOf element).run' pool
  | nullable inner => (Pool.nullable inner).run' pool
  | insertable name element => (Pool.insertable name element).run' pool
  | opaqueCollection name element => (Pool.opaqueCollection name element).run' pool
  | intern expr => expr.intern.run' pool

theorem holds_of_run' {x : PoolM ShapeId} {pool : Pool}
    (h : Ensures x pool (fun id after => after.WellNamed ∧ Holds id after)
      fun _ after => after.WellNamed) :
    (After x pool).WellNamed ∧ ∀ id, x.run' pool = some id → Holds id (After x pool) := by
  unfold Ensures at h
  unfold After EStateM.run' EStateM.run
  cases hx : x pool with
  | error e after =>
    rw [hx] at h
    exact ⟨h, nofun⟩
  | ok id after =>
    rw [hx] at h
    refine ⟨h.1, fun id' hid => ?_⟩
    cases hid
    exact h.2

/-- One operation keeps the pool well-named, and answers an id of it. -/
theorem Operation.naming (operation : Operation) {pool : Pool} (h : pool.WellNamed)
    (hsize : Pool.initial.size ≤ pool.size) :
    (operation.apply pool).WellNamed ∧
      ∀ id, operation.answer? pool = some id → Holds id (operation.apply pool) := by
  cases operation with
  | declare name => exact holds_of_run' (Naming.declare name pool h)
  | define id descriptor =>
    have hdefine := Naming.define id descriptor pool h
    exact ⟨Ensures.after (hdefine.mono (fun _ _ h => h.1) fun _ _ h => h), nofun⟩
  | register descriptor => exact holds_of_run' (Naming.register descriptor pool h)
  | arrayOf element => exact holds_of_run' (Naming.arrayOf element pool h)
  | listOf element => exact holds_of_run' (Naming.listOf element pool h)
  | nullable inner => exact holds_of_run' (Naming.nullable inner pool h)
  | insertable name element => exact holds_of_run' (Naming.register _ pool h)
  | opaqueCollection name element => exact holds_of_run' (Naming.register _ pool h)
  | intern expr => exact holds_of_run' (Naming.intern expr pool h hsize)

theorem WellNamed.foldl_apply {pool : Pool} (h : pool.WellNamed)
    (hinitial : Pool.initial.GrowsTo pool) (operations : List Operation) :
    (operations.foldl Operation.apply pool).WellNamed := by
  induction operations generalizing pool with
  | nil => exact h
  | cons operation operations ih =>
    exact ih (operation.naming h hinitial.size_le).1 (hinitial.trans (operation.growsTo pool))

theorem descriptor_initial {i : Nat} {known : Descriptor}
    (h : initialDescriptors[i]? = some known) : Pool.initial.descriptor ⟨i⟩ = .ok known := by
  have hslots : Pool.initial.slots = initialDescriptors.map fun d => ⟨d.name, some d⟩ := rfl
  refine descriptor_eq_ok_iff.mpr ⟨⟨known.name, some known⟩, ?_, rfl⟩
  rw [hslots, List.getElem?_map, h]
  rfl

theorem descriptor_eq_unknown_iff {pool : Pool} {id : ShapeId} :
    pool.descriptor id = .error (.unknown id) ↔ ¬ id.index < pool.size := by
  rw [size, Nat.not_lt, ← List.getElem?_eq_none_iff, descriptor]
  cases pool.slots[id.index]? with
  | none => simp
  | some slot =>
    dsimp only
    cases slot.descriptor? <;> simp

/-- A name is declared for ever. -/
theorem GrowsTo.nameOf_of_lt {pool more : Pool} (h : pool.GrowsTo more) {id : ShapeId}
    (hid : id.index < pool.size) : more.nameOf id = pool.nameOf id := by
  obtain ⟨slot, hslot⟩ := getElem?_slots_of_lt hid
  obtain ⟨slot', hslot', hg⟩ := h _ slot hslot
  rw [nameOf_eq hslot, nameOf_eq hslot', hg.name]

/-- Whatever has been done to a pool, and with what success : its ids are the numbers below its
size, and no operation answers another one ; each is found under its name, and under no other ; what
it stands for has that name ; the first seven are the shapes that every pool starts with. And
whatever is done afterwards, an id keeps its name, and what it stands for once that is known. -/
theorem names_after_operations (operations more : List Operation) :
    let pool := operations.foldl Operation.apply Pool.initial
    let later := more.foldl Operation.apply pool
    (∀ id, (∃ name, pool.lookup name = some id) ↔ id.index < pool.size) ∧
      (∀ id, pool.descriptor id = .error (.unknown id) ↔ ¬ id.index < pool.size) ∧
      (∀ operation id, Operation.answer? pool operation = some id →
        id.index < (operation.apply pool).size) ∧
      (∀ id, id.index < pool.size → pool.lookup (pool.nameOf id) = some id) ∧
      (∀ name id, pool.lookup name = some id → pool.nameOf id = name) ∧
      (∀ id known, pool.descriptor id = .ok known → known.name = pool.nameOf id) ∧
      (∀ i known, initialDescriptors[i]? = some known → pool.descriptor ⟨i⟩ = .ok known) ∧
      (∀ id, id.index < pool.size → id.index < later.size ∧ later.nameOf id = pool.nameOf id) ∧
      (∀ id known, pool.descriptor id = .ok known → later.descriptor id = .ok known) := by
  intro pool later
  have hinitial : Pool.initial.GrowsTo pool := growsTo_foldl operations Pool.initial
  have hlater : pool.GrowsTo later := growsTo_foldl more pool
  have hpool : pool.WellNamed := WellNamed.initial.foldl_apply (.refl _) operations
  refine ⟨hpool.exists_lookup_iff, fun _ => descriptor_eq_unknown_iff, ?_,
    fun _ => hpool.lookup_nameOf, fun _ _ => hpool.nameOf_of_lookup,
    fun _ _ => hpool.name_of_descriptor, ?_, ?_, fun _ _ => hlater.descriptor⟩
  · exact fun operation => (operation.naming hpool hinitial.size_le).2
  · exact fun i known h => hinitial.descriptor (descriptor_initial h)
  · exact fun id hid => ⟨Nat.lt_of_lt_of_le hid hlater.size_le, hlater.nameOf_of_lt hid⟩

/-- A record that has taken the name of an array keeps it. -/
example : let pool := (Operation.register (.ofRecord "[int]" [])).apply Pool.initial
    Operation.answer? pool (.arrayOf ShapeId.int) = none ∧
      (Operation.arrayOf ShapeId.int).apply pool = pool := by
  decide +kernel

end Pool

end Reshape
