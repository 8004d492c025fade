import Reshape.Proofs.Pool.Failure
import Reshape.Routine.Basic

/-!
# Growing pools

No operation takes anything from a pool : names stay declared, and what a shape stands for
never changes (`Pool.Operation.growsTo`). So the pools that are reached from the initial one
all hold its shapes (`Pool.Reachable.of_initial`).

What succeeds in a pool succeeds in the same way in every pool that it grows to (`Follows`) :
looking below nullable shapes, zero values and templates. So the plan for two shapes and the body of
their routine stay the same, unless they have failed for want of a shape (`Steady`).
-/

set_option linter.unusedSectionVars false

namespace Reshape

/-! ## Operations -/

/-- The slot keeps its name, and what it stands for once that is defined. -/
structure Slot.GrowsTo (slot more : Slot) : Prop where
  name : more.name = slot.name
  descriptor? : ∀ known, slot.descriptor? = some known → more.descriptor? = some known

/-- Every slot of `pool` is there in `more`, at the same place. -/
def Pool.GrowsTo (pool more : Pool) : Prop :=
  ∀ (i : Nat) (slot : Slot), pool.slots[i]? = some slot →
    ∃ slot' : Slot, more.slots[i]? = some slot' ∧ slot.GrowsTo slot'

namespace Pool

/-- What may be done to a pool from outside. -/
inductive Operation where
  | declare (name : String)
  | define (id : ShapeId) (descriptor : Descriptor)
  | register (descriptor : Descriptor)
  | arrayOf (element : ShapeId)
  | listOf (element : ShapeId)
  | nullable (inner : ShapeId)
  | insertable (name : String) (element : Option ShapeId)
  | opaqueCollection (name : String) (element : Option ShapeId)
  | intern (expr : ShapeExpr)

/-- The pool after an operation, whether it has failed or not. -/
def Operation.apply (pool : Pool) : Operation → Pool
  | declare name => After (Pool.declare name) pool
  | define id descriptor => After (Pool.define id descriptor) pool
  | register descriptor => After (Pool.register descriptor) pool
  | arrayOf element => After (Pool.arrayOf element) pool
  | listOf element => After (Pool.listOf element) pool
  | nullable inner => After (Pool.nullable inner) pool
  | insertable name element => After (Pool.insertable name element) pool
  | opaqueCollection name element => After (Pool.opaqueCollection name element) pool
  | intern expr => After expr.intern pool

/-- The pools that are reached from the initial one. -/
inductive Reachable : Pool → Prop
  | initial : Reachable Pool.initial
  | apply {pool : Pool} (operation : Operation) (h : Reachable pool) :
    Reachable (operation.apply pool)

namespace GrowsTo

variable {pool more : Pool}

theorem refl (pool : Pool) : pool.GrowsTo pool :=
  fun _ slot h => ⟨slot, h, rfl, fun _ h => h⟩

theorem trans {most : Pool} (h : pool.GrowsTo more) (h' : more.GrowsTo most) :
    pool.GrowsTo most := by
  intro i slot hslot
  obtain ⟨slot₁, hslot₁, hg⟩ := h i slot hslot
  obtain ⟨slot₂, hslot₂, hg'⟩ := h' i slot₁ hslot₁
  exact ⟨slot₂, hslot₂, hg'.name.trans hg.name,
    fun known hknown => hg'.descriptor? known (hg.descriptor? known hknown)⟩

theorem descriptor (h : pool.GrowsTo more) {id : ShapeId} {known : Descriptor}
    (hknown : pool.descriptor id = .ok known) : more.descriptor id = .ok known := by
  obtain ⟨slot, hslot, hdescriptor⟩ := descriptor_eq_ok_iff.mp hknown
  obtain ⟨slot', hslot', hg⟩ := h _ slot hslot
  exact descriptor_eq_ok_iff.mpr ⟨slot', hslot', hg.descriptor? known hdescriptor⟩

/-- A described shape keeps its name. -/
theorem nameOf (h : pool.GrowsTo more) {id : ShapeId} {known : Descriptor}
    (hknown : pool.descriptor id = .ok known) : more.nameOf id = pool.nameOf id := by
  obtain ⟨slot, hslot, -⟩ := descriptor_eq_ok_iff.mp hknown
  obtain ⟨slot', hslot', hg⟩ := h _ slot hslot
  rw [Pool.nameOf, Pool.nameOf, hslot, hslot']
  exact hg.name

theorem size_le (h : pool.GrowsTo more) : pool.size ≤ more.size := by
  rcases Nat.lt_or_ge more.size pool.size with hi | hle
  · obtain ⟨slot', hslot', -⟩ := h more.size _ (List.getElem?_eq_getElem hi)
    exact absurd (List.getElem?_eq_some_iff.mp hslot').1 (Nat.lt_irrefl _)
  · exact hle

end GrowsTo

theorem growsTo_set {pool : Pool} {i : Nat} {slot : Slot} (hslot : pool.slots[i]? = some slot)
    (hnone : slot.descriptor? = none) (descriptor : Descriptor) :
    pool.GrowsTo { pool with slots := pool.slots.set i ⟨slot.name, some descriptor⟩ } := by
  intro j slot' hslot'
  by_cases hij : i = j
  · subst hij
    obtain rfl := Option.some.inj (hslot.symm.trans hslot')
    have hi : i < pool.slots.length := (List.getElem?_eq_some_iff.mp hslot).1
    refine ⟨_, List.getElem?_set_self hi, rfl, fun known hknown => ?_⟩
    rw [hnone] at hknown
    cases hknown
  · exact ⟨slot', by rw [List.getElem?_set_ne hij, hslot'], rfl, fun _ h => h⟩

/-- The operation only lets pools grow. -/
def Growing {α : Type} (x : PoolM α) : Prop :=
  ∀ pool : Pool, pool.GrowsTo (After x pool)

namespace Growing

variable {α β : Type}

theorem pure (a : α) : Growing (Pure.pure a : PoolM α) :=
  fun pool => .refl pool

theorem throw (e : ShapeError) : Growing (MonadExcept.throw e : PoolM α) :=
  fun pool => .refl pool

theorem get : Growing (MonadState.get : PoolM Pool) :=
  fun pool => .refl pool

theorem bind {x : PoolM α} {f : α → PoolM β} (hx : Growing x) (hf : ∀ a, Growing (f a)) :
    Growing (x >>= f) :=
  fun pool => after_bind (hx pool) fun a pool' _ h => h.trans (hf a pool')

theorem declare (name : String) : Growing (Pool.declare name) := by
  intro pool
  unfold After
  cases hl : pool.lookup name with
  | some id =>
    rw [declare_of_lookup hl]
    exact .refl pool
  | none =>
    rw [declare_of_lookup_eq_none hl]
    intro i slot hslot
    have hi : i < pool.slots.length := (List.getElem?_eq_some_iff.mp hslot).1
    exact ⟨slot, (List.getElem?_append_left hi).trans hslot, rfl, fun _ h => h⟩

theorem define (id : ShapeId) (descriptor : Descriptor) : Growing (Pool.define id descriptor) := by
  intro pool
  unfold Pool.define
  rw [after_get_bind]
  split
  · exact .refl pool
  · rename_i slot hslot
    split
    · exact .refl pool
    · split
      · split
        · exact .refl pool
        · exact .refl pool
      · rename_i hnone
        exact growsTo_set hslot hnone descriptor

theorem register (descriptor : Descriptor) : Growing (Pool.register descriptor) :=
  .bind (.declare _) fun _ => .bind (.define _ _) fun _ => .pure _

theorem declaredName (id : ShapeId) : Growing (Pool.declaredName id) := by
  refine .bind .get fun pool => ?_
  split
  · exact .throw _
  · exact .pure _

theorem nullable (inner : ShapeId) : Growing (Pool.nullable inner) := by
  refine .bind .get fun pool => ?_
  split
  · exact .throw _
  · split
    · exact .pure _
    · exact .register _

theorem intern : ∀ expr : ShapeExpr, Growing expr.intern
  | .primitive _ => .pure _
  | .list element => .bind (intern element) fun _ => .bind (.declaredName _) fun _ => .register _
  | .nullable inner => .bind (intern inner) fun _ => .nullable _

end Growing

theorem Operation.growsTo (operation : Operation) (pool : Pool) :
    pool.GrowsTo (operation.apply pool) := by
  cases operation with
  | declare name => exact Growing.declare name pool
  | define id descriptor => exact Growing.define id descriptor pool
  | register descriptor => exact Growing.register descriptor pool
  | arrayOf element => exact Growing.bind (.declaredName element) (fun _ => .register _) pool
  | listOf element => exact Growing.bind (.declaredName element) (fun _ => .register _) pool
  | nullable inner => exact Growing.nullable inner pool
  | insertable name element => exact Growing.register _ pool
  | opaqueCollection name element => exact Growing.register _ pool
  | intern expr => exact Growing.intern expr pool

theorem growsTo_foldl (operations : List Operation) (pool : Pool) :
    pool.GrowsTo (operations.foldl Operation.apply pool) := by
  induction operations generalizing pool with
  | nil => exact .refl pool
  | cons operation operations ih => exact (operation.growsTo pool).trans (ih _)

theorem Reachable.of_initial {pool : Pool} (h : pool.Reachable) : Pool.initial.GrowsTo pool := by
  induction h with
  | initial => exact .refl _
  | apply operation _ ih => exact ih.trans (operation.growsTo _)

end Pool

/-! ## What succeeds before succeeds afterwards -/

/-- Where `x` succeeds, `y` succeeds with the same. -/
def Follows {ε α : Type} (x y : Except ε α) : Prop :=
  ∀ a, x = .ok a → y = .ok a

namespace Follows

variable {ε ε' α β : Type}

theorem refl (x : Except ε α) : Follows x x :=
  fun _ h => h

theorem bind {x y : Except ε α} {f g : α → Except ε β} (hx : Follows x y)
    (hf : ∀ a, Follows (f a) (g a)) : Follows (x >>= f) (y >>= g) := by
  intro b h
  obtain ⟨a, hxa, hfa⟩ := Except.bind_eq_ok_iff.mp h
  exact Except.bind_eq_ok_iff.mpr ⟨a, hx a hxa, hf a b hfa⟩

theorem ite {p : Prop} [Decidable p] {x y x' y' : Except ε α} (h : Follows x y)
    (h' : Follows x' y') : Follows (if p then x else x') (if p then y else y') := by
  split
  · exact h
  · exact h'

/-- A failure is followed by anything. -/
theorem error {e : ε} {y : Except ε α} : Follows (.error e) y := by
  intro a h
  cases h

theorem mapM {f g : α → Except ε β} (hf : ∀ a, Follows (f a) (g a)) :
    ∀ as : List α, Follows (as.mapM f) (as.mapM g)
  | [] => .refl _
  | a :: as => by
    rw [List.mapM_cons, List.mapM_cons]
    exact .bind (hf a) fun _ => .bind (mapM hf as) fun _ => .refl _

end Follows

/-- `y` does what `x` does, unless `x` fails for a reason that the pool gives cause for. -/
def Steady (pool : Pool) {α : Type} (x y : Except CompileError α) : Prop :=
  (∃ e : ShapeError, e.CausedBy pool ∧ x = .error (.shape e)) ∨ y = x

namespace Steady

variable {pool : Pool} {α β : Type}

theorem refl (x : Except CompileError α) : Steady pool x x :=
  .inr rfl

theorem bind_of_ok {x y : Except CompileError α} {f g : α → Except CompileError β}
    (hx : Steady pool x y) (hf : ∀ a, x = .ok a → Steady pool (f a) (g a)) :
    Steady pool (x >>= f) (y >>= g) := by
  rcases hx with ⟨e, hcause, rfl⟩ | rfl
  · exact .inl ⟨e, hcause, rfl⟩
  · cases y with
    | error e => exact .refl _
    | ok a => exact hf a rfl

theorem bind {x y : Except CompileError α} {f g : α → Except CompileError β}
    (hx : Steady pool x y) (hf : ∀ a, Steady pool (f a) (g a)) :
    Steady pool (x >>= f) (y >>= g) :=
  hx.bind_of_ok fun a _ => hf a

theorem map {x y : Except CompileError α} (f : α → β) (hx : Steady pool x y) :
    Steady pool (f <$> x) (f <$> y) := by
  rcases hx with ⟨e, hcause, rfl⟩ | rfl
  · exact .inl ⟨e, hcause, rfl⟩
  · exact .refl _

theorem ite {p : Prop} [Decidable p] {x y x' y' : Except CompileError α} (h : Steady pool x y)
    (h' : Steady pool x' y') : Steady pool (if p then x else x') (if p then y else y') := by
  split
  · exact h
  · exact h'

theorem mapM {f g : α → Except CompileError β} (hf : ∀ a, Steady pool (f a) (g a)) :
    ∀ as : List α, Steady pool (as.mapM f) (as.mapM g)
  | [] => .refl _
  | a :: as => by
    rw [List.mapM_cons, List.mapM_cons]
    exact .bind (hf a) fun _ => .bind (mapM hf as) fun _ => .refl _

theorem orCompileError {x y : Except ShapeError α} (hx : Except.FailsBy (·.CausedBy pool) x)
    (h : Follows x y) : Steady pool (Pool.orCompileError x) (Pool.orCompileError y) := by
  cases x with
  | error e => exact .inl ⟨e, hx e rfl, rfl⟩
  | ok a => exact .inr (congrArg _ (h a rfl))

/-- What succeeds stays the same. -/
theorem follows {x y : Except CompileError α} (h : Steady pool x y) : Follows x y := by
  intro a ha
  rcases h with ⟨e, -, he⟩ | rfl
  · cases ha.symm.trans he
  · exact ha

end Steady

/-- The same for getting ready, from any link number on. -/
def ReadyM.Steady (pool : Pool) {α : Type} (x y : ReadyM α) : Prop :=
  ∀ n, Reshape.Steady pool (x n) (y n)

namespace ReadyM.Steady

variable {pool : Pool} {α β : Type}

theorem refl (x : ReadyM α) : ReadyM.Steady pool x x :=
  fun _ => .refl _

theorem bind {x y : ReadyM α} {f g : α → ReadyM β} (hx : ReadyM.Steady pool x y)
    (hf : ∀ a, ReadyM.Steady pool (f a) (g a)) : ReadyM.Steady pool (x >>= f) (y >>= g) :=
  fun n => Reshape.Steady.bind (hx n) fun p => hf p.1 p.2

theorem map {x y : ReadyM α} (f : α → β) (hx : ReadyM.Steady pool x y) :
    ReadyM.Steady pool (f <$> x) (f <$> y) :=
  fun n => Reshape.Steady.bind (hx n) fun _ => .refl _

theorem ofPool {x y : Except ShapeError α} (hx : Except.FailsBy (·.CausedBy pool) x)
    (h : Follows x y) : ReadyM.Steady pool (ReadyM.ofPool x) (ReadyM.ofPool y) :=
  fun _ => Reshape.Steady.bind (.orCompileError hx h) fun _ => .refl _

end ReadyM.Steady

section

variable {pool more : Pool} (h : pool.GrowsTo more)

include h

namespace Pool

theorem descriptor_follows (id : ShapeId) : Follows (pool.descriptor id) (more.descriptor id) :=
  fun _ hknown => h.descriptor hknown

theorem stripNullableWithin_follows (steps : Nat) (id : ShapeId) :
    Follows (pool.stripNullableWithin steps id) (more.stripNullableWithin steps id) := by
  induction steps generalizing id with
  | zero => exact .error
  | succ steps ih =>
    intro target ht
    rw [stripNullableWithin] at ht ⊢
    split at ht
    · cases ht
    · rename_i known hknown
      rw [h.descriptor hknown]
      dsimp only
      split at ht
      · exact ih _ target ht
      · exact ht

theorem stripNullable_follows (id : ShapeId) :
    Follows (pool.stripNullable id) (more.stripNullable id) :=
  fun target ht => stripNullableWithin_of_le (Nat.succ_le_succ h.size_le)
    (stripNullableWithin_follows h _ id target ht)

theorem zeroValueWithin_follows {depth depth' : Nat} (hle : depth ≤ depth') (id : ShapeId) :
    Follows (pool.zeroValueWithin depth id) (more.zeroValueWithin depth' id) := by
  induction depth generalizing depth' id with
  | zero => exact .error
  | succ depth ih =>
    obtain ⟨depth', rfl⟩ : ∃ n, depth' = n + 1 := ⟨depth' - 1, by omega⟩
    rw [zeroValueWithin, zeroValueWithin]
    refine .bind (descriptor_follows h id) fun known => ?_
    split
    · exact .refl _
    · exact .refl _
    · exact .refl _
    · exact .refl _
    · exact .ite (.bind (.mapM (fun m : Member => ih (by omega) m.shape) _) fun _ => .refl _)
        (.refl _)
    · exact .refl _

theorem zeroValue_follows (id : ShapeId) : Follows (pool.zeroValue id) (more.zeroValue id) :=
  zeroValueWithin_follows h (Nat.succ_le_succ h.size_le) id

end Pool

open Pool

theorem Template.ofShape_follows (id : ShapeId) :
    Follows (Template.ofShape pool id) (Template.ofShape more id) := by
  unfold ofShape
  refine .bind (descriptor_follows h id) fun known => ?_
  refine .ite (.bind (zeroValue_follows h id) fun _ => .refl _) (.ite (.refl _) ?_)
  split
  · exact .bind (.mapM (fun m : Member => zeroValue_follows h m.shape) _) fun _ => .refl _
  · exact .refl _
  · exact .refl _

/-! ### Plans -/

namespace Pool

theorem stripNullable_steady (id : ShapeId) :
    Steady pool (orCompileError (pool.stripNullable id)) (orCompileError (more.stripNullable id)) :=
  .orCompileError (stripNullable_failsBy pool id) (stripNullable_follows h id)

theorem descriptor_steady (id : ShapeId) :
    Steady pool (orCompileError (pool.descriptor id)) (orCompileError (more.descriptor id)) :=
  .orCompileError (descriptor_failsBy pool id) (descriptor_follows h id)

end Pool

theorem instanceProgram_steady (shape : ShapeId) :
    Steady pool (instanceProgram pool shape) (instanceProgram more shape) :=
  .bind (stripNullable_steady h shape) fun shape =>
    .bind (descriptor_steady h shape) fun _ => .refl _

theorem storesInline_steady (element : Option ShapeId) :
    Steady pool (storesInline pool element) (storesInline more element) := by
  unfold storesInline
  split
  · exact .refl _
  · exact .bind (stripNullable_steady h _) fun _ =>
      .bind (descriptor_steady h _) fun _ => .refl _

theorem containerProgram_steady (kind : CollectionKind) (target : ShapeId) :
    Steady pool (containerProgram pool kind target) (containerProgram more kind target) :=
  .ite (.map _ (instanceProgram_steady h target)) (.refl _)

theorem planCollection_steady (mapping : Mapping) (source : ShapeId) (sourceShape : Descriptor)
    (target : ShapeId) (targetShape : Descriptor) :
    Steady pool (planCollection pool mapping source sourceShape target targetShape)
      (planCollection more mapping source sourceShape target targetShape) := by
  unfold planCollection
  split
  · exact .refl _
  · exact .bind (storesInline_steady h _) fun _ =>
      .bind (containerProgram_steady h _ target) fun _ => .refl _

namespace Mapping

/-- That there is no conversion is said in the same words. -/
theorem noConversion_steady {α : Type} {source target : ShapeId}
    {sourceShape targetShape : Descriptor}
    (hsource : Pool.orCompileError (pool.descriptor source) = .ok sourceShape)
    (htarget : Pool.orCompileError (pool.descriptor target) = .ok targetShape) :
    Steady pool (.error (noConversion pool source target) : Except CompileError α)
      (.error (noConversion more source target)) := by
  rw [noConversion, noConversion, h.nameOf (Pool.orCompileError_eq_ok_iff.mp hsource),
    h.nameOf (Pool.orCompileError_eq_ok_iff.mp htarget)]
  exact .refl _

theorem memberValue_steady (mapping : Mapping) (read : Expr) (source target : ShapeId)
    (current : Expr) :
    Steady pool (memberValue pool mapping read source target current)
      (memberValue more mapping read source target current) := by
  unfold memberValue
  split
  · exact .refl _
  · refine .bind (stripNullable_steady h source) fun source => ?_
    refine .bind (stripNullable_steady h target) fun target => ?_
    split
    · exact .refl _
    · refine .bind_of_ok (descriptor_steady h source) fun sourceShape hsource => ?_
      refine .bind_of_ok (descriptor_steady h target) fun targetShape htarget => ?_
      split
      · exact .ite (.refl _) (.ite (.refl _) (noConversion_steady h hsource htarget))
      · exact .refl _
      · exact noConversion_steady h hsource htarget
      · exact .refl _

theorem recordProgram_steady (mapping : Mapping) (source : ShapeId) (sourceShape : Descriptor)
    (target : ShapeId) (targetShape : Descriptor) :
    Steady pool (recordProgram pool mapping source sourceShape target targetShape)
      (recordProgram more mapping source sourceShape target targetShape) := by
  refine .bind (.bind (.mapM (fun pair => ?_) _) fun _ => .refl _) fun _ => .refl _
  unfold memberWrite
  split
  · exact .bind (memberValue_steady h mapping _ _ _ _) fun _ => .refl _
  · exact .refl _

theorem generatedPlan_steady (mapping : Mapping) (source target : ShapeId) :
    Steady pool (generatedPlan pool mapping source target)
      (generatedPlan more mapping source target) := by
  unfold generatedPlan
  refine .bind_of_ok (descriptor_steady h source) fun sourceShape hsource => ?_
  refine .bind_of_ok (descriptor_steady h target) fun targetShape htarget => ?_
  refine .ite (.bind (planCollection_steady h mapping _ _ _ _) fun _ => .refl _) ?_
  split
  · exact .refl _
  · exact .refl _
  · exact .ite (.refl _) (.ite (.refl _) (noConversion_steady h hsource htarget))
  · exact noConversion_steady h hsource htarget
  · exact .bind (recordProgram_steady h mapping _ _ _ _) fun _ => .refl _

theorem plan_steady (mapping : Mapping) (source target : ShapeId) :
    Steady pool (mapping.plan pool source target) (mapping.plan more source target) := by
  unfold plan
  split
  · exact .refl _
  · refine .bind (stripNullable_steady h source) fun source => ?_
    refine .bind (stripNullable_steady h target) fun target => ?_
    split
    · exact .refl _
    · exact generatedPlan_steady h mapping source target

end Mapping

/-! ### Bodies -/

mutual

theorem Expr.ready_steady (mapping : Mapping) :
    ∀ e : Expr, ReadyM.Steady pool (e.ready pool mapping) (e.ready more mapping)
  | .argument _ | .readLocal _ | .null => .refl _
  | .declareLocal _ shape =>
    .bind (.ofPool (zeroValue_failsBy pool shape) (zeroValue_follows h shape)) fun _ => .refl _
  | .newInstance shape =>
    .bind (.ofPool (Template.ofShape_failsBy pool shape) (Template.ofShape_follows h shape))
      fun _ => .refl _
  | .writeLocal _ value | .box value | .unbox value | .returns value | .readMember value _ _
  | .writeMember _ _ value | .convert (.primitive _ _) value | .convert (.custom _) value =>
    .bind (Expr.ready_steady mapping value) fun _ => .refl _
  | .sequence children => .bind (Expr.readyAll_steady mapping children) fun _ => .refl _
  | .invoke _ _ value destination =>
    .bind (Expr.ready_steady mapping value) fun _ =>
      .bind (Expr.ready_steady mapping destination) fun _ => .refl _
  | .coalesce value fallback =>
    .bind (Expr.ready_steady mapping value) fun _ =>
      .bind (Expr.ready_steady mapping fallback) fun _ => .refl _
  | .ifNotNull test body =>
    .bind (Expr.ready_steady mapping test) fun _ =>
      .bind (Expr.ready_steady mapping body) fun _ => .refl _

theorem Expr.readyAll_steady (mapping : Mapping) :
    ∀ es : List Expr,
      ReadyM.Steady pool (Expr.readyAll pool mapping es) (Expr.readyAll more mapping es)
  | [] => .refl _
  | e :: es =>
    .bind (Expr.ready_steady mapping e) fun _ =>
      .bind (Expr.readyAll_steady mapping es) fun _ => .refl _

end

theorem Program.ready_steady (mapping : Mapping) (program : Program) :
    ReadyM.Steady pool (program.ready pool mapping) (program.ready more mapping) := by
  unfold Program.ready
  split
  · exact .refl _
  · exact .bind (Expr.ready_steady h mapping program.body) fun _ => .refl _

theorem RoutinePlan.ready_steady (mapping : Mapping) (plan : RoutinePlan) :
    ReadyM.Steady pool (plan.ready pool mapping) (plan.ready more mapping) := by
  cases plan with
  | program program => exact .bind (Program.ready_steady h mapping program) fun _ => .refl _
  | unresolved => exact .refl _
  | collection plan =>
    refine .bind (.bind ?_ fun _ => .refl _) fun _ => .refl _
    cases plan.construct with
    | none => exact .refl _
    | some program => exact .map _ (Program.ready_steady h mapping program)

theorem Mapping.body_steady (mapping : Mapping) (source target : ShapeId) :
    Steady pool (mapping.body pool source target) (mapping.body more source target) :=
  .bind (Mapping.plan_steady h mapping source target)
    fun plan => .map _ (RoutinePlan.ready_steady h mapping plan 0)

/-- A routine that can be made is made the same once the pool has grown. -/
theorem Mapping.body_growsTo {mapping : Mapping} {source target : ShapeId} {body : Body}
    (hbody : mapping.body pool source target = .ok body) :
    mapping.body more source target = .ok body :=
  (Mapping.body_steady h mapping source target).follows body hbody

end

/-- Whatever has been done to a pool since, and with what success, two shapes have the plan and the
body that they had, with the zero values and templates in it, or no conversion in the same words.
Only where shapes were wanting the outcome may be another one. -/
theorem Mapping.body_after_operations (pool : Pool) (operations : List Pool.Operation)
    (mapping : Mapping) (source target : ShapeId) :
    let more := operations.foldl Pool.Operation.apply pool
    (∀ plan, mapping.plan pool source target = .ok plan →
        mapping.plan more source target = .ok plan) ∧
      (∀ body, mapping.body pool source target = .ok body →
        mapping.body more source target = .ok body) ∧
      (∀ a b, mapping.body pool source target = .error (.noConversion a b) →
        mapping.body more source target = .error (.noConversion a b)) ∧
      (mapping.body more source target ≠ mapping.body pool source target →
        ∃ e : ShapeError, e.CausedBy pool ∧
          mapping.body pool source target = .error (.shape e)) := by
  intro more
  have hgrows : pool.GrowsTo more := Pool.growsTo_foldl operations pool
  have hbody := Mapping.body_steady hgrows mapping source target
  refine ⟨(plan_steady hgrows mapping source target).follows, hbody.follows, fun a b h => ?_,
    hbody.resolve_right⟩
  rcases hbody with ⟨e, -, he⟩ | heq
  · cases h.symm.trans he
  · rw [heq, h]

end Reshape
