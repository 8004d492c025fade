import Reshape.Proofs.Pool.Refusal

/-!
# Shapes built from others

Arrays, lists and nullable shapes are registered under names that are made from the name of another
shape, and any other shape may have taken such a name before. Whoever asks for the composite shape
then gets an error and never the other shape : the id that `register` answers stands for the
descriptor it was given (`Pool.descriptor_of_register`). So the id tells the way of building and the
element (`Pool.Composite.descriptor_inj`), and since nothing that a pool knows is ever changed,
asking again answers the same id (`Pool.Composite.build_again`).

`Pool.interning_after_operations` says so of all pools that come of any operations, and of shape
expressions, which are built one after the other.
-/

namespace Reshape

namespace Pool

/-- The operation answers the id, and there is nothing left for it to do. -/
def Operation.Recalls (operation : Operation) (pool : Pool) (id : ShapeId) : Prop :=
  operation.answer? pool = some id ∧ operation.apply pool = pool

/-- The answer of a computation, and the pool that it leaves behind with it. -/
theorem run'_eq_some_iff {x : PoolM ShapeId} {pool : Pool} {id : ShapeId} :
    x.run' pool = some id ↔ x pool = .ok id (After x pool) := by
  unfold EStateM.run' EStateM.run After
  cases x pool <;> simp

theorem run'_and_after {x : PoolM ShapeId} {pool : Pool} {id : ShapeId}
    (h : x pool = .ok id pool) : x.run' pool = some id ∧ After x pool = pool := by
  have hafter : After x pool = pool := by rw [After, h]
  exact ⟨run'_eq_some_iff.mpr (h.trans (congrArg _ hafter.symm)), hafter⟩

/-! ## Registering again -/

section

variable {pool after : Pool} {id : ShapeId} {d : Descriptor}

/-- A definition that succeeds is the one that the pool holds from then on. -/
theorem descriptor_of_define (h : define id d pool = .ok () after) :
    after.descriptor id = .ok d := by
  have hdefine : Ensures (define id d) pool (fun _ after => after.descriptor id = .ok d)
      fun _ _ => True := by
    unfold define
    refine .of_eq (get_bind _ pool) ?_
    split
    · exact .throw trivial
    · rename_i slot hslot
      have hlt : id.index < pool.slots.length := (List.getElem?_eq_some_iff.mp hslot).1
      split
      · exact .throw trivial
      · split
        · rename_i known hknown
          split
          · rename_i hsame
            exact .pure (descriptor_eq_ok_iff.mpr ⟨slot, hslot, hsame ▸ hknown⟩)
          · exact .throw trivial
        · exact .of_ok rfl (descriptor_eq_ok_iff.mpr ⟨_, List.getElem?_set_self hlt, rfl⟩)
  exact hdefine.of_run h

/-- What the answered id stands for is the descriptor itself, whoever had the name before. -/
theorem descriptor_of_register (h : register d pool = .ok id after) :
    after.descriptor id = .ok d := by
  obtain ⟨id', declared, -, h⟩ := EStateM.bind_eq_ok_iff.mp h
  obtain ⟨⟨⟩, defined, hdefine, h⟩ := EStateM.bind_eq_ok_iff.mp h
  cases h
  exact descriptor_of_define hdefine

/-- To say again what is known changes nothing. -/
theorem WellNamed.register_of_descriptor (h : pool.WellNamed) (hd : pool.descriptor id = .ok d) :
    register d pool = .ok id pool := by
  obtain ⟨slot, hslot, hknown⟩ := descriptor_eq_ok_iff.mp hd
  have hname : slot.name = d.name := (h.described _ slot d hslot hknown).symm
  have hdefine : define id d pool = .ok () pool := by
    rw [define, get_bind, hslot]
    simp only [hname, hknown, ne_eq, not_true_eq_false, if_false, if_true]
    rfl
  rw [register_of_lookup (hname ▸ h.found _ slot hslot)]
  exact bind_of_eq_ok hdefine

end

/-! ## Composite shapes -/

/-- A nullable shape is its own nullable shape. -/
theorem nullable_of_isNullable {pool : Pool} {inner id : ShapeId} (h : pool.IsNullable inner id) :
    nullable id pool = .ok id pool := by
  obtain ⟨known, hknown, hkind⟩ := h
  rw [nullable, get_bind, hknown]
  dsimp only
  rw [hkind]
  rfl

/-- The nullable shape of another one is registered under the name of that. -/
theorem nullable_of_ne {pool : Pool} {id : ShapeId} {known : Descriptor}
    (hknown : pool.descriptor id = .ok known) (hkind : ∀ inner, known.kind ≠ .nullable inner) :
    nullable id pool = register (.ofNullable (known.name ++ "?") id) pool := by
  rw [nullable, get_bind, hknown]
  dsimp only
  cases hk : known.kind with
  | nullable inner => exact absurd hk (hkind inner)
  | _ => rfl

/-- The ways to build a shape from another one. -/
inductive Composite where
  | array
  | list
  | nullable
  deriving DecidableEq

namespace Composite

/-- The call that asks a pool for the composite of an element shape. -/
def build : Composite → ShapeId → PoolM ShapeId
  | array, element => arrayOf element
  | list, element => listOf element
  | nullable, element => Pool.nullable element

/-- The same call, as an operation of a history. -/
def operation : Composite → ShapeId → Operation
  | array, element => .arrayOf element
  | list, element => .listOf element
  | nullable, element => .nullable element

/-- What the shape stands for that is built from an element of that name. -/
def descriptor (name : String) (element : ShapeId) : Composite → Descriptor
  | array => .ofCollection ("[" ++ name ++ "]") .array (some element)
  | list => .ofCollection ("List<" ++ name ++ ">") .list (some element)
  | nullable => .ofNullable (name ++ "?") element

/-- The element makes for a shape of its own. Only nullable shapes are their own nullable shapes. -/
def Proper (c : Composite) (pool : Pool) (element : ShapeId) : Prop :=
  c = nullable → ∀ inner, ¬ pool.IsNullable inner element

/-- What has to be known of the element : for a nullable shape what it stands for, and else its
name. -/
def Ready (c : Composite) (pool : Pool) (element : ShapeId) : Prop :=
  element.index < pool.size ∧
    (c = nullable → ∃ known, pool.descriptor element = .ok known ∧
      ∀ inner, known.kind ≠ .nullable inner)

variable {c c' : Composite} {pool after later : Pool} {element element' id : ShapeId}

/-- The descriptor tells the way of building and the element, whatever the names. -/
theorem descriptor_inj {name name' : String}
    (h : c.descriptor name element = c'.descriptor name' element') :
    c = c' ∧ element = element' := by
  have hkind := congrArg Descriptor.kind h
  cases c <;> cases c' <;> simp_all [descriptor, Descriptor.ofCollection, Descriptor.ofNullable]

theorem apply_operation (c : Composite) (pool : Pool) (element : ShapeId) :
    (c.operation element).apply pool = After (c.build element) pool := by
  cases c <;> rfl

theorem answer?_operation : (c.operation element).answer? pool = some id ↔
    c.build element pool = .ok id ((c.operation element).apply pool) := by
  have hrun : (c.operation element).answer? pool = (c.build element).run' pool := by cases c <;> rfl
  rw [hrun, apply_operation, run'_eq_some_iff]

theorem recalls_operation (h : c.build element pool = .ok id pool) :
    (c.operation element).Recalls pool id := by
  have hrun := run'_and_after h
  cases c <;> exact hrun

theorem Ready.proper (h : c.Ready pool element) : c.Proper pool element := by
  rintro hc inner ⟨known, hknown, hkind⟩
  obtain ⟨known', hknown', hne⟩ := h.2 hc
  cases hknown.symm.trans hknown'
  exact hne inner hkind

theorem Ready.growsTo (h : c.Ready pool element) (hgrows : pool.GrowsTo later) :
    c.Ready later element := by
  refine ⟨Nat.lt_of_lt_of_le h.1 hgrows.size_le, fun hc => ?_⟩
  obtain ⟨known, hknown, hkind⟩ := h.2 hc
  exact ⟨known, hgrows.descriptor hknown, hkind⟩

/-- What is built from an element is registered under the name that is made from its name. -/
theorem Ready.build_eq (h : c.Ready pool element) (hpool : pool.WellNamed) :
    c.build element pool = register (c.descriptor (pool.nameOf element) element) pool := by
  obtain ⟨slot, hslot⟩ := getElem?_slots_of_lt h.1
  have hdeclared : declaredName element pool = .ok (pool.nameOf element) pool := by
    rw [declaredName, get_bind, hslot, nameOf_eq hslot]
    rfl
  cases c with
  | array => exact bind_of_eq_ok hdeclared
  | list => exact bind_of_eq_ok hdeclared
  | nullable =>
    obtain ⟨known, hknown, hkind⟩ := h.2 rfl
    rw [build, nullable_of_ne hknown hkind, hpool.name_of_descriptor hknown]
    rfl

/-- What was built was ready to be built, unless it is a nullable shape that is its own. -/
theorem ready_of_build (h : c.build element pool = .ok id after) :
    c.Ready pool element ∨
      c = nullable ∧ (∃ inner, pool.IsNullable inner element) ∧ id = element ∧ after = pool := by
  have hlt {d : String → Descriptor}
      (h : (declaredName element >>= fun name => register (d name)) pool = .ok id after) :
      element.index < pool.size := by
    refine Nat.lt_of_not_le fun hge => ?_
    have hnone : pool.slots[element.index]? = none := List.getElem?_eq_none hge
    have hdeclared : declaredName element pool = .error (.unknown element) pool := by
      rw [declaredName, get_bind, hnone]
      rfl
    cases (bind_of_eq_error hdeclared).symm.trans h
  cases c with
  | array => exact .inl ⟨hlt h, nofun⟩
  | list => exact .inl ⟨hlt h, nofun⟩
  | nullable =>
    cases hknown : pool.descriptor element with
    | error e =>
      rw [build, Pool.nullable, get_bind, hknown] at h
      cases h
    | ok known =>
      by_cases hkind : ∃ inner, known.kind = .nullable inner
      · obtain ⟨inner, hkind⟩ := hkind
        have hinner : pool.IsNullable inner element := ⟨known, hknown, hkind⟩
        cases (nullable_of_isNullable hinner).symm.trans h
        exact .inr ⟨rfl, ⟨inner, hinner⟩, rfl, rfl⟩
      · rw [not_exists] at hkind
        exact .inl ⟨lt_size_of_descriptor hknown, fun _ => ⟨known, hknown, hkind⟩⟩

/-- The shape that was built stands for the composite of the element, and for nothing else. -/
theorem descriptor_of_build (hpool : pool.WellNamed) (hproper : c.Proper pool element)
    (h : c.build element pool = .ok id after) :
    after.descriptor id = .ok (c.descriptor (pool.nameOf element) element) := by
  rcases ready_of_build h with hready | ⟨hc, ⟨inner, hinner⟩, -, -⟩
  · rw [hready.build_eq hpool] at h
    exact descriptor_of_register h
  · exact absurd hinner (hproper hc inner)

/-- The pool only grows where a shape is built, and stays well-named. -/
theorem growsTo_of_build (h : c.build element pool = .ok id after) : pool.GrowsTo after := by
  have hgrows := (c.operation element).growsTo pool
  rw [apply_operation] at hgrows
  unfold After at hgrows
  rwa [h] at hgrows

theorem wellNamed_of_build (hpool : pool.WellNamed) (h : c.build element pool = .ok id after) :
    after.WellNamed := by
  have hnaming : Naming Holds (c.build element) := by
    cases c with
    | array => exact .arrayOf element
    | list => exact .listOf element
    | nullable => exact .nullable element
  exact ((hnaming pool hpool).of_run h).1

/-- To build it again answers the same id, and changes nothing. -/
theorem build_again (hpool : pool.WellNamed) (h : c.build element pool = .ok id after)
    (hlater : later.WellNamed) (hgrows : after.GrowsTo later) :
    c.build element later = .ok id later := by
  have hall : pool.GrowsTo later := (growsTo_of_build h).trans hgrows
  rcases ready_of_build h with hready | ⟨rfl, ⟨inner, known, hknown, hkind⟩, rfl, rfl⟩
  · have hknown := hgrows.descriptor (descriptor_of_build hpool hready.proper h)
    rw [← hall.nameOf_of_lt hready.1] at hknown
    rw [(hready.growsTo hall).build_eq hlater]
    exact hlater.register_of_descriptor hknown
  · exact nullable_of_isNullable ⟨known, hgrows.descriptor hknown, hkind⟩

/-- What is built later under the same id is built in the same way from the same element. -/
theorem build_inj {after' : Pool} (hpool : pool.WellNamed) (hproper : c.Proper pool element)
    (h : c.build element pool = .ok id after) (hlater : later.WellNamed)
    (hgrows : after.GrowsTo later) (hproper' : c'.Proper later element')
    (h' : c'.build element' later = .ok id after') : c' = c ∧ element' = element := by
  have hknown := descriptor_of_build hpool hproper h
  have hstill := (hgrows.trans (growsTo_of_build h')).descriptor hknown
  have hknown' := descriptor_of_build hlater hproper' h'
  exact descriptor_inj (Except.ok.inj (hknown'.symm.trans hstill))

/-- A nullable shape that was built is its own nullable shape. -/
theorem build_nullable_nullable (h : nullable.build element pool = .ok id after)
    (hpool : pool.WellNamed) : nullable.build id after = .ok id after := by
  rcases ready_of_build h with hready | ⟨-, ⟨inner, hinner⟩, rfl, rfl⟩
  · exact nullable_of_isNullable ⟨_, descriptor_of_build hpool hready.proper h, rfl⟩
  · exact nullable_of_isNullable hinner

end Composite

/-! ## Shape expressions -/

section

variable {pool after later : Pool} {id : ShapeId} (hpool : pool.WellNamed)
  (hinitial : Pool.initial.GrowsTo pool) (hlater : later.WellNamed) (hgrows : after.GrowsTo later)

include hpool hinitial hlater hgrows

/-- A composite whose element is built again is built again. -/
theorem compose_again {c : Composite} {part : ShapeExpr}
    (h : (part.intern >>= c.build) pool = .ok id after)
    (ih : ∀ between element, between.GrowsTo later → part.intern pool = .ok element between →
      part.intern later = .ok element later) :
    (part.intern >>= c.build) later = .ok id later := by
  obtain ⟨element, between, hpart, hbuild⟩ := EStateM.bind_eq_ok_iff.mp h
  have hbetween : between.WellNamed :=
    ((Naming.intern part pool hpool hinitial.size_le).of_run hpart).1
  have hagain := ih between element ((Composite.growsTo_of_build hbuild).trans hgrows) hpart
  exact (bind_of_eq_ok hagain).trans (Composite.build_again hbetween hbuild hlater hgrows)

/-- An expression that was built once is built again under the same id. -/
theorem intern_again {expr : ShapeExpr} (h : expr.intern pool = .ok id after) :
    expr.intern later = .ok id later := by
  induction expr generalizing id after with
  | primitive kind =>
    cases h
    rfl
  | list element ih =>
    exact compose_again hpool hinitial hlater hgrows (c := .list) h fun _ _ hgrows h => ih hgrows h
  | nullable inner ih =>
    exact compose_again hpool hinitial hlater hgrows (c := .nullable) h
      fun _ _ hgrows h => ih hgrows h

end

/-! ## After operations -/

/-- Whatever has been done to a pool, and whoever has taken what names in it : the id that is
answered for an array, a list or a nullable shape stands for just that, of just that element. From
then on, whatever else is done, the same is answered to the same question, nothing being changed by
it, and to no other. A nullable shape is its own nullable shape from then on, and a shape expression
that was built once is answered the same id ever after. -/
theorem interning_after_operations (operations more : List Operation) :
    let pool := operations.foldl Operation.apply Pool.initial
    let laterOf (operation : Operation) := more.foldl Operation.apply (operation.apply pool)
    (∀ (c : Composite) (element id : ShapeId), c.Proper pool element →
      (c.operation element).answer? pool = some id →
        let built := (c.operation element).apply pool
        let later := laterOf (c.operation element)
        let known := c.descriptor (pool.nameOf element) element
        built.descriptor id = .ok known ∧ later.descriptor id = .ok known ∧
          (c.operation element).Recalls later id ∧
          ∀ (c' : Composite) (element' : ShapeId), c'.Proper later element' →
            (c'.operation element').answer? later = some id → c' = c ∧ element' = element) ∧
      (∀ element id : ShapeId, (Operation.nullable element).answer? pool = some id →
        (Operation.nullable id).Recalls (laterOf (.nullable element)) id) ∧
      ∀ (expr : ShapeExpr) (id : ShapeId), (Operation.intern expr).answer? pool = some id →
        (Operation.intern expr).Recalls (laterOf (.intern expr)) id := by
  intro pool laterOf
  have hinitial : Pool.initial.GrowsTo pool := growsTo_foldl operations Pool.initial
  have hpool : pool.WellNamed := WellNamed.initial.foldl_apply (.refl _) operations
  have hlater (operation : Operation) : (laterOf operation).WellNamed :=
    (operation.naming hpool hinitial.size_le).1.foldl_apply
      (hinitial.trans (operation.growsTo pool)) more
  have hgrows (operation : Operation) : (operation.apply pool).GrowsTo (laterOf operation) :=
    growsTo_foldl more (operation.apply pool)
  refine ⟨fun c element id hproper hanswer => ?_, fun element id hanswer => ?_,
    fun expr id hanswer => ?_⟩
  · have hbuild := Composite.answer?_operation.mp hanswer
    have hknown := Composite.descriptor_of_build hpool hproper hbuild
    have hagain := Composite.build_again hpool hbuild (hlater _) (hgrows _)
    refine ⟨hknown, (hgrows _).descriptor hknown, Composite.recalls_operation hagain, ?_⟩
    intro c' element' hproper' hanswer'
    exact Composite.build_inj hpool hproper hbuild (hlater _) (hgrows _) hproper'
      (Composite.answer?_operation.mp hanswer')
  · have hbuild := Composite.answer?_operation (c := .nullable).mp hanswer
    have hself := Composite.build_nullable_nullable hbuild hpool
    have hbuilt := Composite.wellNamed_of_build hpool hbuild
    exact Composite.recalls_operation (c := .nullable)
      (Composite.build_again hbuilt hself (hlater _) (hgrows (.nullable element)))
  · have hintern := run'_eq_some_iff.mp hanswer
    exact run'_and_after (intern_again hpool hinitial (hlater _) (hgrows (.intern expr)) hintern)

end Pool

end Reshape
