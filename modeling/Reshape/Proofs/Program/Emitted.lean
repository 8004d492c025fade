import Reshape.Proofs.Program.Declared
import Reshape.Proofs.Program.Fault
import Reshape.Proofs.Program.Outline
import Reshape.Routine.Basic

/-!
# Emitted programs

All that is planned for two shapes is sound, whatever the rules pair and the mapping converts
(`Mapping.plan_sound`) : its programs are valid, and their converters are the mapping's
(`Program.Sound`). If such a plan cannot be made ready, that is for the pool to answer : it does not
know a shape, or the descent to a zero value has no end there (`RoutinePlan.ready_eq_error`). The
latter is so for a value type that contains itself (`Mapping.exists_plan_circling`).

The laws of `Expr.Sound` follow the check of locals, one for each kind of expression that is
emitted, so that the programs are sound by the way they are put together.
-/

namespace Reshape

/-! ## Sound expressions -/

/-- If the expression is a conversion by a converter, the mapping has it. -/
def Expr.Finds (mapping : Mapping) : Expr → Prop
  | .convert (.custom id) _ => ∃ r, mapping.converter? id = some r
  | _ => True

/-- With the locals `known` declared, the expression passes the check and leaves `known'` declared.
Its converters are the mapping's. -/
structure Expr.Sound (mapping : Mapping) (locals : List ShapeId) (known known' : List LocalId)
    (e : Expr) : Prop where
  check : e.check locals known = .ok known'
  finds : ∀ x ∈ e.nodes, x.Finds mapping

/-- The same for expressions that are evaluated one after the other. -/
structure Expr.SoundAll (mapping : Mapping) (locals : List ShapeId) (known known' : List LocalId)
    (es : List Expr) : Prop where
  check : Expr.checkAll locals es known = .ok known'
  finds : ∀ x ∈ Expr.nodesAll es, x.Finds mapping

section

variable {mapping : Mapping} {locals : List ShapeId} {known known₁ known₂ known' : List LocalId}

namespace Expr.Sound

variable {value first branch : Expr} {id : LocalId} {shape : ShapeId}

theorem argument (a : Argument) : (Expr.argument a).Sound mapping locals known known :=
  ⟨rfl, List.forall_mem_singleton.mpr trivial⟩

theorem null : Expr.null.Sound mapping locals known known :=
  ⟨rfl, List.forall_mem_singleton.mpr trivial⟩

theorem newInstance (shape : ShapeId) : (Expr.newInstance shape).Sound mapping locals known known :=
  ⟨rfl, List.forall_mem_singleton.mpr trivial⟩

theorem readLocal (hlt : id.index < locals.length) (hid : id ∈ known) :
    (Expr.readLocal id).Sound mapping locals known known :=
  ⟨Except.bind_eq_ok_iff.mpr ⟨(), LocalId.require_eq_ok_iff.mpr ⟨hlt, hid⟩, rfl⟩,
    List.forall_mem_singleton.mpr trivial⟩

theorem declareLocal (hlocal : locals[id.index]? = some shape) (hid : id ∉ known) :
    (Expr.declareLocal id shape).Sound mapping locals known (id :: known) :=
  ⟨LocalId.declare_eq_ok_iff.mpr ⟨hlocal, hid, rfl⟩, List.forall_mem_singleton.mpr trivial⟩

theorem writeLocal (h : value.Sound mapping locals known known') (hlt : id.index < locals.length)
    (hid : id ∈ known') : (Expr.writeLocal id value).Sound mapping locals known known' :=
  ⟨Except.bind_eq_ok_iff.mpr ⟨known', h.check, Except.bind_eq_ok_iff.mpr
    ⟨(), LocalId.require_eq_ok_iff.mpr ⟨hlt, hid⟩, rfl⟩⟩,
    List.forall_mem_cons.mpr ⟨trivial, h.finds⟩⟩

theorem writeMember (h : value.Sound mapping locals known known')
    (hlt : id.index < locals.length) (hid : id ∈ known') (member : Nat) :
    (Expr.writeMember id member value).Sound mapping locals known known' :=
  ⟨(h.writeLocal hlt hid).check, List.forall_mem_cons.mpr ⟨trivial, h.finds⟩⟩

theorem box (h : value.Sound mapping locals known known') :
    (Expr.box value).Sound mapping locals known known' :=
  ⟨h.check, List.forall_mem_cons.mpr ⟨trivial, h.finds⟩⟩

theorem unbox (h : value.Sound mapping locals known known') :
    (Expr.unbox value).Sound mapping locals known known' :=
  ⟨h.check, List.forall_mem_cons.mpr ⟨trivial, h.finds⟩⟩

theorem returns (h : value.Sound mapping locals known known') :
    (Expr.returns value).Sound mapping locals known known' :=
  ⟨h.check, List.forall_mem_cons.mpr ⟨trivial, h.finds⟩⟩

theorem readMember (h : value.Sound mapping locals known known') (shape : ShapeId) (member : Nat) :
    (Expr.readMember value shape member).Sound mapping locals known known' :=
  ⟨h.check, List.forall_mem_cons.mpr ⟨trivial, h.finds⟩⟩

theorem primitive (h : value.Sound mapping locals known known') (a b : Primitive) :
    (Expr.convert (.primitive a b) value).Sound mapping locals known known' :=
  ⟨h.check, List.forall_mem_cons.mpr ⟨trivial, h.finds⟩⟩

/-- The converters that the mapping has for two shapes are in its table. -/
theorem custom (h : value.Sound mapping locals known known') {source target : ShapeId}
    {converter : ConverterId} (hfound : mapping.converterFor source target = some converter) :
    (Expr.convert (.custom converter) value).Sound mapping locals known known' := by
  refine ⟨h.check, List.forall_mem_cons.mpr ⟨?_, h.finds⟩⟩
  obtain ⟨i, hi, rfl⟩ := Option.map_eq_some_iff.mp hfound
  exact ⟨_, List.getElem?_eq_getElem (List.findIdx?_eq_some_iff_getElem.mp hi).1⟩

theorem invoke (h : first.Sound mapping locals known known₁)
    (h' : branch.Sound mapping locals known₁ known') (source target : ShapeId) :
    (Expr.invoke source target first branch).Sound mapping locals known known' :=
  ⟨Except.bind_eq_ok_iff.mpr ⟨known₁, h.check, h'.check⟩,
    List.forall_mem_cons.mpr ⟨trivial, List.forall_mem_append.mpr ⟨h.finds, h'.finds⟩⟩⟩

theorem coalesce (h : first.Sound mapping locals known known₁)
    (h' : branch.Sound mapping locals known₁ known₂) :
    (Expr.coalesce first branch).Sound mapping locals known known₁ :=
  ⟨Except.bind_eq_ok_iff.mpr ⟨known₁, h.check, Except.bind_eq_ok_iff.mpr ⟨known₂, h'.check, rfl⟩⟩,
    List.forall_mem_cons.mpr ⟨trivial, List.forall_mem_append.mpr ⟨h.finds, h'.finds⟩⟩⟩

theorem ifNotNull (h : first.Sound mapping locals known known₁)
    (h' : branch.Sound mapping locals known₁ known₂) :
    (Expr.ifNotNull first branch).Sound mapping locals known known₁ :=
  ⟨(h.coalesce h').check,
    List.forall_mem_cons.mpr ⟨trivial, List.forall_mem_append.mpr ⟨h.finds, h'.finds⟩⟩⟩

theorem sequence {children : List Expr} (h : Expr.SoundAll mapping locals known known' children) :
    (Expr.sequence children).Sound mapping locals known known' :=
  ⟨h.check, List.forall_mem_cons.mpr ⟨trivial, h.finds⟩⟩

end Expr.Sound

namespace Expr.SoundAll

variable {e : Expr} {es es' : List Expr}

theorem nil : Expr.SoundAll mapping locals known known [] :=
  ⟨rfl, fun _ hx => (List.not_mem_nil hx).elim⟩

theorem cons (h : e.Sound mapping locals known known₁)
    (h' : Expr.SoundAll mapping locals known₁ known' es) :
    Expr.SoundAll mapping locals known known' (e :: es) :=
  ⟨Except.bind_eq_ok_iff.mpr ⟨known₁, h.check, h'.check⟩,
    List.forall_mem_append.mpr ⟨h.finds, h'.finds⟩⟩

theorem append_of_forall (h : ∀ e ∈ es, e.Sound mapping locals known known)
    (h' : Expr.SoundAll mapping locals known known' es') :
    Expr.SoundAll mapping locals known known' (es ++ es') := by
  induction es with
  | nil => exact h'
  | cons e es ih =>
    exact .cons (h e List.mem_cons_self) (ih fun e he => h e (List.mem_cons_of_mem _ he))

end Expr.SoundAll

/-- What converts a value is sound if that is, and what it is converted into. -/
theorem Expr.Converts.sound {value current e : Expr} (h : Expr.Converts mapping value current e)
    (hvalue : value.Sound mapping locals known known)
    (hcurrent : current.Sound mapping locals known known) : e.Sound mapping locals known known := by
  cases h with
  | same => exact hvalue
  | primitive _ _ => exact hvalue.primitive _ _
  | custom hfound => exact hvalue.custom hfound
  | made source target => exact hvalue.invoke .null source target
  | reused source target => exact hvalue.invoke hcurrent source target

theorem Expr.Supplies.sound {value current e : Expr} (h : Expr.Supplies mapping value current e)
    (hvalue : value.Sound mapping locals known known)
    (hcurrent : current.Sound mapping locals known known) : e.Sound mapping locals known known := by
  obtain ⟨made, hmade, rfl | rfl⟩ := h
  · exact hmade.sound hvalue hcurrent
  · exact (hmade.sound hvalue hcurrent).unbox

/-! ## Sound programs -/

/-- The locals of the program are declared as they should be, and its converters are the
mapping's. -/
structure Program.Sound (mapping : Mapping) (program : Program) : Prop where
  validate : program.validate = .ok ()
  finds : ∀ x ∈ program.body.nodes, x.Finds mapping

theorem Program.Sound.of_body {program : Program}
    (h : program.body.Sound mapping program.locals [] known) : program.Sound mapping :=
  ⟨Except.bind_eq_ok_iff.mpr ⟨known, h.check, rfl⟩, h.finds⟩

theorem Program.Sound.ofExpr {e : Expr} (h : e.Sound mapping [] [] known) :
    (Program.ofExpr e).Sound mapping :=
  .of_body h.returns

/-- The instance that is made uses no local but its own. -/
theorem Construction.sound_expr (c : Construction) (mapping : Mapping) {shape : ShapeId}
    {first : LocalId} (hfirst : first ∉ known)
    (hlocal : c = .valueDefault → locals[first.index]? = some shape) :
    ∃ known', (c.expr shape first).Sound mapping locals known known' := by
  cases c with
  | valueDefault =>
    have hlocal := hlocal rfl
    have hlt := (List.getElem?_eq_some_iff.mp hlocal).1
    exact ⟨_, .sequence (.cons (.declareLocal hlocal hfirst)
      (.cons (.box (.readLocal hlt List.mem_cons_self)) .nil))⟩
  | defaultConstructor => exact ⟨_, .newInstance shape⟩
  | impossible => exact ⟨_, .null⟩

variable {pool : Pool}

theorem instanceProgram_sound (mapping : Mapping) {shape : ShapeId} {program : Program}
    (h : instanceProgram pool shape = .ok program) : program.Sound mapping := by
  obtain ⟨shape, -, h⟩ := Except.bind_eq_ok_iff.mp h
  obtain ⟨shapeKnown, -, h⟩ := Except.bind_eq_ok_iff.mp h
  cases h
  have hlocal (c : Construction) (hc : c = .valueDefault) : (c.locals shape)[0]? = some shape := by
    rw [hc]
    rfl
  obtain ⟨_, hinstance⟩ := Construction.sound_expr _ mapping List.not_mem_nil (hlocal _)
  exact .of_body hinstance.returns

namespace Mapping

/-- Whatever the rules pair, pairs that name no members and members that are named twice included,
what is written into the members is sound. -/
theorem memberWrites_sound {source target : ShapeId} {sourceShape targetShape : Descriptor}
    {pairs : List MemberPair} {writes : List Expr} (hlt : 1 < locals.length)
    (hsource : sourceLocal ∈ known) (htarget : targetLocal ∈ known)
    (h : memberWrites pool mapping source sourceShape target targetShape pairs = .ok writes) :
    ∀ e ∈ writes, e.Sound mapping locals known known := by
  intro e he
  obtain ⟨pair, -, value, rfl, hvalue⟩ := supplies_of_memberWrites h e he
  have hread : (Expr.readLocal sourceLocal).Sound mapping locals known known :=
    .readLocal (Nat.lt_of_succ_lt hlt) hsource
  have hcurrent : (Expr.readLocal targetLocal).Sound mapping locals known known :=
    .readLocal hlt htarget
  exact (hvalue.sound (hread.readMember _ _) (hcurrent.readMember _ _)).writeMember hlt htarget _

/-- The instance is made in a branch, so its local is free again for what follows. -/
theorem recordProgram_sound {source target : ShapeId} {sourceShape targetShape : Descriptor}
    {program : Program}
    (h : recordProgram pool mapping source sourceShape target targetShape = .ok program) :
    program.Sound mapping := by
  obtain ⟨writes, hwrites, h⟩ := Except.bind_eq_ok_iff.mp h
  cases h
  let c := Construction.ofDescriptor targetShape
  let locals := [source, target] ++ c.locals target
  let declared := [targetLocal, sourceLocal]
  have hlt : 1 < locals.length := by simp [locals]
  have hsource : sourceLocal ∈ declared := List.mem_cons_of_mem _ (List.mem_singleton_self _)
  have htarget : targetLocal ∈ declared := List.mem_cons_self
  have hlocal (hc : c = .valueDefault) : locals[2]? = some target := by
    simp [locals, hc, Construction.locals]
  have hfree : (⟨2⟩ : LocalId) ∉ declared := by decide
  obtain ⟨_, hinstance⟩ := c.sound_expr mapping hfree hlocal
  have hmade : (Expr.readLocal targetLocal).Sound mapping locals declared declared :=
    .readLocal hlt htarget
  have hresult : (if targetShape.valueType then Expr.box (.readLocal targetLocal)
      else .readLocal targetLocal).Sound mapping locals declared declared := by
    split
    · exact hmade.box
    · exact hmade
  have hfill : Expr.SoundAll mapping locals declared declared (writes ++ [.returns _]) :=
    .append_of_forall (memberWrites_sound hlt hsource htarget hwrites) (.cons hresult.returns .nil)
  refine .of_body (.ifNotNull (.argument .source)
    (.sequence (?_ : Expr.SoundAll mapping locals [] declared _)))
  exact .cons (.declareLocal rfl List.not_mem_nil)
    (.cons (.writeLocal (.unbox (.argument _)) (Nat.lt_of_succ_lt hlt) (List.mem_singleton_self _))
      (.cons (.declareLocal rfl (by decide))
        (.cons (.writeLocal (.unbox (.coalesce (.argument _) hinstance)) hlt htarget)
          (.cons (.ifNotNull hmade (.sequence hfill)) (.cons (.returns .null) .nil)))))

end Mapping

/-! ## Sound plans -/

/-- The programs of a plan. -/
def RoutinePlan.programs : RoutinePlan → List Program
  | program p => [p]
  | collection plan => plan.construct.toList
  | unresolved => []

/-- All that is planned is sound, the program that makes a container included. -/
theorem Mapping.plan_sound {source target : ShapeId} {plan : RoutinePlan}
    (h : mapping.plan pool source target = .ok plan) :
    ∀ program ∈ plan.programs, program.Sound mapping := by
  cases Mapping.outlined_of_plan h with
  | expr he =>
    exact List.forall_mem_singleton.mpr (.ofExpr (he.sound (.argument .source)
      (.argument .destination)))
  | record hrecord => exact List.forall_mem_singleton.mpr (Mapping.recordProgram_sound hrecord)
  | collection hconstruct =>
    intro program hprogram
    obtain ⟨shape, hmade⟩ := hconstruct program (Option.mem_toList.mp hprogram)
    exact instanceProgram_sound mapping hmade
  | unresolved => exact fun _ hmem => (List.not_mem_nil hmem).elim

end

/-! ## Getting ready -/

section

variable {pool : Pool} {mapping : Mapping}

theorem List.concat_subset_cons {α : Type} {as bs : List α} (h : as ⊆ bs) (a : α) :
    as ++ [a] ⊆ a :: bs :=
  List.append_subset.mpr ⟨List.subset_cons_of_subset a h,
    List.cons_subset.mpr ⟨List.mem_cons_self, List.nil_subset _⟩⟩

theorem List.append_subset_append {α : Type} {as bs as' bs' : List α} (h : as ⊆ as')
    (h' : bs ⊆ bs') : as ++ bs ⊆ as' ++ bs' :=
  List.append_subset.mpr ⟨List.subset_append_of_subset_left _ h,
    List.subset_append_of_subset_right _ h'⟩

mutual

/-- What getting ready meets in an expression is all within it. -/
theorem Expr.inOrder_subset : ∀ (e : Expr), e.inOrder ⊆ e.nodes
  | .argument _ | .readLocal _ | .declareLocal _ _ | .newInstance _ | .null => List.Subset.refl _
  | .writeLocal _ value | .box value | .unbox value | .returns value | .readMember value _ _
  | .writeMember _ _ value | .convert _ value => List.concat_subset_cons value.inOrder_subset _
  | .sequence children => List.concat_subset_cons (Expr.inOrderAll_subset children) _
  | .invoke _ _ first second | .coalesce first second | .ifNotNull first second =>
    List.concat_subset_cons
      (List.append_subset_append first.inOrder_subset second.inOrder_subset) _

theorem Expr.inOrderAll_subset : ∀ (es : List Expr), Expr.inOrderAll es ⊆ Expr.nodesAll es
  | [] => List.Subset.refl _
  | e :: es => List.append_subset_append e.inOrder_subset (Expr.inOrderAll_subset es)

end

/-- If a sound program is not made ready, one of its expressions asks the pool in vain. -/
theorem Program.Sound.exists_shapeError {program : Program} (h : program.Sound mapping) {n : Nat}
    {e : CompileError} (he : program.ready pool mapping n = .error e) :
    ∃ x ∈ program.body.nodes, ∃ error, x.shapeError? pool = some error ∧ e = .shape error := by
  rcases Program.ready_eq_error_iff.mp he with
    ⟨defect, hdefect, -⟩ | ⟨-, before, x, after, hbody, hfault, -⟩
  · cases h.validate.symm.trans hdefect
  · have hx : x ∈ program.body.nodes := by
      refine program.body.inOrder_subset ?_
      rw [hbody]
      exact List.mem_append_right _ List.mem_cons_self
    rcases Expr.fault?_eq_some_iff.mp hfault with ⟨id, value, rfl, hid, -⟩ | ⟨error, herror, rfl⟩
    · obtain ⟨r, hr⟩ := h.finds _ hx
      exact absurd (List.getElem?_eq_some_iff.mp hr).1 (Nat.not_lt.mpr hid)
    · exact ⟨x, hx, error, herror, rfl⟩

/-- A plan is not made ready if one of its programs is not, for the same reason. -/
theorem RoutinePlan.exists_of_ready_eq_error {plan : RoutinePlan} {n : Nat} {e : CompileError}
    (h : plan.ready pool mapping n = .error e) :
    ∃ program ∈ plan.programs, ∃ n', program.ready pool mapping n' = .error e := by
  suffices hfails : Except.FailsBy (fun e => ∃ program ∈ plan.programs, ∃ n',
      program.ready pool mapping n' = .error e) (plan.ready pool mapping n) from hfails e h
  cases plan with
  | program p =>
    exact .bind (fun e he => ⟨p, List.mem_singleton_self p, n, he⟩) fun _ _ => .ok _
  | collection plan =>
    refine .bind (.bind ?_ fun _ _ => .bind ?_ fun _ _ => .ok _) fun _ _ => .ok _
    · cases hconstruct : plan.construct with
      | none => exact .ok _
      | some p =>
        exact .bind (fun e he => ⟨p, Option.mem_toList.mpr hconstruct, n, he⟩) fun _ _ => .ok _
    · cases plan.route with
      | «static» source target => exact .ok _
      | _ => exact .ok _
  | unresolved => exact .ok _

/-- An expression of the plan asks for a zero value, and the descent to it has no end. -/
def RoutinePlan.Circles (pool : Pool) (plan : RoutinePlan) : Prop :=
  ∃ program ∈ plan.programs, ∃ x ∈ program.body.nodes, ∃ id, x.Zeroes pool id ∧ pool.Circles id

/-- If a plan of sound programs is not made ready, the pool does not know a shape, or the descent to
some zero value has no end. -/
theorem RoutinePlan.ready_eq_error {plan : RoutinePlan}
    (hsound : ∀ program ∈ plan.programs, program.Sound mapping) {n : Nat} {e : CompileError}
    (h : plan.ready pool mapping n = .error e) :
    ∃ error : ShapeError, error.CausedBy pool ∧ e = .shape error ∧
      (error.Plain ∨ (∃ x, error = .endless x) ∧ plan.Circles pool) := by
  obtain ⟨program, hprogram, n', h⟩ := exists_of_ready_eq_error h
  obtain ⟨x, hx, error, herror, rfl⟩ := (hsound program hprogram).exists_shapeError h
  refine ⟨error, Expr.causedBy_of_shapeError? herror, rfl, ?_⟩
  cases error with
  | endless y =>
    obtain ⟨id, hid, hcircles⟩ := Expr.exists_circles_of_shapeError? herror
    exact .inr ⟨⟨y, rfl⟩, program, hprogram, x, hx, id, hid, hcircles⟩
  | _ => exact .inl trivial

/-- The pool gives the reason why there is no body, or there is no conversion. -/
def CompileError.Explained (pool : Pool) : CompileError → Prop
  | shape e => e.CausedBy pool
  | noConversion _ _ => True
  | malformed _ _ | unknownConverter _ => False

/-- The error was met where the pool was asked what a shape stands for, or what lies below it. Or
there is no conversion. -/
inductive CompileError.Met (pool : Pool) : CompileError → Prop
  | descriptor {id : ShapeId} {e : ShapeError} (h : pool.descriptor id = .error e) :
    Met pool (.shape e)
  | stripNullable {id : ShapeId} {e : ShapeError} (h : pool.stripNullable id = .error e) :
    Met pool (.shape e)
  | noConversion (source target : String) : Met pool (.noConversion source target)

theorem CompileError.Met.explained {e : CompileError} (h : e.Met pool) : e.Explained pool := by
  cases h with
  | descriptor h => exact pool.descriptor_failsBy _ _ h
  | stripNullable h => exact pool.stripNullable_failsBy _ _ h
  | noConversion _ _ => trivial

namespace Pool

theorem orCompileError_failsBy {α : Type} {p : CompileError → Prop} {x : Except ShapeError α}
    (h : ∀ e, x = .error e → p (.shape e)) : Except.FailsBy p (orCompileError x) := by
  cases x with
  | error e => exact .error (h e rfl)
  | ok a => exact .ok a

theorem descriptor_met (id : ShapeId) :
    Except.FailsBy (·.Met pool) (orCompileError (pool.descriptor id)) :=
  orCompileError_failsBy fun _ h => .descriptor h

theorem stripNullable_met (id : ShapeId) :
    Except.FailsBy (·.Met pool) (orCompileError (pool.stripNullable id)) :=
  orCompileError_failsBy fun _ h => .stripNullable h

end Pool

namespace Mapping

theorem below_failsBy {α : Type} {shape : ShapeId}
    {f : ShapeId → Descriptor → Except CompileError α}
    (hf : ∀ below known, Except.FailsBy (·.Met pool) (f below known)) :
    Except.FailsBy (·.Met pool) (do
      let below ← Pool.orCompileError (pool.stripNullable shape)
      f below (← Pool.orCompileError (pool.descriptor below))) :=
  .bind (Pool.stripNullable_met shape) fun below _ =>
    .bind (Pool.descriptor_met below) fun known _ => hf below known

theorem instanceProgram_failsBy (shape : ShapeId) :
    Except.FailsBy (·.Met pool) (instanceProgram pool shape) :=
  below_failsBy fun _ _ => .ok _

theorem memberValue_failsBy (read current : Expr) (source target : ShapeId) :
    Except.FailsBy (·.Met pool) (memberValue pool mapping read source target current) := by
  unfold memberValue
  split
  · exact .ok _
  · refine .bind (Pool.stripNullable_met source) fun source _ =>
      .bind (Pool.stripNullable_met target) fun target _ => ?_
    split
    · exact .ok _
    · refine .bind (Pool.descriptor_met source) fun _ _ =>
        .bind (Pool.descriptor_met target) fun _ _ => ?_
      split
      · exact .ite (.ok _) (.ite (.ok _) (.error (.noConversion _ _)))
      · exact .ok _
      · exact .error (.noConversion _ _)
      · exact .ite (.ok _) (.ite (.ok _) (.ok _))

theorem recordProgram_failsBy (source target : ShapeId) (sourceShape targetShape : Descriptor) :
    Except.FailsBy (·.Met pool)
      (recordProgram pool mapping source sourceShape target targetShape) := by
  refine .bind (.bind (.mapM fun pair _ => ?_) fun _ _ => .ok _) fun _ _ => .ok _
  unfold memberWrite
  split
  · exact .bind (memberValue_failsBy _ _ _ _) fun _ _ => .ok _
  · exact .ok _

theorem planCollection_failsBy (source target : ShapeId) (sourceShape targetShape : Descriptor) :
    Except.FailsBy (·.Met pool)
      (planCollection pool mapping source sourceShape target targetShape) := by
  have hinline : Except.FailsBy (·.Met pool) (storesInline pool targetShape.element?) := by
    cases targetShape.element? with
    | none => exact .ok _
    | some element => exact below_failsBy fun _ _ => .ok _
  unfold planCollection
  split
  · exact .ok _
  · refine .bind hinline fun _ _ => .bind ?_ fun _ _ => .ok _
    unfold containerProgram
    exact .ite ((instanceProgram_failsBy target).map some) (.ok _)

theorem plan_failsBy (source target : ShapeId) :
    Except.FailsBy (·.Met pool) (mapping.plan pool source target) := by
  unfold Mapping.plan
  split
  · exact .ok _
  · refine .bind (Pool.stripNullable_met source) fun source _ =>
      .bind (Pool.stripNullable_met target) fun target _ => ?_
    split
    · exact .ok _
    · refine .bind (Pool.descriptor_met source) fun _ _ =>
        .bind (Pool.descriptor_met target) fun _ _ => .ite ?_ ?_
      · refine .bind (planCollection_failsBy _ _ _ _) fun plan? _ => ?_
        cases plan? <;> exact .ok _
      · split
        · exact .ok _
        · exact .ok _
        · exact .ite (.ok _) (.ite (.ok _) (.error (.noConversion _ _)))
        · exact .error (.noConversion _ _)
        · exact .bind (recordProgram_failsBy _ _ _ _) fun _ _ => .ok _

/-- There is no body only where the pool gives the reason, or where there is no conversion. -/
theorem body_failsBy (source target : ShapeId) :
    Except.FailsBy (·.Explained pool) (mapping.body pool source target) := by
  refine .bind (fun e he => (plan_failsBy source target e he).explained) fun plan hplan => ?_
  have hready : Except.FailsBy (·.Explained pool) (plan.ready pool mapping 0) := by
    intro e he
    obtain ⟨error, hcause, rfl, -⟩ := RoutinePlan.ready_eq_error (plan_sound hplan) he
    exact hcause
  exact hready.map Prod.fst

end Mapping

/-- Every program of a plan is valid. The locals it uses are in its table and are declared with the
shapes that the table has for them, and its converters are the mapping's. So the plan can be made
ready, unless the pool does not know a shape, or a program asks for the zero value of a shape that
contains itself, and there is no end to that : programs are refused and converters are missed only
where they have been made by hand. -/
theorem Mapping.wellFormed_of_plan {source target : ShapeId} {plan : RoutinePlan}
    (hplan : mapping.plan pool source target = .ok plan) :
    (∀ program ∈ plan.programs,
      program.validate = .ok () ∧
      (∀ x ∈ program.body.nodes, ∀ id, x.local? = some id →
        ∃ shape, program.localShape? id = some shape ∧
          .declareLocal id shape ∈ program.body.nodes) ∧
      (∀ id shape, .declareLocal id shape ∈ program.body.nodes →
        program.localShape? id = some shape) ∧
      ∀ id value, .convert (.custom id) value ∈ program.body.nodes →
        id.index < mapping.converters.length) ∧
    ∀ n, (∃ r, plan.ready pool mapping n = .ok r) ∨
      (∃ e : ShapeError, e.Plain ∧ e.CausedBy pool ∧
        plan.ready pool mapping n = .error (.shape e)) ∨
      (∃ x, plan.ready pool mapping n = .error (.shape (.endless x))) ∧ plan.Circles pool := by
  have hsound := Mapping.plan_sound hplan
  refine ⟨fun program hprogram => ?_, fun n => ?_⟩
  · obtain ⟨hvalid, hfinds⟩ := hsound program hprogram
    refine ⟨hvalid, fun x hx id hid => Program.declared_of_validate hvalid hx hid,
      fun id shape hid => ?_, fun id value hvalue => ?_⟩
    · exact Program.localShape?_of_validate hvalid hid
    · obtain ⟨r, hr⟩ := hfinds _ hvalue
      exact (List.getElem?_eq_some_iff.mp hr).1
  · cases hready : plan.ready pool mapping n with
    | ok r => exact .inl ⟨r, rfl⟩
    | error e =>
      obtain ⟨error, hcause, rfl, hplain | ⟨⟨x, rfl⟩, hcircles⟩⟩ :=
        RoutinePlan.ready_eq_error hsound hready
      · exact .inr (.inl ⟨error, hplain, hcause, rfl⟩)
      · exact .inr (.inr ⟨⟨x, rfl⟩, hcircles⟩)

end

/-! ## Rules that pair at random -/

namespace Spotted

/-- A value type. -/
def spot : Descriptor :=
  .ofRecord "Spot" [⟨"x", ShapeId.int, {}⟩, ⟨"y", ShapeId.int, {}⟩] true

def pool : Pool := Pool.initial.push ⟨"Spot", some spot⟩

/-- The first member is written twice, by a converter, and the last pair names no member. -/
def mapping : Mapping where
  id := ⟨"spotted"⟩
  rules := .fixed [⟨0, 0⟩, ⟨1, 0⟩, ⟨5, 1⟩]
  converters := [⟨ShapeId.int, ShapeId.int, ⟨"same", fun v _ heap => (.ok v, heap)⟩⟩]

end Spotted

/-- The program between spots makes one in a local of its own. It is valid, and can be made ready
unless the pool does not know a shape, for a spot does not contain itself. -/
theorem Mapping.wellFormed_of_plan_spotted : ∃ program,
    Spotted.mapping.plan Spotted.pool ⟨7⟩ ⟨7⟩ = .ok (.program program) ∧
      program.locals = [⟨7⟩, ⟨7⟩, ⟨7⟩] ∧ program.validate = .ok () ∧
      ∀ n, (∃ r, (RoutinePlan.program program).ready Spotted.pool Spotted.mapping n = .ok r) ∨
        ∃ e : ShapeError, e.Plain ∧ e.CausedBy Spotted.pool ∧
          (RoutinePlan.program program).ready Spotted.pool Spotted.mapping n =
            .error (.shape e) := by
  have hplan : Spotted.mapping.plan Spotted.pool ⟨7⟩ ⟨7⟩ = .ok (.program _) := rfl
  refine ⟨_, hplan, rfl, ?_⟩
  obtain ⟨hprograms, hready⟩ := wellFormed_of_plan hplan
  refine ⟨(hprograms _ (List.mem_singleton_self _)).1, fun n => ?_⟩
  rcases hready n with hok | hplain | ⟨⟨x, hx⟩, -⟩
  · exact .inl hok
  · exact .inr hplain
  · cases hx

/-! ## A value type that contains itself -/

namespace Coiled

def coil : Descriptor :=
  .ofRecord "Coil" [⟨"x", ⟨7⟩, {}⟩] true

def pool : Pool := Pool.initial.push ⟨"Coil", some coil⟩

end Coiled

/-- There is a plan between coils, and its program declares a local for one. But the descent to the
zero value of a coil has no end, and so there is neither a body nor an error. -/
theorem Mapping.exists_plan_circling : ∃ program,
    Mapping.initial.plan Coiled.pool ⟨7⟩ ⟨7⟩ = .ok (.program program) ∧
      .declareLocal ⟨0⟩ ⟨7⟩ ∈ program.body.nodes ∧
      (∀ depth, ∃ x, Coiled.pool.zeroValueWithin depth ⟨7⟩ = .error (.endless x)) ∧
      ∀ n, (¬∃ r, (RoutinePlan.program program).ready Coiled.pool Mapping.initial n = .ok r) ∧
        ¬∃ e : ShapeError, e.Plain ∧
          (RoutinePlan.program program).ready Coiled.pool Mapping.initial n =
            .error (.shape e) := by
  have hendless : Coiled.pool.zeroValue ⟨7⟩ = .error (.endless ⟨7⟩) := rfl
  refine ⟨_, rfl, List.mem_of_getElem? (i := 3) rfl, (Pool.circles_of_zeroValue hendless).endless,
    fun n => ⟨?_, ?_⟩⟩
  · rintro ⟨r, hr⟩
    cases hr
  · rintro ⟨e, hplain, he⟩
    cases he
    exact hplain

end Reshape
