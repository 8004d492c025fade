import Reshape.Proofs.Pool.Failure

/-!
# Faults of programs

What stands in the way of a program that is made ready. Its expressions are met operands first,
from left to right (`Expr.inOrder`), and each may have a fault of its own (`Expr.fault?`) : the
pool cannot tell the shape that it starts a local or an instance with, or the mapping does not have
its converter. Getting ready fails just if there is such a fault, with the first that is met
(`Expr.ready_hasFault`). A program whose locals are not declared as they should be is refused before
any of them (`Program.ready_eq_error_iff`).

Two kinds of error are `Fatal`, that of a refused program and that of a missing converter. All
others are the pool's.
-/

namespace Reshape

/-! ## Expressions in order -/

mutual

/-- The expressions within an expression and the expression itself, in the order in which they are
made ready. -/
def Expr.inOrder : Expr → List Expr
  | .argument a => [.argument a]
  | .readLocal id => [.readLocal id]
  | .writeLocal id value => value.inOrder ++ [.writeLocal id value]
  | .declareLocal id shape => [.declareLocal id shape]
  | .newInstance shape => [.newInstance shape]
  | .box value => value.inOrder ++ [.box value]
  | .unbox value => value.inOrder ++ [.unbox value]
  | .returns value => value.inOrder ++ [.returns value]
  | .sequence children => Expr.inOrderAll children ++ [.sequence children]
  | .invoke source target value destination =>
    value.inOrder ++ destination.inOrder ++ [.invoke source target value destination]
  | .null => [.null]
  | .readMember object shape member => object.inOrder ++ [.readMember object shape member]
  | .writeMember id member value => value.inOrder ++ [.writeMember id member value]
  | .coalesce value fallback => value.inOrder ++ fallback.inOrder ++ [.coalesce value fallback]
  | .ifNotNull test body => test.inOrder ++ body.inOrder ++ [.ifNotNull test body]
  | .convert conversion value => value.inOrder ++ [.convert conversion value]

/-- The same for expressions that are made ready one after the other. -/
def Expr.inOrderAll : List Expr → List Expr
  | [] => []
  | e :: es => e.inOrder ++ Expr.inOrderAll es

end

/-! ## Faults of one expression -/

/-- The error of a computation that fails. -/
def Except.error? {ε α : Type} : Except ε α → Option ε
  | .error e => some e
  | .ok _ => none

theorem Except.error?_eq_some_iff {ε α : Type} {x : Except ε α} {e : ε} :
    Except.error? x = some e ↔ x = .error e := by
  cases x with
  | error e' => rw [error?, Option.some.injEq, Except.error.injEq]
  | ok a => exact ⟨nofun, nofun⟩

/-- What the pool fails with where the expression itself asks it about a shape : for the zero value
of a local, or for the template of an instance. -/
def Expr.shapeError? (pool : Pool) : Expr → Option ShapeError
  | .declareLocal _ shape => Except.error? (pool.zeroValue shape)
  | .newInstance shape => Except.error? (Template.ofShape pool shape)
  | _ => none

/-- The expression itself asks the pool for the zero value of this shape. -/
def Expr.Zeroes (pool : Pool) : Expr → ShapeId → Prop
  | .declareLocal _ shape, id => id = shape
  | .newInstance shape, id => pool.StartsWith shape id
  | _, _ => False

/-- What getting the expression ready fails with once its operands are ready. -/
def Expr.fault? (pool : Pool) (mapping : Mapping) : Expr → Option CompileError
  | .convert (.custom id) _ =>
    if mapping.converters.length ≤ id.index then some (.unknownConverter id) else none
  | e => (e.shapeError? pool).map .shape

/-- Nothing can go on from the error : the program is not a proper one, or it names a converter that
its mapping does not have. -/
def CompileError.Fatal : CompileError → Prop
  | malformed _ _ | unknownConverter _ => True
  | shape _ | noConversion _ _ => False

section

variable {pool : Pool} {mapping : Mapping} {e : Expr}

theorem Expr.fault?_custom_of_le {id : ConverterId} {value : Expr}
    (h : mapping.converters.length ≤ id.index) :
    (Expr.convert (.custom id) value).fault? pool mapping = some (.unknownConverter id) :=
  if_pos h

/-- The fault is that a converter is missing, or it is the pool's. -/
theorem Expr.fault?_eq_some_iff {fault : CompileError} : e.fault? pool mapping = some fault ↔
    (∃ id value, e = .convert (.custom id) value ∧ mapping.converters.length ≤ id.index ∧
      fault = .unknownConverter id) ∨
    ∃ error, e.shapeError? pool = some error ∧ fault = .shape error := by
  unfold fault?
  split
  · rename_i id value
    rw [Option.ite_none_right_eq_some, Option.some.injEq]
    constructor
    · rintro ⟨h, rfl⟩
      exact .inl ⟨id, value, rfl, h, rfl⟩
    · rintro (⟨_, _, ⟨⟩, h, rfl⟩ | ⟨_, h, -⟩)
      · exact ⟨h, rfl⟩
      · cases h
  · rename_i hother
    rw [Option.map_eq_some_iff]
    constructor
    · rintro ⟨error, h, rfl⟩
      exact .inr ⟨error, h, rfl⟩
    · rintro (⟨id, value, rfl, -⟩ | ⟨error, h, rfl⟩)
      · exact absurd rfl (hother id value)
      · exact ⟨error, h, rfl⟩

theorem Expr.shapeError?_eq_none_of_fault? (h : e.fault? pool mapping = none) :
    e.shapeError? pool = none := by
  rw [Option.eq_none_iff_forall_ne_some] at h ⊢
  exact fun error herror => h _ (fault?_eq_some_iff.mpr (.inr ⟨error, herror, rfl⟩))

/-- What the expression itself asks the pool for fails for a reason that the pool gives. -/
theorem Expr.causedBy_of_shapeError? {error : ShapeError} (h : e.shapeError? pool = some error) :
    error.CausedBy pool := by
  cases e with
  | declareLocal id shape => exact pool.zeroValue_failsBy shape _ (Except.error?_eq_some_iff.mp h)
  | newInstance shape =>
    exact Template.ofShape_failsBy pool shape _ (Except.error?_eq_some_iff.mp h)
  | _ => cases h

/-- If a descent into a shape is without end, it is that to a zero value. -/
theorem Expr.exists_circles_of_shapeError? {x : ShapeId}
    (h : e.shapeError? pool = some (.endless x)) : ∃ id, e.Zeroes pool id ∧ pool.Circles id := by
  cases e with
  | declareLocal _ shape =>
    exact ⟨shape, rfl, Pool.circles_of_zeroValue (Except.error?_eq_some_iff.mp h)⟩
  | newInstance shape => exact Pool.circles_of_template (Except.error?_eq_some_iff.mp h)
  | _ => cases h

/-- Where no value type leads back to itself, no descent into a shape is without end. -/
theorem Expr.plain_of_shapeError? (hpool : WellFounded pool.Contains) {error : ShapeError}
    (h : e.shapeError? pool = some error) : error.Plain := by
  cases error with
  | endless x =>
    obtain ⟨id, -, hcircles⟩ := exists_circles_of_shapeError? h
    exact not_leadsAround_of_acc (hpool.apply id) hcircles.around
  | _ => trivial

end

/-! ## Getting ready -/

/-- From any link number on the computation fails with this error, or with none. -/
def ReadyM.HasFault {α : Type} (x : ReadyM α) (fault? : Option CompileError) : Prop :=
  ∀ n, Except.error? (x n) = fault?

namespace ReadyM.HasFault

variable {α β : Type}

theorem pure (a : α) : HasFault (Pure.pure a : ReadyM α) none :=
  fun _ => rfl

/-- The first of two parts that fails decides. -/
theorem bind {x : ReadyM α} {f : α → ReadyM β} {first? second? : Option CompileError}
    (hx : HasFault x first?) (hf : ∀ a, HasFault (f a) second?) :
    HasFault (x >>= f) (first?.or second?) := by
  intro n
  have hfirst := hx n
  cases h : x n with
  | error e =>
    rw [h] at hfirst
    rw [ReadyM.bind_of_error h, ← hfirst]
    rfl
  | ok r =>
    rw [h] at hfirst
    change Except.error? (x n >>= fun p => f p.1 p.2) = _
    rw [h, ← hfirst]
    exact hf r.1 r.2

theorem bind_pure {x : ReadyM α} {fault? : Option CompileError} (hx : HasFault x fault?)
    (f : α → β) : HasFault (x >>= fun a => Pure.pure (f a)) fault? := by
  have h := hx.bind fun a => pure (f a)
  rwa [Option.or_none] at h

theorem ofPool (x : Except ShapeError α) :
    HasFault (ReadyM.ofPool x) ((Except.error? x).map .shape) := by
  intro n
  cases x <;> rfl

end ReadyM.HasFault

theorem List.findSome?_concat {α β : Type} (f : α → Option β) (as : List α) (a : α) :
    (as ++ [a]).findSome? f = (as.findSome? f).or (f a) := by
  rw [List.findSome?_append, List.findSome?_singleton]

mutual

/-- An expression fails with the first fault that is met in it. -/
theorem Expr.ready_hasFault {pool : Pool} {mapping : Mapping} : ∀ (e : Expr),
    ReadyM.HasFault (e.ready pool mapping) (e.inOrder.findSome? (·.fault? pool mapping))
  | .argument _ | .readLocal _ | .null => .pure _
  | .declareLocal _ shape => by
    rw [inOrder, List.findSome?_singleton]
    exact .bind_pure (.ofPool (pool.zeroValue shape)) _
  | .newInstance shape => by
    rw [inOrder, List.findSome?_singleton]
    exact .bind_pure (.ofPool (Template.ofShape pool shape)) _
  | .writeLocal _ value | .box value | .unbox value | .returns value | .readMember value _ _
  | .writeMember _ _ value | .convert (.primitive _ _) value => by
    rw [inOrder, List.findSome?_concat]
    exact .bind value.ready_hasFault fun _ => .pure _
  | .convert (.custom id) value => by
    rw [inOrder, List.findSome?_concat]
    refine .bind value.ready_hasFault fun _ => ?_
    cases hconverter : mapping.converter? id with
    | none =>
      rw [Expr.fault?_custom_of_le (List.getElem?_eq_none_iff.mp hconverter)]
      exact fun _ => rfl
    | some converter =>
      have hlt : id.index < mapping.converters.length := (List.getElem?_eq_some_iff.mp hconverter).1
      have hnone : (Expr.convert (.custom id) value).fault? pool mapping = none :=
        if_neg (Nat.not_le.mpr hlt)
      rw [hnone]
      exact .pure _
  | .sequence children => by
    rw [inOrder, List.findSome?_concat]
    exact .bind (Expr.readyAll_hasFault children) fun _ => .pure _
  | .invoke source _ value destination => by
    rw [inOrder, List.append_assoc, List.findSome?_append, List.findSome?_concat]
    refine .bind value.ready_hasFault fun _ => .bind destination.ready_hasFault fun _ => ?_
    split
    · exact .pure _
    · exact fun _ => rfl
  | .coalesce first branch | .ifNotNull first branch => by
    rw [inOrder, List.append_assoc, List.findSome?_append, List.findSome?_concat]
    exact .bind first.ready_hasFault fun _ => .bind branch.ready_hasFault fun _ => .pure _

theorem Expr.readyAll_hasFault {pool : Pool} {mapping : Mapping} : ∀ (es : List Expr),
    ReadyM.HasFault (Expr.readyAll pool mapping es)
      ((Expr.inOrderAll es).findSome? (·.fault? pool mapping))
  | [] => .pure _
  | e :: es => by
    rw [Expr.inOrderAll, List.findSome?_append]
    exact .bind e.ready_hasFault fun _ => .bind_pure (Expr.readyAll_hasFault es) _

end

/-! ## Programs -/

namespace Program

variable {program : Program} {pool : Pool} {mapping : Mapping} {n : Nat}

theorem ready_hasFault (h : program.validate = .ok ()) : ReadyM.HasFault
    (program.ready pool mapping) (program.body.inOrder.findSome? (·.fault? pool mapping)) := by
  unfold ready
  rw [h]
  exact .bind_pure program.body.ready_hasFault _

theorem ready_eq_error_of_validate {defect : Defect} (h : program.validate = .error defect) :
    program.ready pool mapping n = .error (.malformed defect program.text) := by
  unfold ready
  rw [h]
  rfl

/-- A program is not made ready if its locals are not declared as they should be, or else if one of
its expressions has a fault. The error is that of the first such expression. -/
theorem ready_eq_error_iff {e : CompileError} : program.ready pool mapping n = .error e ↔
    (∃ defect, program.validate = .error defect ∧ e = .malformed defect program.text) ∨
    program.validate = .ok () ∧ ∃ before x after, program.body.inOrder = before ++ x :: after ∧
      x.fault? pool mapping = some e ∧ ∀ y ∈ before, y.fault? pool mapping = none := by
  cases hvalid : program.validate with
  | error defect =>
    rw [ready_eq_error_of_validate hvalid, Except.error.injEq]
    constructor
    · rintro rfl
      exact .inl ⟨defect, rfl, rfl⟩
    · rintro (⟨_, ⟨⟩, rfl⟩ | ⟨h, -⟩)
      · rfl
      · cases h
  | ok _ =>
    rw [← Except.error?_eq_some_iff, ready_hasFault hvalid n, List.findSome?_eq_some_iff]
    constructor
    · exact fun h => .inr ⟨rfl, h⟩
    · rintro (⟨_, h, -⟩ | ⟨-, h⟩)
      · cases h
      · exact h

/-- The error is fatal just if the program is refused, or a converter is found missing before the
pool fails. -/
theorem ready_fatal_iff : (∃ e, program.ready pool mapping n = .error e ∧ e.Fatal) ↔
    (∃ defect, program.validate = .error defect) ∨
    program.validate = .ok () ∧ ∃ before id value after,
      program.body.inOrder = before ++ .convert (.custom id) value :: after ∧
      mapping.converters.length ≤ id.index ∧ ∀ x ∈ before, x.shapeError? pool = none := by
  constructor
  · rintro ⟨e, he, hfatal⟩
    rcases ready_eq_error_iff.mp he with
      ⟨defect, hdefect, -⟩ | ⟨hvalid, before, x, after, hbody, hx, hbefore⟩
    · exact .inl ⟨defect, hdefect⟩
    · rcases Expr.fault?_eq_some_iff.mp hx with ⟨id, value, rfl, hid, -⟩ | ⟨error, -, rfl⟩
      · exact .inr ⟨hvalid, before, id, value, after, hbody, hid,
          fun y hy => Expr.shapeError?_eq_none_of_fault? (hbefore y hy)⟩
      · exact hfatal.elim
  · rintro (⟨defect, hdefect⟩ | ⟨hvalid, before, id, value, after, hbody, hid, hbefore⟩)
    · exact ⟨_, ready_eq_error_of_validate hdefect, trivial⟩
    · suffices hfault : ∃ e, program.body.inOrder.findSome? (·.fault? pool mapping) = some e ∧
          e.Fatal from
        hfault.imp fun e ⟨he, hfatal⟩ =>
          ⟨Except.error?_eq_some_iff.mp ((ready_hasFault hvalid n).trans he), hfatal⟩
      rw [hbody, List.findSome?_append]
      cases hfirst : before.findSome? (·.fault? pool mapping) with
      | none =>
        refine ⟨.unknownConverter id, ?_, trivial⟩
        rw [Option.none_or, List.findSome?_cons, Expr.fault?_custom_of_le hid]
      | some e =>
        -- Before any error of the pool there are no faults but those of other converters.
        refine ⟨e, rfl, ?_⟩
        obtain ⟨y, hy, hfault⟩ := List.exists_of_findSome?_eq_some hfirst
        rcases Expr.fault?_eq_some_iff.mp hfault with ⟨_, _, -, -, rfl⟩ | ⟨error, herror, -⟩
        · trivial
        · cases (hbefore y hy).symm.trans herror

/-- An error that is not fatal is the first of the pool's. -/
theorem shape_of_ready_eq_error {e : CompileError} (h : program.ready pool mapping n = .error e)
    (hfatal : ¬ e.Fatal) : ∃ before x after error,
      program.body.inOrder = before ++ x :: after ∧ x.shapeError? pool = some error ∧
      (∀ y ∈ before, y.fault? pool mapping = none) ∧ e = .shape error := by
  rcases ready_eq_error_iff.mp h with ⟨_, -, rfl⟩ | ⟨-, before, x, after, hbody, hx, hbefore⟩
  · exact absurd trivial hfatal
  · rcases Expr.fault?_eq_some_iff.mp hx with ⟨_, _, -, -, rfl⟩ | ⟨error, herror, rfl⟩
    · exact absurd trivial hfatal
    · exact ⟨before, x, after, error, hbody, herror, hbefore, rfl⟩

end Program

end Reshape
