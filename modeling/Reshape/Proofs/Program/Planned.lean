import Reshape.Proofs.Program.Emitted

/-!
# Expressions of planned programs

What planned programs consist of, wherever it stands in them (`Expr.Planned`). None of it reads the
caller's own value, which is meant for converters. And a primitive is converted into another one
only where there is a conversion between the two, for the table of conversions is asked when the
program is planned (`Mapping.planned_of_plan`).
-/

namespace Reshape

/-- The expression itself is none that reads the caller's own value, or converts a primitive into
one that it does not convert into. -/
def Expr.Plannable : Expr → Prop
  | .argument a => a ≠ .state
  | .convert (.primitive a b) _ => a ≠ b ∧ a.canConvert b = true
  | _ => True

/-- The same of all expressions within the expression. -/
def Expr.Planned (e : Expr) : Prop := ∀ x ∈ e.nodes, x.Plannable

/-- The same of all programs of a plan. -/
def RoutinePlan.Planned (plan : RoutinePlan) : Prop :=
  ∀ program ∈ plan.programs, program.body.Planned

/-! ## Expressions -/

namespace Expr

variable {a b : Primitive} {id : LocalId} {shape source target : ShapeId} {member : Nat}
  {converter : ConverterId} {value first second : Expr} {children : List Expr}

theorem planned_nodesAll_iff :
    (∀ x ∈ nodesAll children, x.Plannable) ↔ ∀ e ∈ children, e.Planned := by
  induction children with
  | nil => simp [nodesAll]
  | cons e es ih => simp only [nodesAll, List.forall_mem_append, ih, List.forall_mem_cons, Planned]

@[simp]
theorem planned_argument {a : Argument} : (argument a).Planned ↔ a ≠ .state :=
  List.forall_mem_singleton

@[simp]
theorem planned_readLocal : (readLocal id).Planned :=
  List.forall_mem_singleton.mpr trivial

@[simp]
theorem planned_declareLocal : (declareLocal id shape).Planned :=
  List.forall_mem_singleton.mpr trivial

@[simp]
theorem planned_newInstance : (newInstance shape).Planned :=
  List.forall_mem_singleton.mpr trivial

@[simp]
theorem planned_null : null.Planned :=
  List.forall_mem_singleton.mpr trivial

@[simp]
theorem planned_writeLocal : (writeLocal id value).Planned ↔ value.Planned :=
  List.forall_mem_cons.trans (and_iff_right trivial)

@[simp]
theorem planned_box : (box value).Planned ↔ value.Planned :=
  List.forall_mem_cons.trans (and_iff_right trivial)

@[simp]
theorem planned_unbox : (unbox value).Planned ↔ value.Planned :=
  List.forall_mem_cons.trans (and_iff_right trivial)

@[simp]
theorem planned_returns : (returns value).Planned ↔ value.Planned :=
  List.forall_mem_cons.trans (and_iff_right trivial)

@[simp]
theorem planned_readMember : (readMember value shape member).Planned ↔ value.Planned :=
  List.forall_mem_cons.trans (and_iff_right trivial)

@[simp]
theorem planned_writeMember : (writeMember id member value).Planned ↔ value.Planned :=
  List.forall_mem_cons.trans (and_iff_right trivial)

@[simp]
theorem planned_custom : (convert (.custom converter) value).Planned ↔ value.Planned :=
  List.forall_mem_cons.trans (and_iff_right trivial)

@[simp]
theorem planned_primitive : (convert (.primitive a b) value).Planned ↔
    (a ≠ b ∧ a.canConvert b = true) ∧ value.Planned :=
  List.forall_mem_cons

@[simp]
theorem planned_sequence : (sequence children).Planned ↔ ∀ e ∈ children, e.Planned :=
  List.forall_mem_cons.trans ((and_iff_right trivial).trans planned_nodesAll_iff)

@[simp]
theorem planned_invoke :
    (invoke source target first second).Planned ↔ first.Planned ∧ second.Planned :=
  List.forall_mem_cons.trans ((and_iff_right trivial).trans List.forall_mem_append)

@[simp]
theorem planned_coalesce : (coalesce first second).Planned ↔ first.Planned ∧ second.Planned :=
  List.forall_mem_cons.trans ((and_iff_right trivial).trans List.forall_mem_append)

@[simp]
theorem planned_ifNotNull : (ifNotNull first second).Planned ↔ first.Planned ∧ second.Planned :=
  List.forall_mem_cons.trans ((and_iff_right trivial).trans List.forall_mem_append)

end Expr

/-- A primitive is converted only where there is a conversion. -/
theorem Expr.Converts.planned {mapping : Mapping} {value current e : Expr}
    (h : Expr.Converts mapping value current e) (hvalue : value.Planned)
    (hcurrent : current.Planned) : e.Planned := by
  cases h with
  | primitive hne hcan => exact Expr.planned_primitive.mpr ⟨⟨hne, hcan⟩, hvalue⟩
  | _ => simp [hvalue, hcurrent]

theorem Expr.Supplies.planned {mapping : Mapping} {value current e : Expr}
    (h : Expr.Supplies mapping value current e) (hvalue : value.Planned)
    (hcurrent : current.Planned) : e.Planned := by
  obtain ⟨made, hmade, rfl | rfl⟩ := h
  · exact hmade.planned hvalue hcurrent
  · exact Expr.planned_unbox.mpr (hmade.planned hvalue hcurrent)

theorem Construction.planned_expr (c : Construction) (shape : ShapeId) (first : LocalId) :
    (c.expr shape first).Planned := by
  cases c <;> simp [expr]

theorem instanceProgram_planned {pool : Pool} {shape : ShapeId} {program : Program}
    (h : instanceProgram pool shape = .ok program) : program.body.Planned := by
  obtain ⟨shape, -, h⟩ := Except.bind_eq_ok_iff.mp h
  obtain ⟨known, -, h⟩ := Except.bind_eq_ok_iff.mp h
  cases h
  exact Expr.planned_returns.mpr ((Construction.ofDescriptor known).planned_expr shape ⟨0⟩)

/-! ## Plans -/

namespace Mapping

variable {pool : Pool} {mapping : Mapping} {source target : ShapeId}

theorem recordProgram_planned {sourceShape targetShape : Descriptor} {program : Program}
    (h : recordProgram pool mapping source sourceShape target targetShape = .ok program) :
    program.body.Planned := by
  obtain ⟨writes, hwrites, h⟩ := Except.bind_eq_ok_iff.mp h
  cases h
  have hmade := (Construction.ofDescriptor targetShape).planned_expr target ⟨2⟩
  have hwritten : ∀ e ∈ writes ++ [.returns (if targetShape.valueType then
      .box (.readLocal targetLocal) else .readLocal targetLocal)], Expr.Planned e := by
    refine List.forall_mem_append.mpr ⟨fun e he => ?_, ?_⟩
    · obtain ⟨pair, -, value, rfl, hvalue⟩ := supplies_of_memberWrites hwrites e he
      exact Expr.planned_writeMember.mpr (hvalue.planned (by simp) (by simp))
    · cases targetShape.valueType <;> simp
  simp only [Expr.planned_ifNotNull, Expr.planned_sequence, List.forall_mem_cons]
  simpa [hmade] using hwritten

theorem planned_of_plan {plan : RoutinePlan} (h : mapping.plan pool source target = .ok plan) :
    plan.Planned := by
  cases outlined_of_plan h with
  | expr he =>
    exact List.forall_mem_singleton.mpr (Expr.planned_returns.mpr
      (he.planned (by simp) (by simp)))
  | record hrecord => exact List.forall_mem_singleton.mpr (recordProgram_planned hrecord)
  | collection hconstruct =>
    intro program hprogram
    obtain ⟨shape, hmade⟩ := hconstruct program (Option.mem_toList.mp hprogram)
    exact instanceProgram_planned hmade
  | unresolved => exact fun _ hmem => (List.not_mem_nil hmem).elim

end Mapping

end Reshape
