import Reshape.Plan.Routine
import Reshape.Proofs.Outcome

/-!
# What is planned

The planner asks for converters, looks at two shapes and writes down a program. Here is what there
is to write down at all, whatever the shapes : a program answers what becomes of its source, by one
expression (`Expr.Converts`), or fills a record, each member with what becomes of another one
(`Mapping.supplies_of_memberWrites`), or makes a container (`RoutinePlan.Outlined`). What is true of
all planned programs is shown by cases on these, and the planner is walked through here alone.
-/

namespace Reshape

/-! ## Expressions -/

/-- The expression is made to convert `value`, into `current` if that is to be reused. A routine
that is not given it is given null. -/
inductive Expr.Converts (mapping : Mapping) (value current : Expr) : Expr → Prop
  | same : Converts mapping value current value
  | primitive {a b : Primitive} (hne : a ≠ b) (hcan : a.canConvert b = true) :
    Converts mapping value current (.convert (.primitive a b) value)
  | custom {source target : ShapeId} {id : ConverterId}
    (h : mapping.converterFor source target = some id) :
    Converts mapping value current (.convert (.custom id) value)
  | made (source target : ShapeId) :
    Converts mapping value current (.invoke source target value .null)
  | reused (source target : ShapeId) :
    Converts mapping value current (.invoke source target value current)

/-- The same, where the result may be taken out of its box. -/
def Expr.Supplies (mapping : Mapping) (value current e : Expr) : Prop :=
  ∃ made, Expr.Converts mapping value current made ∧ (e = made ∨ e = .unbox made)

namespace Mapping

variable {pool : Pool} {mapping : Mapping} {source target : ShapeId}

/-- A member is written with what becomes of the other one. -/
theorem supplies_of_memberValue {read current e : Expr}
    (h : memberValue pool mapping read source target current = .ok e) :
    Expr.Supplies mapping read current e := by
  have hplain {e : Expr} (he : Expr.Converts mapping read current e) :
      Expr.Supplies mapping read current e := ⟨e, he, Or.inl rfl⟩
  have hunboxed {e : Expr} (he : Expr.Converts mapping read current e) :
      Expr.Supplies mapping read current (.unbox e) := ⟨e, he, Or.inr rfl⟩
  unfold memberValue at h
  split at h
  · rename_i hfound
    cases h
    exact hplain (.custom hfound)
  obtain ⟨source, -, h⟩ := Except.bind_eq_ok_iff.mp h
  obtain ⟨target, -, h⟩ := Except.bind_eq_ok_iff.mp h
  split at h
  · rename_i hfound
    cases h
    exact hplain (.custom hfound)
  obtain ⟨sourceShape, -, h⟩ := Except.bind_eq_ok_iff.mp h
  obtain ⟨targetShape, -, h⟩ := Except.bind_eq_ok_iff.mp h
  split at h
  · split at h
    · cases h
      exact hplain .same
    · rename_i hne
      split at h
      · rename_i hcan
        cases h
        exact hplain (.primitive hne hcan)
      · cases h
  · cases h
    exact hunboxed (.made _ _)
  · cases h
  · split at h
    · cases h
      exact hplain .same
    · split at h
      · cases h
        exact hplain (.made _ _)
      · cases h
        split
        · exact hunboxed (.reused _ _)
        · exact hplain (.reused _ _)

/-- Whatever the rules pair, members of the one record are written with what becomes of members of
the other. -/
theorem supplies_of_memberWrites {sourceShape targetShape : Descriptor} {pairs : List MemberPair}
    {writes : List Expr}
    (h : memberWrites pool mapping source sourceShape target targetShape pairs = .ok writes) :
    ∀ e ∈ writes, ∃ pair ∈ pairs, ∃ value, e = .writeMember targetLocal pair.destination value ∧
      Expr.Supplies mapping (.readMember (.readLocal sourceLocal) source pair.source)
        (.readMember (.readLocal targetLocal) target pair.destination) value := by
  obtain ⟨writes?, hwrites, h⟩ := Except.bind_eq_ok_iff.mp h
  cases h
  intro e he
  obtain ⟨write?, hmem, he⟩ := List.mem_flatMap.mp he
  obtain ⟨pair, hpair, hwrite⟩ := (Except.mem_iff_of_mapM_eq_ok hwrites).mp hmem
  unfold memberWrite at hwrite
  split at hwrite
  · obtain ⟨value, hvalue, hwrite⟩ := Except.bind_eq_ok_iff.mp hwrite
    cases hwrite
    obtain rfl := List.mem_singleton.mp he
    exact ⟨pair, hpair, value, rfl, supplies_of_memberValue hvalue⟩
  · cases hwrite
    exact (List.not_mem_nil he).elim

end Mapping

/-! ## Plans -/

/-- The plan has one program for two shapes, or a program that makes a container, if any. -/
inductive RoutinePlan.Outlined (pool : Pool) (mapping : Mapping) : RoutinePlan → Prop
  | expr {e : Expr} (he : Expr.Converts mapping (.argument .source) (.argument .destination) e) :
    Outlined pool mapping (.program (.ofExpr e))
  | record {source target : ShapeId} {sourceShape targetShape : Descriptor} {program : Program}
    (h : mapping.recordProgram pool source sourceShape target targetShape = .ok program) :
    Outlined pool mapping (.program program)
  | collection {plan : CollectionPlan}
    (h : ∀ program ∈ plan.construct, ∃ shape, instanceProgram pool shape = .ok program) :
    Outlined pool mapping (.collection plan)
  | unresolved : Outlined pool mapping .unresolved

namespace Mapping

variable {pool : Pool} {mapping : Mapping} {source target : ShapeId}

theorem outlined_of_converterProgram {program : Program}
    (h : mapping.converterProgram source target = some program) :
    (RoutinePlan.program program).Outlined pool mapping := by
  obtain ⟨id, hfound, rfl⟩ := Option.map_eq_some_iff.mp h
  exact .expr (.custom hfound)

theorem outlined_anyProgram (pool : Pool) (mapping : Mapping) (source : ShapeId) :
    (RoutinePlan.program (mapping.anyProgram source)).Outlined pool mapping := by
  unfold anyProgram
  split
  · exact .expr .same
  · exact .expr (.made source source)

theorem outlined_of_planCollection {sourceShape targetShape : Descriptor} {plan : CollectionPlan}
    (h : planCollection pool mapping source sourceShape target targetShape = .ok (some plan)) :
    (RoutinePlan.collection plan).Outlined pool mapping := by
  unfold planCollection at h
  split at h
  · cases h
  · obtain ⟨inline, -, h⟩ := Except.bind_eq_ok_iff.mp h
    obtain ⟨construct, hconstruct, h⟩ := Except.bind_eq_ok_iff.mp h
    cases h
    refine .collection fun program hprogram => ?_
    obtain rfl : construct = some program := hprogram
    unfold containerProgram at hconstruct
    split at hconstruct
    · obtain ⟨made, hmade, hsome⟩ := Except.map_eq_ok_iff.mp hconstruct
      cases hsome
      exact ⟨target, hmade⟩
    · cases hconstruct

/-- The plans of shapes that have no converter keep to the outline, whichever branch they come from.
-/
theorem outlined_of_generatedPlan {plan : RoutinePlan}
    (h : mapping.generatedPlan pool source target = .ok plan) : plan.Outlined pool mapping := by
  obtain ⟨sourceShape, -, h⟩ := Except.bind_eq_ok_iff.mp h
  obtain ⟨targetShape, -, h⟩ := Except.bind_eq_ok_iff.mp h
  split at h
  · obtain ⟨plan?, hplan, h⟩ := Except.bind_eq_ok_iff.mp h
    cases plan? with
    | none =>
      cases h
      exact .unresolved
    | some plan =>
      cases h
      exact outlined_of_planCollection hplan
  split at h
  · cases h
    exact outlined_anyProgram pool mapping source
  · cases h
    exact .expr (.reused _ _)
  · split at h
    · cases h
      exact .expr .same
    · rename_i hne
      split at h
      · rename_i hcan
        cases h
        exact .expr (.primitive hne hcan)
      · cases h
  · cases h
  · obtain ⟨program, hprogram, h⟩ := Except.bind_eq_ok_iff.mp h
    cases h
    exact .record hprogram

/-- All that is planned is of this sort. -/
theorem outlined_of_plan {plan : RoutinePlan} (h : mapping.plan pool source target = .ok plan) :
    plan.Outlined pool mapping := by
  unfold Mapping.plan at h
  split at h
  · rename_i hfound
    cases h
    exact outlined_of_converterProgram hfound
  obtain ⟨source, -, h⟩ := Except.bind_eq_ok_iff.mp h
  obtain ⟨target, -, h⟩ := Except.bind_eq_ok_iff.mp h
  split at h
  · rename_i hfound
    cases h
    exact outlined_of_converterProgram hfound
  · exact outlined_of_generatedPlan h

end Mapping

end Reshape
