import Reshape.Proofs.Routine.Compiled

/-!
# Bodies of routines

The body of the routine for two shapes is made for the shapes below the nullable ones
(`Mapping.body_congr`). From `any`, and into it, a body only asks for another routine
(`Mapping.body_from_any`, `Mapping.body_into_any`) ; into an array or a list it takes each element
through a routine (`Mapping.body_into_whole`), and into other collections the source makes no
difference (`Mapping.body_into_other`). All this is about mappings without converters that copy
deep.
-/

set_option linter.unusedSectionVars false

namespace Reshape

/-! ## Programs -/

/-- The transfer that copies a value as one of the shape `source`. -/
def Transfer.copy (source : ShapeId) : Transfer :=
  if source = ShapeId.any then .dynamic none false false
  else .linked ⟨⟨0⟩, source, source⟩ false false

/-- The way of elements of one shape into an array or a list of another. -/
def ElementPath.between (source element : ShapeId) : ElementPath :=
  if source = ShapeId.any then .dynamic (if element = ShapeId.any then none else some element)
  else .linked ⟨⟨0⟩, source, element⟩

/-- A collection is an array or a list of declared elements, or is made of whatever there is. -/
theorem CollectionKind.whole_or_other (d : Descriptor) :
    (∃ kind : CollectionKind, (kind = .array ∨ kind = .typedList) ∧ ofDescriptor? d = some kind) ∨
      ∀ kind, ofDescriptor? d = some kind → kind ≠ .array ∧ kind ≠ .typedList := by
  cases hkind : ofDescriptor? d with
  | none => exact Or.inr nofun
  | some kind =>
    cases kind with
    | array => exact Or.inl ⟨_, Or.inl rfl, rfl⟩
    | typedList => exact Or.inl ⟨_, Or.inr rfl, rfl⟩
    | untypedList | genericInsertable =>
      refine Or.inr fun kind heq => ?_
      obtain rfl := Option.some.inj heq
      exact ⟨nofun, nofun⟩

namespace Mapping

section

variable {pool : Pool} {mapping : Mapping} (hconverters : mapping.converters = [])
  {S S' T T' source source' target : ShapeId} {sourceShape sourceShape' targetShape : Descriptor}

include hconverters

/-- Without converters, a body is that of the plan for the shapes below the two. -/
theorem body_eq (S T : ShapeId) : mapping.body pool S T = (do
    let source ← Pool.orCompileError (pool.stripNullable S)
    let target ← Pool.orCompileError (pool.stripNullable T)
    let plan ← mapping.generatedPlan pool source target
    (plan.ready pool mapping).run' 0) := by
  unfold body plan converterProgram
  simp only [converterFor_eq_none hconverters, Option.map_none, bind_assoc]

/-- The body is made for the shapes below the nullable ones. -/
theorem body_congr (hS : pool.stripNullable S = pool.stripNullable S')
    (hT : pool.stripNullable T = pool.stripNullable T') :
    mapping.body pool S T = mapping.body pool S' T' := by
  rw [body_eq hconverters, body_eq hconverters, hS, hT]

theorem body_of_below (hs : pool.Below S source sourceShape)
    (ht : pool.Below T target targetShape) : mapping.body pool S T = (do
      let plan ← mapping.generatedPlan pool source target
      (plan.ready pool mapping).run' 0) := by
  rw [body_eq hconverters, hs.strip, ht.strip]
  rfl

/-- Where nothing lies below the target, the source makes no difference. -/
theorem body_of_strip_eq_error (hs : pool.Below S source sourceShape)
    (hs' : pool.Below S' source' sourceShape') {e : ShapeError}
    (hT : pool.stripNullable T = .error e) : mapping.body pool S T = mapping.body pool S' T := by
  rw [body_eq hconverters, body_eq hconverters, hs.strip, hs'.strip, hT]
  rfl

omit hconverters in
/-- The program that answers what an expression comes to. -/
theorem ready_ofExpr {e : Expr} {code : Code} {n : Nat}
    (hvalid : (Program.ofExpr e).validate = .ok ())
    (hready : e.ready pool mapping 0 = .ok (code, n)) :
    ((RoutinePlan.program (.ofExpr e)).ready pool mapping).run' 0 =
      .ok (.program ⟨.returns code, 0⟩) := by
  have hprogram : (Program.ofExpr e).ready pool mapping 0 = .ok (⟨.returns code, 0⟩, n) := by
    refine Program.ready_eq_ok_iff.mpr ⟨hvalid, .returns code, n, ?_, rfl⟩
    exact ReadyM.bind_eq_ok_iff.mpr ⟨code, n, hready, rfl⟩
  have hplan : (RoutinePlan.program (.ofExpr e)).ready pool mapping 0 =
      .ok (.program ⟨.returns code, 0⟩, n) :=
    ReadyM.bind_eq_ok_iff.mpr ⟨_, n, hprogram, rfl⟩
  exact Except.map_eq_ok_iff.mpr ⟨_, hplan, rfl⟩

omit hconverters in
/-- The plan for a destination that is no collection, by the kinds of the two shapes. -/
theorem generatedPlan_of_not_collection (hs : pool.descriptor source = .ok sourceShape)
    (ht : pool.descriptor target = .ok targetShape)
    (hcollection : targetShape.isCollection = false) :
    mapping.generatedPlan pool source target =
      match sourceShape.kind, targetShape.kind with
      | _, .any => return .program (mapping.anyProgram source)
      | .any, _ =>
        return .program (.ofExpr
          (.invoke ShapeId.any target (.argument .source) (.argument .destination)))
      | .primitive a, .primitive b =>
        if a = b then return .program (.ofExpr (.argument .source))
        else if a.canConvert b then
          return .program (.ofExpr (.convert (.primitive a b) (.argument .source)))
        else throw (noConversion pool source target)
      | _, .primitive _ => throw (noConversion pool source target)
      | _, _ =>
        return .program (← recordProgram pool mapping source sourceShape target targetShape) := by
  unfold generatedPlan
  rw [hs, ht]
  change (if targetShape.isCollection = true then _ else _) = _
  rw [hcollection]
  rfl

/-- From `any`, the shape of the source decides. -/
theorem body_from_any (hs : pool.Below S ShapeId.any sourceShape) (hkind : sourceShape.kind = .any)
    (ht : pool.Below T target targetShape) (hany : targetShape.kind ≠ .any)
    (hcollection : targetShape.isCollection = false) :
    mapping.body pool S T = .ok (.program ⟨.returns
      ((Transfer.dynamic (some target) true false).code (.argument .source)
        (.argument .destination)), 0⟩) := by
  have hplan : mapping.generatedPlan pool ShapeId.any target = .ok (.program (.ofExpr
      (.invoke ShapeId.any target (.argument .source) (.argument .destination)))) := by
    rw [generatedPlan_of_not_collection hs.descriptor ht.descriptor hcollection, hkind]
    cases hk : targetShape.kind <;> first | rfl | exact absurd hk hany
  have hready : (Expr.invoke ShapeId.any target (.argument .source)
      (.argument .destination)).ready pool mapping 0 =
        .ok (.invokeDynamic target (.argument .source) (.argument .destination), 0) :=
    ReadyM.bind_eq_ok_iff.mpr ⟨_, 0, rfl, ReadyM.bind_eq_ok_iff.mpr ⟨_, 0, rfl, if_pos rfl ▸ rfl⟩⟩
  rw [body_of_below hconverters hs ht, hplan]
  exact ready_ofExpr rfl hready

/-- Into `any` goes a copy of the source. -/
theorem body_into_any (hdeep : mapping.copyMode = .deep) (hs : pool.Below S source sourceShape)
    (ht : pool.Below T target targetShape) (hany : targetShape.kind = .any) :
    mapping.body pool S T = .ok (.program ⟨.returns
      ((Transfer.copy source).code (.argument .source) (.argument .destination)), 0⟩) := by
  have hplan : mapping.generatedPlan pool source target = .ok (.program (.ofExpr
      (.invoke source source (.argument .source) .null))) := by
    rw [generatedPlan_of_not_collection hs.descriptor ht.descriptor
      (by simp [Descriptor.isCollection, hany]), hany]
    unfold anyProgram
    rw [hdeep]
    rfl
  have hready : ∃ n, (Expr.invoke source source (.argument .source) .null).ready pool mapping 0 =
      .ok ((Transfer.copy source).code (.argument .source) (.argument .destination), n) := by
    unfold Transfer.copy
    by_cases hsource : source = ShapeId.any
    · refine ⟨0, ReadyM.bind_eq_ok_iff.mpr ⟨_, 0, rfl, ReadyM.bind_eq_ok_iff.mpr ⟨_, 0, rfl, ?_⟩⟩⟩
      rw [if_pos hsource, if_pos hsource, hsource]
      rfl
    · refine ⟨1, ReadyM.bind_eq_ok_iff.mpr ⟨_, 0, rfl, ReadyM.bind_eq_ok_iff.mpr ⟨_, 0, rfl, ?_⟩⟩⟩
      rw [if_neg hsource, if_neg hsource]
      rfl
  obtain ⟨n, hready⟩ := hready
  rw [body_of_below hconverters hs ht, hplan]
  exact ready_ofExpr rfl hready

/-! ### Collections -/

omit hconverters in
/-- The plan for a collection, or for one that cannot be built. -/
theorem generatedPlan_of_collection (hs : pool.descriptor source = .ok sourceShape)
    (ht : pool.descriptor target = .ok targetShape)
    (hcollection : targetShape.isCollection = true) :
    mapping.generatedPlan pool source target = (do
      match ← planCollection pool mapping source sourceShape target targetShape with
      | some plan => return .collection plan
      | none => return .unresolved) := by
  unfold generatedPlan
  rw [hs, ht]
  change (if targetShape.isCollection = true then _ else _) = _
  rw [hcollection]
  rfl

/-- An array or a list is made of what becomes of the elements. -/
theorem body_into_whole (hdeep : mapping.copyMode = .deep) (hs : pool.Below S source sourceShape)
    (ht : pool.Below T target targetShape) {kind : CollectionKind}
    (hkind : CollectionKind.ofDescriptor? targetShape = some kind)
    (hwhole : kind = .array ∨ kind = .typedList) : mapping.body pool S T = (do
      let inline ← storesInline pool targetShape.element?
      return .collection ⟨kind, target, .between (sourceElement source sourceShape)
        (targetShape.element?.getD ShapeId.any), inline, none⟩) := by
  have hcollection : targetShape.isCollection = true := by
    obtain ⟨_, _, hcollection⟩ := CollectionKind.exists_collection_of_ofDescriptor? hkind
    simp [Descriptor.isCollection, hcollection]
  rw [body_of_below hconverters hs ht,
    generatedPlan_of_collection hs.descriptor ht.descriptor hcollection]
  unfold planCollection containerProgram
  rw [hkind, hdeep]
  dsimp only
  rw [elementRoute_of_whole hwhole, if_neg (by rcases hwhole with rfl | rfl <;> decide),
    if_neg (by simp)]
  cases storesInline pool targetShape.element? with
  | error e => rfl
  | ok inline =>
    unfold ElementPath.between
    by_cases hany : sourceElement source sourceShape = ShapeId.any
    · rw [if_pos hany, if_pos hany]
      rfl
    · rw [if_neg hany, if_neg hany]
      rfl

/-- Into other collections, the shape of each element decides. -/
theorem body_into_other (hdeep : mapping.copyMode = .deep) (hs : pool.Below S source sourceShape)
    (hs' : pool.Below S' source' sourceShape') (ht : pool.Below T target targetShape)
    (hcollection : targetShape.isCollection = true)
    (hother : ∀ kind, CollectionKind.ofDescriptor? targetShape = some kind →
      kind ≠ .array ∧ kind ≠ .typedList) : mapping.body pool S T = mapping.body pool S' T := by
  rw [body_of_below hconverters hs ht, body_of_below hconverters hs' ht,
    generatedPlan_of_collection hs.descriptor ht.descriptor hcollection,
    generatedPlan_of_collection hs'.descriptor ht.descriptor hcollection]
  unfold planCollection
  rw [hdeep]
  cases hkind : CollectionKind.ofDescriptor? targetShape with
  | none => rfl
  | some kind =>
    cases kind with
    | array => exact absurd rfl (hother _ hkind).1
    | typedList => exact absurd rfl (hother _ hkind).2
    | untypedList | genericInsertable => rfl

/-- There is a routine from `any` wherever there is one from another shape. -/
theorem exists_body_from_any (hpool : Pool.initial.GrowsTo pool)
    (hdeep : mapping.copyMode = .deep) {body : Body} (hbody : mapping.body pool S T = .ok body) :
    ∃ body, mapping.body pool ShapeId.any T = .ok body := by
  obtain ⟨source, sourceShape, target, targetShape, hS, hT, -⟩ :=
    exists_form hpool hconverters hbody
  have hany := Pool.Below.any hpool
  by_cases hkind : targetShape.kind = .any
  · exact ⟨_, body_into_any hconverters hdeep hany hT hkind⟩
  cases hcollection : targetShape.isCollection with
  | false => exact ⟨_, body_from_any hconverters hany rfl hT hkind hcollection⟩
  | true =>
    rcases CollectionKind.whole_or_other targetShape with ⟨kind, hkind, hof⟩ | hother
    · rw [body_into_whole hconverters hdeep hS hT hof hkind] at hbody
      obtain ⟨inline, hinline, -⟩ := Except.bind_eq_ok_iff.mp hbody
      rw [body_into_whole hconverters hdeep hany hT hof hkind, hinline]
      exact ⟨_, rfl⟩
    · exact ⟨body, (body_into_other hconverters hdeep hany hS hT hcollection hother).trans hbody⟩

end

end Mapping

end Reshape
