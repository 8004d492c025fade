import Reshape.Plan.Collection

/-!
# Plans for routines

`Mapping.plan` says how values of one shape are converted into another : by a `Program`, by
a `CollectionPlan` if the destination is a collection, or not at all if it is a collection
that cannot be built. A converter registered for the two shapes takes the place of all
that, first for the shapes as they are and then for the shapes below nullable ones.

The program for a record (`recordProgram`) takes the supplied destination or makes one, and
writes the members that the rules pair. What is written is decided by the shapes of the two
members (`memberValue`). Conversions of members and elements are left to other routines,
which are named by their shapes and not compiled here.
-/

namespace Reshape

/-- What is planned for a source and a destination shape. -/
inductive RoutinePlan where
  | program (program : Program)
  | collection (plan : CollectionPlan)
  /-- The destination is a collection that cannot be built ; all values become null. -/
  | unresolved
  deriving Inhabited

/-- The program that answers a value made of its arguments, and has no locals. -/
def Program.ofExpr (e : Expr) : Program := ⟨[], .returns e⟩

namespace Mapping

/-- The failure for two shapes between which no conversion is known. -/
def noConversion (pool : Pool) (source target : ShapeId) : CompileError :=
  .noConversion (pool.nameOf source) (pool.nameOf target)

/-- The program of a converter registered for exactly these shapes. -/
def converterProgram (mapping : Mapping) (source target : ShapeId) : Option Program :=
  (mapping.converterFor source target).map fun id =>
    .ofExpr (.convert (.custom id) (.argument .source))

/-- The program into the shape `any` : the source itself, or a copy of its own shape. -/
def anyProgram (mapping : Mapping) (source : ShapeId) : Program :=
  match mapping.copyMode with
  | .shallow => .ofExpr (.argument .source)
  | .deep => .ofExpr (.invoke source source (.argument .source) .null)

/-- What a member of shape `source`, read by `read`, becomes in a place of shape `target`
that holds `current`. -/
def memberValue (pool : Pool) (mapping : Mapping) (read : Expr) (source target : ShapeId)
    (current : Expr) : Except CompileError Expr := do
  match mapping.converterFor source target with
  | some id => return .convert (.custom id) read
  | none =>
    let source ← Pool.orCompileError (pool.stripNullable source)
    let target ← Pool.orCompileError (pool.stripNullable target)
    match mapping.converterFor source target with
    | some id => return .convert (.custom id) read
    | none =>
      let sourceShape ← Pool.orCompileError (pool.descriptor source)
      let targetShape ← Pool.orCompileError (pool.descriptor target)
      match sourceShape.kind, targetShape.kind with
      | .primitive a, .primitive b =>
        if a = b then return read
        else if a.canConvert b then return .convert (.primitive a b) read
        else throw (noConversion pool source target)
      | .any, .primitive _ => return .unbox (.invoke ShapeId.any target read .null)
      | _, .primitive _ => throw (noConversion pool source target)
      | _, targetKind =>
        if mapping.copyMode = .shallow ∧ (source = target ∨ target = ShapeId.any) then return read
        else if targetKind = .any then return .invoke source source read .null
        else
          let made := Expr.invoke source target read current
          return if targetShape.valueType then .unbox made else made

/-- The local that holds the source record. -/
def sourceLocal : LocalId := ⟨0⟩

/-- The local that holds the destination record. -/
def targetLocal : LocalId := ⟨1⟩

/-- The expression that writes a paired member, if both members exist. -/
def memberWrite (pool : Pool) (mapping : Mapping) (source : ShapeId) (sourceShape : Descriptor)
    (target : ShapeId) (targetShape : Descriptor) (pair : MemberPair) :
    Except CompileError (Option Expr) :=
  match sourceShape.members[pair.source]?, targetShape.members[pair.destination]? with
  | some sourceMember, some targetMember => do
    let read := Expr.readMember (.readLocal sourceLocal) source pair.source
    let current := Expr.readMember (.readLocal targetLocal) target pair.destination
    let value ← memberValue pool mapping read sourceMember.shape targetMember.shape current
    return some (.writeMember targetLocal pair.destination value)
  | _, _ => return none

/-- The expressions that write the paired members, in the order of the pairs. -/
def memberWrites (pool : Pool) (mapping : Mapping) (source : ShapeId) (sourceShape : Descriptor)
    (target : ShapeId) (targetShape : Descriptor) (pairs : List MemberPair) :
    Except CompileError (List Expr) := do
  let writes ← pairs.mapM (memberWrite pool mapping source sourceShape target targetShape)
  return writes.flatMap Option.toList

/-- The program into a record. -/
def recordProgram (pool : Pool) (mapping : Mapping) (source : ShapeId) (sourceShape : Descriptor)
    (target : ShapeId) (targetShape : Descriptor) : Except CompileError Program := do
  let construction := Construction.ofDescriptor targetShape
  let writes ← memberWrites pool mapping source sourceShape target targetShape
    (mapping.rules.pairs sourceShape targetShape)
  let made := Expr.readLocal targetLocal
  let result := if targetShape.valueType then .box made else made
  return {
    locals := [source, target] ++ construction.locals target
    body := .ifNotNull (.argument .source) (.sequence [
      .declareLocal sourceLocal source,
      .writeLocal sourceLocal (.unbox (.argument .source)),
      .declareLocal targetLocal target,
      .writeLocal targetLocal
        (.unbox (.coalesce (.argument .destination) (construction.expr target ⟨2⟩))),
      .ifNotNull made (.sequence (writes ++ [.returns result])),
      .returns .null]) }

/-- The plan for two shapes that are not nullable and have no converter. -/
def generatedPlan (pool : Pool) (mapping : Mapping) (source target : ShapeId) :
    Except CompileError RoutinePlan := do
  let sourceShape ← Pool.orCompileError (pool.descriptor source)
  let targetShape ← Pool.orCompileError (pool.descriptor target)
  if targetShape.isCollection then
    match ← planCollection pool mapping source sourceShape target targetShape with
    | some plan => return .collection plan
    | none => return .unresolved
  else
    match sourceShape.kind, targetShape.kind with
    | _, .any => return .program (mapping.anyProgram source)
    | .any, _ =>
      return .program (.ofExpr
        (.invoke ShapeId.any target (.argument .source) (.argument .destination)))
    | .primitive a, .primitive b =>
      if a = b then return .program (.ofExpr (.argument .source))
      else if a.canConvert b then
        return .program (.ofExpr (.convert (.primitive a b) (.argument .source)))
      else throw (noConversion pool source target)
    | _, .primitive _ => throw (noConversion pool source target)
    | _, _ =>
      return .program (← recordProgram pool mapping source sourceShape target targetShape)

/-- How values of the shape `source` are converted into the shape `target`. -/
def plan (pool : Pool) (mapping : Mapping) (source target : ShapeId) :
    Except CompileError RoutinePlan := do
  match mapping.converterProgram source target with
  | some program => return .program program
  | none =>
    let source ← Pool.orCompileError (pool.stripNullable source)
    let target ← Pool.orCompileError (pool.stripNullable target)
    match mapping.converterProgram source target with
    | some program => return .program program
    | none => mapping.generatedPlan pool source target

end Mapping

end Reshape
