import Reshape.Mapping.Basic
import Reshape.Plan.Construction

/-!
# Plans for collections

A conversion into a collection is no program but a `CollectionPlan` : what kind of
collection is built, which way each element goes, whether elements are stored in place, and
how the collection is made if it is neither an array nor a list. The elements of a source
that is no collection are the source alone.

Elements are taken as they are (`verbatim`), go through the routine for two shapes that are
known beforehand (`static`), or through one that the shape of each element decides
(`dynamic`).
-/

namespace Reshape

/-- The kinds of collections that can be built. -/
inductive CollectionKind where
  | array
  | typedList
  | untypedList
  /-- a container that takes elements in order, and that may be supplied -/
  | genericInsertable
  deriving DecidableEq, Inhabited

namespace CollectionKind

def name : CollectionKind → String
  | array => "Array"
  | typedList => "TypedList"
  | untypedList => "UntypedList"
  | genericInsertable => "GenericInsertable"

/-- The kind of a family, if collections of it can be built. -/
def ofFamily? : Family → Option CollectionKind
  | .array => some array
  | .list => some typedList
  | .untypedList => some untypedList
  | .insertable => some genericInsertable
  | .opaqueFamily => none

/-- The kind of a destination, if it can be built. -/
def ofDescriptor? (d : Descriptor) : Option CollectionKind :=
  d.family?.bind ofFamily?

end CollectionKind

/-- Which way an element goes into a collection, before links are made. -/
inductive ElementRoute where
  | verbatim
  | static (source target : ShapeId)
  /-- Without a target, elements keep their shapes. -/
  | dynamic (target : Option ShapeId)
  deriving DecidableEq, Inhabited

/-- How a collection is built. -/
structure CollectionPlan where
  kind : CollectionKind
  target : ShapeId
  route : ElementRoute
  /-- Converted elements are stored in place, and not in boxes. -/
  inlineElements : Bool
  /-- How a container is made that is neither an array nor a list. -/
  construct : Option Program
  deriving Inhabited

/-- The shape of the elements of a source. -/
def sourceElement (source : ShapeId) (sourceShape : Descriptor) : ShapeId :=
  if sourceShape.isCollection then sourceShape.element?.getD ShapeId.any else source

/-- The way of elements of shape `source` into a collection of a kind, whose declared element
shape is `target`. -/
def elementRoute (kind : CollectionKind) (mode : CopyMode) (source : ShapeId)
    (target : Option ShapeId) : ElementRoute :=
  match kind, mode with
  | .untypedList, .shallow | .genericInsertable, .shallow => .verbatim
  | .untypedList, .deep => .dynamic none
  | .genericInsertable, .deep => .dynamic target
  | .array, _ | .typedList, _ =>
    let element := target.getD ShapeId.any
    if mode = .shallow ∧ (source = element ∨ element = ShapeId.any) then .verbatim
    else if source = ShapeId.any then
      .dynamic (if element = ShapeId.any then none else some element)
    else .static source element

/-- The elements of this shape are value types, and stored in place. -/
def storesInline (pool : Pool) : Option ShapeId → Except CompileError Bool
  | none => return false
  | some element => do
    let element ← Pool.orCompileError (pool.stripNullable element)
    let known ← Pool.orCompileError (pool.descriptor element)
    return known.valueType

/-- The program that makes a container of a kind, if containers of the kind need one. -/
def containerProgram (pool : Pool) (kind : CollectionKind) (target : ShapeId) :
    Except CompileError (Option Program) :=
  if kind = .genericInsertable then some <$> instanceProgram pool target else .ok none

/-- The plan for a source shape and a collection shape, given their descriptors. There is
none for a collection that cannot be built. -/
def planCollection (pool : Pool) (mapping : Mapping) (source : ShapeId)
    (sourceShape : Descriptor) (target : ShapeId) (targetShape : Descriptor) :
    Except CompileError (Option CollectionPlan) :=
  match CollectionKind.ofDescriptor? targetShape with
  | none => return none
  | some kind => do
    let route :=
      elementRoute kind mapping.copyMode (sourceElement source sourceShape) targetShape.element?
    let inlineElements ← storesInline pool targetShape.element?
    let construct ← containerProgram pool kind target
    return some ⟨kind, target, route, inlineElements, construct⟩

end Reshape
