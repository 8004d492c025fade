import Reshape.Proofs.Routine.Compiled
import Reshape.Proofs.Value.Tree

/-!
# Images

What a deep mapping without converters makes of a value where nothing is supplied for the result,
said without sessions, registries and code : the image of the value, a `Tree`, or the error that
stops the conversion (`Mapping.image`). The two shapes alone decide how a value is taken across
(`Mapping.across`) : primitives are converted, a place of the shape `any` keeps the shape of the
value, a source of the shape `any` is taken for what the value is, and everything else is left to
the routine for the two shapes. The image of a record consists of the images of its members, in the
order of the rules, over zero values ; that of a collection of the images of its elements.

`Mapping.image` counts routines within each other as runs do.
-/

namespace Reshape

/-! ## Zero values -/

/-- The tree of the zero value. -/
def Pool.zeroTree (pool : Pool) (id : ShapeId) : Tree :=
  match pool.zeroValue id with
  | .ok zero => zero.tree
  | .error _ => .null

/-- The tree of a new record. -/
def Pool.blank (pool : Pool) (shape : ShapeId) (known : Descriptor) : Tree :=
  .record known.valueType shape (known.members.map fun m => pool.zeroTree m.shape)

/-! ## Images -/

/-- What becomes of a value of one shape in another one. -/
abbrev Image := ShapeId → ShapeId → Value → Except Stop Tree

namespace Mapping

variable (mapping : Mapping) (pool : Pool) (heap : Heap) (inner : Image)

/-- There is a routine for the two shapes. -/
def offers (source target : ShapeId) : Except Stop Unit :=
  match mapping.body pool source target with
  | .ok _ => .ok ()
  | .error e => .error (.failed (.compile e))

/-- By the routine for the two shapes. -/
def throughLink (source target : ShapeId) (v : Value) : Except Stop Tree :=
  if v.isNull then .ok .null
  else do
    mapping.offers pool source target
    inner source target v

/-- By the routine that the shape of the value asks for. -/
def throughShape (target : Option ShapeId) (v : Value) : Except Stop Tree :=
  match heap.shape? v with
  | none => .ok .null
  | some shape => do
    mapping.offers pool shape (target.getD shape)
    inner shape (target.getD shape) v

/-- From a shape into another one, neither of them nullable. -/
def across (source : ShapeId) (sourceKind : Kind) (target : ShapeId) (targetKind : Kind)
    (v : Value) : Except Stop Tree :=
  match sourceKind, targetKind with
  | .primitive a, .primitive b =>
    if a = b then .ok v.tree
    else
      match (heap.convert v b).1 with
      | .ok w => .ok w.tree
      | .error e => .error (.failed (.primitive e))
  | .any, .any => mapping.throughShape pool heap inner none v
  | .any, _ => mapping.throughShape pool heap inner (some target) v
  | _, .any => mapping.throughLink pool inner source source v
  | _, _ => mapping.throughLink pool inner source target v

/-- From the place of a member into that of another one. -/
def memberImage (source target : ShapeId) (v : Value) : Except Stop Tree :=
  match pool.below? source, pool.below? target with
  | some (below, known), some (below', known') =>
    mapping.across pool heap inner below known.kind below' known'.kind v
  | _, _ => .ok .null

/-- A record with one more member filled. -/
def fillImage (source : ShapeId) (sourceShape targetShape : Descriptor) (v : Value) (record : Tree)
    (pair : MemberPair) : Except Stop Tree :=
  match sourceShape.members[pair.source]?, targetShape.members[pair.destination]? with
  | some m, some m' => do
    let u ← heap.memberAs v.unboxed source pair.source
    let t ← mapping.memberImage pool heap inner m.shape m'.shape u
    return record.set pair.destination t
  | _, _ => .ok record

/-- A new record, filled from the value in the order of the rules. -/
def recordImage (source : ShapeId) (sourceShape : Descriptor) (target : ShapeId)
    (targetShape : Descriptor) (v : Value) : Except Stop Tree :=
  if v.isNull then .ok .null
  else if targetShape.valueType = false ∧ targetShape.defaultConstructor = false then .ok .null
  else (mapping.rules.existing sourceShape targetShape).foldlM
    (mapping.fillImage pool heap inner source sourceShape targetShape v)
    (pool.blank target targetShape)

/-- What becomes of an element. -/
def elementImage (route : ElementRoute) (v : Value) : Except Stop Tree :=
  match route with
  | .verbatim => .ok v.tree
  | .static source target => mapping.throughLink pool inner source target v
  | .dynamic target => mapping.throughShape pool heap inner target v

/-- A new collection of what becomes of the elements. -/
def collectionImage (source : ShapeId) (sourceShape : Descriptor) (target : ShapeId)
    (targetShape : Descriptor) (v : Value) : Except Stop Tree :=
  match CollectionKind.ofDescriptor? targetShape with
  | none => .ok .null
  | some kind =>
    if v.isNull then .ok .null
    else if kind = .genericInsertable ∧
        ¬(targetShape.valueType = false ∧ targetShape.defaultConstructor = true) then .ok .null
    else
      let route := elementRoute kind .deep (sourceElement source sourceShape) targetShape.element?
      .seq target <$>
        ((heap.elements? v).getD [v]).mapM (mapping.elementImage pool heap inner route)

/-- What a routine between the two shapes makes of a value, neither of them nullable. -/
def formImage (source : ShapeId) (sourceShape : Descriptor) (target : ShapeId)
    (targetShape : Descriptor) (v : Value) : Except Stop Tree :=
  match targetShape.kind with
  | .collection _ _ =>
    mapping.collectionImage pool heap inner source sourceShape target targetShape v
  | .record =>
    if sourceShape.kind = .any then
      mapping.across pool heap inner source sourceShape.kind target targetShape.kind v
    else mapping.recordImage pool heap inner source sourceShape target targetShape v
  | _ => mapping.across pool heap inner source sourceShape.kind target targetShape.kind v

/-- What the routine for two shapes makes of a value, with at most `depth` routines within each
other. -/
def image : Nat → Image
  | 0, _, _, _ => .error .tooDeep
  | depth + 1, source, target, v =>
    match pool.below? source, pool.below? target with
    | some (below, known), some (below', known') =>
      mapping.formImage pool heap (image depth) below known below' known' v
    | _, _ => .ok .null

end Mapping

/-! ## Laws -/

section

variable {pool : Pool} {mapping : Mapping} {heap : Heap}

section

variable {inner : Image} {source target : ShapeId} {sourceKind targetKind : Kind} {v : Value}

/-- A value from a place of the shape `any` is taken for what it is. -/
theorem Mapping.across_of_any (htarget : targetKind ≠ .any) :
    mapping.across pool heap inner source .any target targetKind v =
      mapping.throughShape pool heap inner (some target) v := by
  cases targetKind <;> first | rfl | exact absurd rfl htarget

/-- A value in a place of the shape `any` keeps its shape. -/
theorem Mapping.across_into_any (hsource : sourceKind ≠ .any) :
    mapping.across pool heap inner source sourceKind target .any v =
      mapping.throughLink pool inner source source v := by
  cases sourceKind <;> first | rfl | exact absurd rfl hsource

theorem Mapping.across_linked (hsource : sourceKind ≠ .any) (htarget : targetKind ≠ .any)
    (hprimitive : ∀ p, targetKind ≠ .primitive p) :
    mapping.across pool heap inner source sourceKind target targetKind v =
      mapping.throughLink pool inner source target v := by
  cases sourceKind <;> cases targetKind <;>
    first
    | rfl
    | exact absurd rfl hsource
    | exact absurd rfl htarget
    | exact absurd rfl (hprimitive _)

end

theorem Mapping.image_succ {source target below below' : ShapeId} {known known' : Descriptor}
    (hb : pool.Below source below known) (hb' : pool.Below target below' known') (depth : Nat)
    (v : Value) : mapping.image pool heap (depth + 1) source target v =
      mapping.formImage pool heap (mapping.image pool heap depth) below known below' known' v := by
  rw [image, Pool.below?_eq_some_iff.mpr hb, Pool.below?_eq_some_iff.mpr hb']

end

end Reshape
