import Reshape.Shape.Pool
import Reshape.Value.Heap

/-!
# Default values

`Pool.zeroValue` is the value that a place of some shape holds before anything is written
to it : the zero of a primitive held in place, a struct of such values for a record that
is a value type, and null for all else. A value type that contains itself has no zero
value ; the descent that is deeper than the pool is large ends with `ShapeError.endless`.

A `Template` says how an instance of a shape is made from nothing. It is made once, from
the pool, and instantiated any number of times.
-/

namespace Reshape

namespace Pool

/-! ## Zero values -/

/-- The zero value of a shape, through at most `depth` records that contain each other. -/
def zeroValueWithin (pool : Pool) : Nat → ShapeId → Except ShapeError Value
  | 0, id => .error (.endless id)
  | depth + 1, id => do
    let known ← pool.descriptor id
    match known.kind with
    | .primitive .bool => return .bool false
    | .primitive .int => return .int 0
    | .primitive .float => return .float Binary64.zero
    | .primitive .char => return .char '\x00'
    | .record =>
      if known.valueType then
        return .struct id (← known.members.mapM fun m => pool.zeroValueWithin depth m.shape)
      else return .null
    | _ => return .null

/-- What a place of the shape holds before anything is written to it. -/
def zeroValue (pool : Pool) (id : ShapeId) : Except ShapeError Value :=
  pool.zeroValueWithin (pool.size + 1) id

end Pool

/-! ## Templates -/

/-- What an instance made from nothing starts as. -/
inductive InitialState where
  /-- a copy of the zero value of a value type -/
  | zero (value : Value)
  /-- a new object with these fields -/
  | object (fields : List Value)
  /-- a new empty collection -/
  | seq
  /-- null, for want of an instance -/
  | absent
  deriving Inhabited

/-- The recipe for instances of a shape. -/
structure Template where
  shape : ShapeId
  initial : InitialState
  deriving Inhabited

namespace Template

/-- The template of a shape. References that cannot be made from nothing come out null. -/
def ofShape (pool : Pool) (id : ShapeId) : Except ShapeError Template := do
  let known ← pool.descriptor id
  if known.valueType then
    return ⟨id, .zero (← pool.zeroValue id)⟩
  else if !known.defaultConstructor then
    return ⟨id, .absent⟩
  else
    match known.kind with
    | .record => return ⟨id, .object (← known.members.mapM fun m => pool.zeroValue m.shape)⟩
    | .collection _ _ => return ⟨id, .seq⟩
    | _ => return ⟨id, .absent⟩

/-- The instances are not null. -/
def isConstructible (t : Template) : Bool :=
  match t.initial with
  | .zero value => !value.isNull
  | .object _ | .seq => true
  | .absent => false

/-- A new instance, and the heap with it. -/
def instantiate (t : Template) (heap : Heap) : Value × Heap :=
  match t.initial with
  | .zero value => (value, heap)
  | .object fields => heap.alloc (.object t.shape fields.toArray)
  | .seq => heap.alloc (.seq t.shape #[])
  | .absent => (.null, heap)

theorem isConstructible_iff (t : Template) (heap : Heap) :
    t.isConstructible = true ↔ (t.instantiate heap).1 ≠ .null := by
  obtain ⟨shape, initial⟩ := t
  cases initial with
  | zero value => cases value <;> simp [isConstructible, instantiate, Value.isNull]
  | _ => simp [isConstructible, instantiate, Heap.alloc]

end Template

end Reshape
