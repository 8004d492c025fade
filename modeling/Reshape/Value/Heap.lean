import Reshape.Value.Basic

/-!
# Heaps

A `Heap` holds the instances that values refer to, each at its `Address`, and counts the
tokens it has handed out. An instance keeps its address, its kind and its shape ; the
fields of an object and the items of a sequence may change (`replace`, `push`), and a
stream replays the same items, or what a sequence holds at that time, whenever it is
enumerated.

Operations that make an instance take a heap and answer a value with the heap that holds
it.
-/

namespace Reshape

/-! ## Instances -/

/-- Where the items of a stream come from. -/
inductive StreamSource where
  | items (items : List Value)
  /-- what the sequence holds when the stream is enumerated -/
  | sequence (address : Address)
  deriving Inhabited

/-- What a reference leads to. -/
inductive Instance where
  | object (shape : ShapeId) (fields : Array Value)
  | seq (shape : ShapeId) (items : Array Value)
  | stream (shape : ShapeId) (source : StreamSource)
  deriving Inhabited

namespace Instance

/-- The shape an instance was made with. -/
def shape : Instance → ShapeId
  | object shape _ => shape
  | seq shape _ => shape
  | stream shape _ => shape

/-- The fields of an object or the items of a sequence. -/
def contents : Instance → Array Value
  | object _ fields => fields
  | seq _ items => items
  | stream _ _ => #[]

/-- The instance with its fields or items changed. A stream stays as it is. -/
def mapContents (f : Array Value → Array Value) : Instance → Instance
  | object shape fields => object shape (f fields)
  | seq shape items => seq shape (f items)
  | stream shape source => stream shape source

@[simp]
theorem shape_mapContents (f : Array Value → Array Value) (i : Instance) :
    (i.mapContents f).shape = i.shape := by
  cases i <;> rfl

end Instance

/-! ## Heaps -/

/-- The instances, each at its address, and the tokens that tell strings apart. -/
structure Heap where
  instances : Array Instance := #[]
  /-- The number of tokens handed out. -/
  tokens : Nat := 0
  deriving Inhabited

namespace Heap

def size (heap : Heap) : Nat := heap.instances.size

/-- The instance at an address. -/
def get? (heap : Heap) (a : Address) : Option Instance :=
  heap.instances[a.index]?

/-- Make an instance. -/
def alloc (new : Instance) (heap : Heap) : Value × Heap :=
  (.ref ⟨heap.size⟩, { heap with instances := heap.instances.push new })

/-- Make a string. -/
def newString (text : String) (heap : Heap) : Value × Heap :=
  (.str ⟨heap.tokens⟩ text, { heap with tokens := heap.tokens + 1 })

/-- Make a box around a value. -/
def newBox (content : Value) (heap : Heap) : Value × Heap :=
  (.boxed ⟨heap.tokens⟩ content, { heap with tokens := heap.tokens + 1 })

/-- Make a box around a value held in place. Null and references stay as they are. -/
def box (v : Value) (heap : Heap) : Value × Heap :=
  if v.isInline then heap.newBox v else (v, heap)

/-- Change the fields or items of an instance. -/
def modifyContents (a : Address) (f : Array Value → Array Value) (heap : Heap) : Heap :=
  { heap with instances := heap.instances.modify a.index (Instance.mapContents f) }

/-- Put a value in the place of a field or an item. Past the end nothing happens. -/
def replace (a : Address) (index : Nat) (v : Value) (heap : Heap) : Heap :=
  heap.modifyContents a fun contents => contents.setIfInBounds index v

/-- Append an item. -/
def push (a : Address) (v : Value) (heap : Heap) : Heap :=
  heap.modifyContents a fun contents => contents.push v

/-! ## What a value shows -/

/-- The instance that a reference leads to. -/
def instance? (heap : Heap) : Value → Option Instance
  | .ref a => heap.get? a
  | _ => none

/-- The shape of a value itself ; null has none. -/
def shape? (heap : Heap) : Value → Option ShapeId
  | .null => none
  | .bool _ => some ShapeId.bool
  | .int _ => some ShapeId.int
  | .float _ => some ShapeId.float
  | .char _ => some ShapeId.char
  | .str _ _ => some ShapeId.str
  | .struct shape _ => some shape
  | .boxed _ content => heap.shape? content
  | .ref a => (heap.get? a).map Instance.shape

/-- The fields of an object. -/
def object? (heap : Heap) (v : Value) : Option (ShapeId × Array Value) :=
  match heap.instance? v with
  | some (.object shape fields) => some (shape, fields)
  | _ => none

/-- The items of a sequence. -/
def seq? (heap : Heap) (v : Value) : Option (ShapeId × Array Value) :=
  match heap.instance? v with
  | some (.seq shape items) => some (shape, items)
  | _ => none

/-- The items that a stream gives when it is enumerated now. -/
def streamItems (heap : Heap) : StreamSource → List Value
  | .items items => items
  | .sequence a => ((heap.seq? (.ref a)).map fun s => s.2.toList).getD []

/-- The elements of a sequence or a stream. -/
def elements? (heap : Heap) (v : Value) : Option (List Value) :=
  match heap.instance? v with
  | some (.seq _ items) => some items.toList
  | some (.stream _ source) => some (heap.streamItems source)
  | _ => none

/-- The value can be enumerated. Strings are scalars. -/
def isEnumerable (heap : Heap) (v : Value) : Bool := (heap.elements? v).isSome

/-- The number of elements, where it is known without enumerating them. -/
def knownCount? (heap : Heap) (v : Value) : Option Nat :=
  (heap.seq? v).map fun s => s.2.size

/-- The member of a struct, boxed or not, or of an object. -/
def member? (heap : Heap) : Value → Nat → Option Value
  | .struct _ fields, index => fields[index]?
  | .boxed _ content, index => heap.member? content index
  | v, index => (heap.object? v).bind fun o => o.2[index]?

/-! ## Writing members -/

/-- The record with another value in a member. An object is changed where it is, a struct is
held in place and comes out changed, and a box is never changed : the record comes out in a
new one. A member that does not exist is not written, and what is no record stays as it is. -/
def writeMember (record : Value) (index : Nat) (v : Value) (heap : Heap) : Value × Heap :=
  match record with
  | .struct shape fields => (.struct shape (fields.set index v), heap)
  | .boxed _ content =>
    let (content, heap) := heap.writeMember content index v
    heap.newBox content
  | .ref a =>
    match heap.get? a with
    | some (.object _ _) => (.ref a, heap.replace a index v)
    | _ => (.ref a, heap)
  | record => (record, heap)

/-! ## Laws -/

@[simp]
theorem size_alloc (new : Instance) (heap : Heap) : (heap.alloc new).2.size = heap.size + 1 := by
  simp [alloc, size]

theorem get?_alloc (new : Instance) (heap : Heap) (a : Address) :
    (heap.alloc new).2.get? a = if a.index = heap.size then some new else heap.get? a := by
  rw [alloc, get?, get?, size, Array.getElem?_push]

@[simp]
theorem get?_newString (text : String) (heap : Heap) : (heap.newString text).2.get? = heap.get? :=
  rfl

@[simp]
theorem get?_box (v : Value) (heap : Heap) : (heap.box v).2.get? = heap.get? := by
  unfold box newBox
  split <;> rfl

theorem unboxed_box (v : Value) (heap : Heap) : (heap.box v).1.unboxed = v.unboxed := by
  unfold box
  split
  · rename_i h
    rw [Value.unboxed_of_isInline h]
    rfl
  · rfl

@[simp]
theorem size_modifyContents (a : Address) (f : Array Value → Array Value) (heap : Heap) :
    (heap.modifyContents a f).size = heap.size := by
  simp [modifyContents, size]

theorem get?_modifyContents (a : Address) (f : Array Value → Array Value) (heap : Heap)
    (b : Address) :
    (heap.modifyContents a f).get? b =
      if a = b then (heap.get? b).map (Instance.mapContents f) else heap.get? b := by
  simp only [modifyContents, get?, Array.getElem?_modify]
  by_cases h : a = b
  · simp [h]
  · rw [if_neg h, if_neg fun hi => h (by cases a; cases b; simp_all)]

end Heap

end Reshape
