import Reshape.Number.Decimal

/-!
# Shapes

A shape describes the values of one kind of data, and other shapes refer to it by its
`ShapeId`. What it describes is a `Descriptor` : a name, a `Kind`, the members of a
record, whether its values are value types, held in place, or references, and whether
an instance can be made from nothing.

The ids 0 to 6 are the five primitives, the shape `any` that every value conforms to,
and the list whose elements are `any`.
-/

namespace Reshape

/-! ## Identifiers -/

/-- The identifier of a shape : its place in the pool that declares it. -/
structure ShapeId where
  index : Nat
  deriving DecidableEq, Inhabited

namespace ShapeId

def bool : ShapeId := ⟨0⟩

def int : ShapeId := ⟨1⟩

def float : ShapeId := ⟨2⟩

def char : ShapeId := ⟨3⟩

def str : ShapeId := ⟨4⟩

/-- The shape that every value conforms to. -/
def any : ShapeId := ⟨5⟩

/-- The list whose elements are `any`. -/
def untypedList : ShapeId := ⟨6⟩

def text (id : ShapeId) : String :=
  String.ofList ('#' :: natText id.index)

/-- The text with the name of a shape that every pool holds. -/
def detail (id : ShapeId) : String :=
  match id.index with
  | 0 => "ShapeId::BOOL"
  | 1 => "ShapeId::INT"
  | 2 => "ShapeId::FLOAT"
  | 3 => "ShapeId::CHAR"
  | 4 => "ShapeId::STR"
  | 5 => "ShapeId::ANY"
  | 6 => "ShapeId::UNTYPED_LIST"
  | n => "ShapeId(" ++ String.ofList (natText n) ++ ")"

end ShapeId

/-! ## Kinds -/

/-- The primitive types. -/
inductive Primitive where
  | bool
  | int
  | float
  | char
  | str
  deriving DecidableEq, Inhabited

namespace Primitive

/-- The primitives in the order of their ids. -/
def all : List Primitive := [bool, int, float, char, str]

def name : Primitive → String
  | bool => "bool"
  | int => "int"
  | float => "float"
  | char => "char"
  | str => "str"

/-- The id of the primitive's own shape. -/
def shape : Primitive → ShapeId
  | bool => ShapeId.bool
  | int => ShapeId.int
  | float => ShapeId.float
  | char => ShapeId.char
  | str => ShapeId.str

/-- Strings are immutable references, the other primitives are held in place. -/
def isValueType : Primitive → Bool
  | str => false
  | _ => true

theorem shape_injective {a b : Primitive} (h : a.shape = b.shape) : a = b := by
  cases a <;> cases b <;> first | rfl | exact absurd h (by decide)

end Primitive

/-- What holds the elements of a collection. -/
inductive Family where
  /-- of a fixed length, with a declared element shape -/
  | array
  /-- growing, with a declared element shape -/
  | list
  /-- growing, of elements of any shape -/
  | untypedList
  /-- any other container that takes elements in order -/
  | insertable
  /-- can be enumerated and never be built -/
  | opaqueFamily
  deriving DecidableEq, Inhabited

/-- What a shape is. -/
inductive Kind where
  | primitive (kind : Primitive)
  | any
  | record
  /-- null, or a value of the inner shape -/
  | nullable (inner : ShapeId)
  /-- The element shape is absent where elements of all shapes are taken. -/
  | collection (family : Family) (element : Option ShapeId)
  deriving DecidableEq, Inhabited

/-! ## Descriptors -/

/-- How a member may be accessed. -/
structure Access where
  readable : Bool := true
  writable : Bool := true
  deriving DecidableEq, Inhabited

/-- A member of a record : its name, its shape and what may be done with it. -/
structure Member where
  name : String
  shape : ShapeId
  access : Access := {}
  deriving DecidableEq, Inhabited

/-- What is known about a shape. -/
structure Descriptor where
  name : String
  kind : Kind
  /-- The members of a record in the order in which its instances hold their values. -/
  members : List Member := []
  /-- The values are held in place, and not by reference. -/
  valueType : Bool
  /-- An instance can be made from nothing. -/
  defaultConstructor : Bool
  deriving DecidableEq, Inhabited

namespace Descriptor

/-- The descriptor of a primitive. -/
def ofPrimitive (kind : Primitive) : Descriptor where
  name := kind.name
  kind := .primitive kind
  valueType := kind.isValueType
  defaultConstructor := false

/-- Collections are references, and all but the opaque ones can be made from nothing. -/
def ofCollection (name : String) (family : Family) (element : Option ShapeId) : Descriptor where
  name := name
  kind := .collection family element
  valueType := false
  defaultConstructor := family != .opaqueFamily

/-- The shape of null and the values of another shape. -/
def ofNullable (name : String) (inner : ShapeId) : Descriptor where
  name := name
  kind := .nullable inner
  valueType := false
  defaultConstructor := false

/-- The shape of all values. -/
def ofAny (name : String) : Descriptor where
  name := name
  kind := .any
  valueType := false
  defaultConstructor := false

/-- A record is a reference that can be made from nothing, unless said otherwise. -/
def ofRecord (name : String) (members : List Member) (valueType : Bool := false)
    (defaultConstructor : Bool := true) : Descriptor where
  name := name
  kind := .record
  members := members
  valueType := valueType
  defaultConstructor := defaultConstructor

/-- The shape is one of collections, whatever their family. -/
def isCollection (d : Descriptor) : Bool :=
  match d.kind with
  | .collection _ _ => true
  | _ => false

def isRecord (d : Descriptor) : Bool :=
  match d.kind with
  | .record => true
  | _ => false

/-- The primitive that the shape stands for. -/
def primitive? (d : Descriptor) : Option Primitive :=
  match d.kind with
  | .primitive kind => some kind
  | _ => none

/-- The family of a collection shape. -/
def family? (d : Descriptor) : Option Family :=
  match d.kind with
  | .collection family _ => some family
  | _ => none

/-- The declared element shape of a collection. -/
def element? (d : Descriptor) : Option ShapeId :=
  match d.kind with
  | .collection _ element => element
  | _ => none

/-- The first member of that name, with its place. -/
def member? (d : Descriptor) (name : String) : Option (Member × Nat) :=
  d.members.zipIdx.find? fun m => m.1.name == name

end Descriptor

end Reshape
