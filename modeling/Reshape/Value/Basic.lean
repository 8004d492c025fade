import Reshape.Shape.Basic

/-!
# Values

A `Value` is null, a primitive, a struct held in place, a boxed value, or a reference to
an instance in a heap. Strings and boxes are references too : they never change, so their
content stands in the value, next to the `Token` that tells one instance from another.

`sameInstance` compares identities : null with null, and two references to one instance.
Values held in place have no identity.
-/

namespace Reshape

/-- The place of an instance in a heap. -/
structure Address where
  index : Nat
  deriving DecidableEq, Inhabited

/-- The identity of a string or a box. -/
structure Token where
  index : Nat
  deriving DecidableEq, Inhabited

/-- What members, elements and locals hold. Instances lie in a heap and are referred to. -/
inductive Value where
  | null
  | bool (b : Bool)
  | int (n : Int64)
  | float (x : Binary64)
  | char (c : Char)
  | str (token : Token) (text : String)
  /-- a record held in place -/
  | struct (shape : ShapeId) (fields : List Value)
  /-- the reference form of a value held in place -/
  | boxed (token : Token) (content : Value)
  /-- an object, a sequence or a stream -/
  | ref (address : Address)
  deriving Inhabited

namespace Value

def isNull : Value → Bool
  | null => true
  | _ => false

/-- The value is of a primitive other than a string, or a struct. -/
def isInline : Value → Bool
  | bool _ | int _ | float _ | char _ | struct _ _ => true
  | _ => false

/-- The content of a box ; any other value as it is. -/
def unboxed : Value → Value
  | boxed _ content => content
  | v => v

/-- The value without any box around it. -/
def bare : Value → Value
  | boxed _ content => content.bare
  | v => v

/-- The integer that a value is, in a box or not. -/
def int? (v : Value) : Option Int64 :=
  match v.unboxed with
  | int n => some n
  | _ => none

/-- The text of a string. -/
def text? : Value → Option String
  | str _ text => some text
  | _ => none

/-- The values are one instance, or both are null. -/
def sameInstance : Value → Value → Bool
  | null, null => true
  | str a _, str b _ => a == b
  | boxed a _, boxed b _ => a == b
  | ref a, ref b => a == b
  | _, _ => false

@[simp]
theorem isNull_iff {v : Value} : v.isNull = true ↔ v = null := by
  cases v <;> simp [isNull]

theorem unboxed_of_isInline {v : Value} (h : v.isInline = true) : v.unboxed = v := by
  cases v <;> first | rfl | simp [isInline] at h

theorem bare_unboxed (v : Value) : v.unboxed.bare = v.bare := by
  cases v <;> rfl

theorem sameInstance_comm (a b : Value) : a.sameInstance b = b.sameInstance a := by
  cases a <;> cases b <;> first | rfl | exact BEq.comm

end Value

end Reshape
