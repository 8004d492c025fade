import Reshape.Mapping.Basic

/-!
# Simple converters

`SimpleConverter` lists converters that need no program of their own : they hand on one of
their arguments, make a value of it, or fail. None of them changes an instance that is
already there.
-/

namespace Reshape

/-- The converters, by what they do. -/
inductive SimpleConverter where
  /-- the value itself -/
  | identity
  /-- always the same value -/
  | const (value : Value)
  /-- the caller's own value -/
  | state
  | null
  /-- the sum of the value and the caller's own value, both taken for 0 if they are no
  integers -/
  | add
  /-- the text of the value between angle brackets -/
  | text
  /-- a member of the value, or null -/
  | member (index : Nat)
  /-- a new sequence that holds the value -/
  | wrap (shape : ShapeId)
  | boxed
  | fail (text : String)
  | mismatch (expected found : ShapeId)
  deriving Inhabited

namespace SimpleConverter

def name : SimpleConverter → String
  | identity => "identity"
  | const _ => "const"
  | state => "state"
  | null => "null"
  | add => "add"
  | text => "text"
  | member _ => "member"
  | wrap _ => "wrap"
  | boxed => "boxed"
  | fail _ => "fail"
  | mismatch _ _ => "mismatch"

/-- What the converter makes of a value and the caller's own value. -/
def apply (c : SimpleConverter) (v callerState : Value) (heap : Heap) :
    Except ConversionError Value × Heap :=
  match c with
  | identity => (.ok v, heap)
  | const value => (.ok value, heap)
  | state => (.ok callerState, heap)
  | null => (.ok .null, heap)
  | add => (.ok (.int (v.int?.getD 0 + callerState.int?.getD 0)), heap)
  | text =>
    let (made, heap') := heap.newString ("<" ++ heap.text v ++ ">")
    (.ok made, heap')
  | member index => (.ok ((heap.member? v index).getD .null), heap)
  | wrap shape =>
    let (made, heap') := heap.alloc (.seq shape #[v])
    (.ok made, heap')
  | boxed =>
    let (made, heap') := heap.box v
    (.ok made, heap')
  | fail reason => (.error (.custom reason), heap)
  | mismatch expected found => (.error (.shapeMismatch expected found), heap)

def toConverter (c : SimpleConverter) : Converter where
  name := c.name
  apply := c.apply

end SimpleConverter

end Reshape
