import Reshape.Value.Heap

/-!
# Equality of values

`Heap.equal` compares two values by what they hold. Boxes make no difference ; floating
numbers are compared as numbers, strings by their text, structs by shape and fields.
Objects and sequences are equal if they are one instance, or if they have the same shape
and equal contents ; streams only if they are one instance.

Shapes and lengths are compared before contents, and contents in order up to the first
difference. So lists of different lengths are told apart without a look inside, where
instances may be shared many times over or lead back to themselves.

The comparison follows two graphs at once. Where it ends, it meets no pair of instances
inside itself, so the square of the number of instances bounds its depth.
-/

namespace Reshape

mutual

/-- Compares two values, where `ref` compares the instances they refer to. -/
def Value.equalWith (ref : Address → Address → Bool) : Value → Value → Bool
  | .null, w => w.bare.isNull
  | .bool a, w => match w.bare with
    | .bool b => a == b
    | _ => false
  | .int a, w => match w.bare with
    | .int b => a == b
    | _ => false
  | .float a, w => match w.bare with
    | .float b => a.agrees b
    | _ => false
  | .char a, w => match w.bare with
    | .char b => a == b
    | _ => false
  | .str _ a, w => match w.bare with
    | .str _ b => a == b
    | _ => false
  | .struct shape fields, w => match w.bare with
    | .struct shape' fields' =>
      shape == shape' && fields.length == fields'.length && Value.allEqualWith ref fields fields'
    | _ => false
  | .boxed _ content, w => content.equalWith ref w
  | .ref a, w => match w.bare with
    | .ref b => ref a b
    | _ => false

/-- Compares two lists of values, place by place. -/
def Value.allEqualWith (ref : Address → Address → Bool) : List Value → List Value → Bool
  | [], [] => true
  | v :: vs, w :: ws => v.equalWith ref w && Value.allEqualWith ref vs ws
  | _, _ => false

end

namespace Heap

/-- Compares two instances, through at most `depth` pairs of instances. -/
def equalInstances (heap : Heap) : Nat → Address → Address → Bool
  | 0, a, b => a == b
  | depth + 1, a, b =>
    a == b ||
      match heap.get? a, heap.get? b with
      | some (.object shape vs), some (.object shape' ws) =>
        shape == shape' && vs.size == ws.size &&
          Value.allEqualWith (heap.equalInstances depth) vs.toList ws.toList
      | some (.seq shape vs), some (.seq shape' ws) =>
        shape == shape' && vs.size == ws.size &&
          Value.allEqualWith (heap.equalInstances depth) vs.toList ws.toList
      | _, _ => false

/-- The values hold the same. -/
def equal (heap : Heap) (v w : Value) : Bool :=
  v.equalWith (heap.equalInstances (heap.size * heap.size + 1)) w

theorem equalInstances_self (heap : Heap) (depth : Nat) (a : Address) :
    heap.equalInstances depth a a = true := by
  cases depth <;> simp [equalInstances]

end Heap

end Reshape
