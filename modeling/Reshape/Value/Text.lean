import Reshape.Number.Shortest
import Reshape.Text.Quoted
import Reshape.Value.Heap

/-!
# Texts of values

`Heap.text` writes a value on one line : primitives as literals, boxes, structs, objects
and sequences with everything inside them, and a stream by its shape alone. An instance
inside itself has no finite text ; a path through more instances than the heap holds ends
in `..`.

The text is written from left to right after what stands there already, so the time it takes
is in proportion to its length, however deep values lie inside each other. What stands before
makes no difference (`Value.write_append`).
-/

namespace Reshape

mutual

/-- Writes a value after `out`, where `ref` writes the instances it refers to. -/
def Value.write (ref : Address → String → String) : Value → String → String
  | .null, out => out ++ "null"
  | .bool b, out => out ++ (if b then "true" else "false")
  | .int n, out => out ++ String.ofList (intText n.toInt)
  | .float x, out => out ++ x.text Binary64.markedLayout
  | .char c, out => out ++ Text.quotedChar c
  | .str _ text, out => out ++ Text.quoted text
  | .struct shape fields, out =>
    Value.writeAll ref "" fields (out ++ "struct" ++ shape.text ++ " [") ++ "]"
  | .boxed _ content, out => content.write ref (out ++ "box(") ++ ")"
  | .ref a, out => ref a out

/-- Writes values with commas between them, and `mark` before the first. -/
def Value.writeAll (ref : Address → String → String) (mark : String) :
    List Value → String → String
  | [], out => out
  | v :: vs, out => Value.writeAll ref ", " vs (v.write ref (out ++ mark))

end

namespace Heap

/-- Writes an instance after `out`, through at most `depth` instances. -/
def writeInstance (heap : Heap) : Nat → Address → String → String
  | 0, _, out => out ++ ".."
  | depth + 1, a, out =>
    match heap.get? a with
    | some (.object shape fields) =>
      Value.writeAll (heap.writeInstance depth) "" fields.toList
        (out ++ "object" ++ shape.text ++ " [") ++ "]"
    | some (.seq shape items) =>
      Value.writeAll (heap.writeInstance depth) "" items.toList
        (out ++ "seq" ++ shape.text ++ " [") ++ "]"
    | some (.stream shape _) => out ++ "stream" ++ shape.text
    | none => out ++ ".."

/-- The text of a value. A path without repetition is no longer than the heap is large. -/
def text (heap : Heap) (v : Value) : String :=
  v.write (heap.writeInstance (heap.size + 1)) ""

end Heap

/-! ## Laws -/

mutual

/-- What stands before a value makes no difference to its text. -/
theorem Value.write_append {ref : Address → String → String}
    (href : ∀ a before out, ref a (before ++ out) = before ++ ref a out) (before : String) :
    ∀ (v : Value) (out : String), v.write ref (before ++ out) = before ++ v.write ref out
  | .null, _ | .bool _, _ | .int _, _ | .float _, _ | .char _, _ | .str _ _, _ => by
    simp only [Value.write, String.append_assoc]
  | .struct _ fields, _ => by
    simp only [Value.write, String.append_assoc, Value.writeAll_append href before fields]
  | .boxed _ content, _ => by
    simp only [Value.write, String.append_assoc, Value.write_append href before content]
  | .ref a, _ => href a before _

theorem Value.writeAll_append {ref : Address → String → String}
    (href : ∀ a before out, ref a (before ++ out) = before ++ ref a out) (before : String) :
    ∀ (vs : List Value) (mark out : String),
      Value.writeAll ref mark vs (before ++ out) = before ++ Value.writeAll ref mark vs out
  | [], _, _ => rfl
  | v :: vs, _, _ => by
    simp only [Value.writeAll, String.append_assoc, Value.write_append href before v,
      Value.writeAll_append href before vs]

end

theorem Heap.writeInstance_append (heap : Heap) (depth : Nat) (a : Address) (before out : String) :
    heap.writeInstance depth a (before ++ out) = before ++ heap.writeInstance depth a out := by
  induction depth generalizing a before out with
  | zero => simp only [writeInstance, String.append_assoc]
  | succ depth ih =>
    unfold writeInstance
    split <;> simp only [String.append_assoc, Value.writeAll_append ih before]

end Reshape
