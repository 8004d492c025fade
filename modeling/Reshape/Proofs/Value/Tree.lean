import Reshape.Proofs.Value.Typing

/-!
# Trees

A `Tree` is all that can be seen of a value from outside : primitives, and records and collections
with everything inside them. Boxes, tokens and addresses cannot be seen. `Heap.Shows` says what a
value shows in a heap, made of instances from some number on ; it shows one tree at most
(`Heap.Shows.unique`), and shows it as long as these instances stay as they are
(`Heap.Shows.mono`). A value that refers to nothing shows the same tree everywhere (`Value.tree`).
-/

namespace Reshape

/-! ## Trees -/

/-- A value with everything that it reaches, and no addresses. -/
inductive Tree where
  | null
  | bool (b : Bool)
  | int (n : Int64)
  | float (x : Binary64)
  | char (c : Char)
  | str (text : String)
  | struct (shape : ShapeId) (fields : List Tree)
  | object (shape : ShapeId) (fields : List Tree)
  | seq (shape : ShapeId) (items : List Tree)
  deriving Inhabited

/-- A record with these fields, held in place or not. -/
def Tree.record (inPlace : Bool) (shape : ShapeId) (fields : List Tree) : Tree :=
  if inPlace then struct shape fields else object shape fields

/-- The record with another tree in a member. What is no record stays as it is. -/
def Tree.set (record : Tree) (i : Nat) (t : Tree) : Tree :=
  match record with
  | struct shape fields => struct shape (fields.set i t)
  | object shape fields => object shape (fields.set i t)
  | other => other

theorem Tree.set_record (i : Nat) (t : Tree) (inPlace : Bool) (shape : ShapeId)
    (fields : List Tree) :
    (record inPlace shape fields).set i t = record inPlace shape (fields.set i t) := by
  cases inPlace <;> rfl

theorem Tree.record_inj {inPlace : Bool} {shape : ShapeId} {fields fields' : List Tree}
    (h : record inPlace shape fields = record inPlace shape fields') : fields = fields' := by
  cases inPlace <;> cases h <;> rfl

mutual

/-- What a value shows that refers to nothing. -/
def Value.tree : Value → Tree
  | .null | .ref _ => .null
  | .bool b => .bool b
  | .int n => .int n
  | .float x => .float x
  | .char c => .char c
  | .str _ text => .str text
  | .struct shape fields => .struct shape (Value.trees fields)
  | .boxed _ content => content.tree

/-- The trees of values in a list. -/
def Value.trees : List Value → List Tree
  | [] => []
  | v :: vs => v.tree :: Value.trees vs

end

theorem Value.trees_eq_map (vs : List Value) : Value.trees vs = vs.map Value.tree := by
  induction vs with
  | nil => rfl
  | cons v vs ih => rw [Value.trees, ih, List.map_cons]

/-! ## What values show -/

/-- The value shows the tree, made of instances from the number on. -/
inductive Heap.Shows (heap : Heap) (bound : Nat) : Value → Tree → Prop
  | null : Shows heap bound .null .null
  | bool {b : Bool} : Shows heap bound (.bool b) (.bool b)
  | int {n : Int64} : Shows heap bound (.int n) (.int n)
  | float {x : Binary64} : Shows heap bound (.float x) (.float x)
  | char {c : Char} : Shows heap bound (.char c) (.char c)
  | str {token : Token} {text : String} : Shows heap bound (.str token text) (.str text)
  | boxed {token : Token} {content : Value} {t : Tree} (h : Shows heap bound content t) :
    Shows heap bound (.boxed token content) t
  | struct {shape : ShapeId} {fields : List Value} {ts : List Tree}
    (hlength : fields.length = ts.length)
    (h : ∀ (i : Nat) (w : Value) (t : Tree), fields[i]? = some w → ts[i]? = some t →
      Shows heap bound w t) : Shows heap bound (.struct shape fields) (.struct shape ts)
  | object {a : Address} {shape : ShapeId} {fields : List Value} {ts : List Tree}
    (hbound : bound ≤ a.index) (ha : heap.get? a = some (.object shape fields.toArray))
    (hlength : fields.length = ts.length)
    (h : ∀ (i : Nat) (w : Value) (t : Tree), fields[i]? = some w → ts[i]? = some t →
      Shows heap bound w t) : Shows heap bound (.ref a) (.object shape ts)
  | seq {a : Address} {shape : ShapeId} {items : List Value} {ts : List Tree}
    (hbound : bound ≤ a.index) (ha : heap.get? a = some (.seq shape items.toArray))
    (hlength : items.length = ts.length)
    (h : ∀ (i : Nat) (w : Value) (t : Tree), items[i]? = some w → ts[i]? = some t →
      Shows heap bound w t) : Shows heap bound (.ref a) (.seq shape ts)

/-- The values show the trees, one by one. -/
structure Heap.ShowsAll (heap : Heap) (bound : Nat) (ws : List Value) (ts : List Tree) : Prop where
  length : ws.length = ts.length
  each : ∀ (i : Nat) (w : Value) (t : Tree), ws[i]? = some w → ts[i]? = some t →
    heap.Shows bound w t

section

variable {heap heap' : Heap} {bound bound' : Nat} {w : Value} {t t' : Tree} {ws : List Value}
  {ts ts' : List Tree}

/-- What a value shows it shows while its instances stay as they are. -/
theorem Heap.Shows.mono (hle : bound' ≤ bound)
    (hkept : ∀ a i, bound ≤ a.index → heap.get? a = some i → heap'.get? a = some i)
    (h : heap.Shows bound w t) : heap'.Shows bound' w t := by
  induction h with
  | null => exact .null
  | bool => exact .bool
  | int => exact .int
  | float => exact .float
  | char => exact .char
  | str => exact .str
  | boxed _ ih => exact .boxed ih
  | struct hlength _ ih => exact .struct hlength ih
  | object hbound ha hlength _ ih =>
    exact .object (Nat.le_trans hle hbound) (hkept _ _ hbound ha) hlength ih
  | seq hbound ha hlength _ ih =>
    exact .seq (Nat.le_trans hle hbound) (hkept _ _ hbound ha) hlength ih

theorem Heap.Shows.unboxed (h : heap.Shows bound w t) : heap.Shows bound w.unboxed t := by
  cases h with
  | boxed h => exact h
  | null => exact .null
  | bool => exact .bool
  | int => exact .int
  | float => exact .float
  | char => exact .char
  | str => exact .str
  | struct hlength h => exact .struct hlength h
  | object hbound ha hlength h => exact .object hbound ha hlength h
  | seq hbound ha hlength h => exact .seq hbound ha hlength h

/-- A value shows one tree at most. -/
theorem Heap.Shows.unique (h : heap.Shows bound w t) (h' : heap.Shows bound' w t') : t = t' := by
  have hall {ws : List Value} {ts ts' : List Tree} (hlength : ws.length = ts.length)
      (hlength' : ws.length = ts'.length)
      (ih : ∀ (i : Nat) (w : Value) (t : Tree), ws[i]? = some w → ts[i]? = some t →
        ∀ {t'}, heap.Shows bound' w t' → t = t')
      (h' : ∀ (i : Nat) (w : Value) (t : Tree), ws[i]? = some w → ts'[i]? = some t →
        heap.Shows bound' w t) : ts = ts' := by
    refine List.ext_getElem (hlength.symm.trans hlength') fun i hi hi' => ?_
    have hw := List.getElem?_eq_getElem (hlength ▸ hi : i < ws.length)
    exact ih i _ _ hw (List.getElem?_eq_getElem hi) (h' i _ _ hw (List.getElem?_eq_getElem hi'))
  induction h generalizing t' with
  | boxed _ ih =>
    cases h' with
    | boxed h' => exact ih h'
  | struct hlength _ ih =>
    cases h' with
    | struct hlength' h' => rw [hall hlength hlength' (fun i w t hw ht => ih i w t hw ht) h']
  | object _ ha hlength _ ih =>
    cases h' with
    | object _ ha' hlength' h' =>
      obtain ⟨rfl, heq⟩ := Instance.object.inj (Option.some.inj (ha.symm.trans ha'))
      obtain rfl := Array.mk.inj heq
      rw [hall hlength hlength' (fun i w t hw ht => ih i w t hw ht) h']
    | seq _ ha' _ _ => cases ha.symm.trans ha'
  | seq _ ha hlength _ ih =>
    cases h' with
    | seq _ ha' hlength' h' =>
      obtain ⟨rfl, heq⟩ := Instance.seq.inj (Option.some.inj (ha.symm.trans ha'))
      obtain rfl := Array.mk.inj heq
      rw [hall hlength hlength' (fun i w t hw ht => ih i w t hw ht) h']
    | object _ ha' _ _ => cases ha.symm.trans ha'
  | _ =>
    cases h'
    rfl

mutual

/-- What refers to nothing shows its own tree. -/
theorem Heap.Shows.tree (heap : Heap) (bound : Nat) :
    ∀ w : Value, w.Within (fun _ => False) → heap.Shows bound w w.tree
  | .null, _ => .null
  | .bool _, _ => .bool
  | .int _, _ => .int
  | .float _, _ => .float
  | .char _, _ => .char
  | .str _ _, _ => .str
  | .struct _ fields, h => by
    have hall := Heap.ShowsAll.trees heap bound fields (Value.Within.struct.mp h)
    exact .struct hall.length hall.each
  | .boxed _ content, h => .boxed (Heap.Shows.tree heap bound content (Value.Within.boxed.mp h))
  | .ref _, h => (Value.Within.ref.mp h).elim

theorem Heap.ShowsAll.trees (heap : Heap) (bound : Nat) :
    ∀ ws : List Value, (∀ w ∈ ws, w.Within fun _ => False) →
      heap.ShowsAll bound ws (Value.trees ws)
  | [], _ => ⟨rfl, nofun⟩
  | w :: ws, h => by
    have hone := Heap.Shows.tree heap bound w (h w List.mem_cons_self)
    have hrest := Heap.ShowsAll.trees heap bound ws fun w hw => h w (List.mem_cons_of_mem _ hw)
    refine ⟨congrArg Nat.succ hrest.length, fun i w' t' hw ht => ?_⟩
    cases i with
    | zero =>
      cases hw
      cases ht
      exact hone
    | succ i => exact hrest.each i w' t' hw ht

end

namespace Heap.ShowsAll

theorem nil : heap.ShowsAll bound [] [] :=
  ⟨rfl, nofun⟩

theorem mono (hle : bound' ≤ bound)
    (hkept : ∀ a i, bound ≤ a.index → heap.get? a = some i → heap'.get? a = some i)
    (h : heap.ShowsAll bound ws ts) : heap'.ShowsAll bound' ws ts :=
  ⟨h.length, fun i w t hw ht => (h.each i w t hw ht).mono hle hkept⟩

theorem cons (h : heap.Shows bound w t) (hs : heap.ShowsAll bound ws ts) :
    heap.ShowsAll bound (w :: ws) (t :: ts) := by
  refine ⟨congrArg Nat.succ hs.length, fun i w' t' hw ht => ?_⟩
  cases i with
  | zero =>
    cases hw
    cases ht
    exact h
  | succ i => exact hs.each i w' t' hw ht

theorem append {ws' : List Value} (h : heap.ShowsAll bound ws ts)
    (h' : heap.ShowsAll bound ws' ts') : heap.ShowsAll bound (ws ++ ws') (ts ++ ts') := by
  induction ws generalizing ts with
  | nil =>
    obtain rfl := List.length_eq_zero_iff.mp h.length.symm
    exact h'
  | cons w ws ih =>
    cases ts with
    | nil => cases h.length
    | cons t ts =>
      refine cons (h.each 0 w t rfl rfl) (ih ⟨Nat.succ.inj h.length, fun i w t hw ht => ?_⟩)
      exact h.each (i + 1) w t hw ht

theorem set (h : heap.ShowsAll bound ws ts) (hw : heap.Shows bound w t) (i : Nat) :
    heap.ShowsAll bound (ws.set i w) (ts.set i t) := by
  refine ⟨by rw [List.length_set, List.length_set, h.length], fun j w' t' hw' ht' => ?_⟩
  rw [List.getElem?_set] at hw' ht'
  split at hw'
  · rename_i heq
    rw [if_pos heq] at ht'
    split at hw'
    · split at ht'
      · cases hw'
        cases ht'
        exact hw
      · cases ht'
    · cases hw'
  · rename_i hne
    rw [if_neg hne] at ht'
    exact h.each j w' t' hw' ht'

end Heap.ShowsAll

end

end Reshape
