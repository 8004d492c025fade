import Reshape.Shape.Basic

/-!
# Pools of shapes

A `Pool` hands out shape ids and keeps what they stand for, with an index of the names
beside it. A name is declared first and described later, so shapes can refer to themselves
and to each other. A described shape never changes, and no name is ever declared twice :
`declare` answers the id that a name has.

Operations that may change the pool are in `PoolM`, whose failures leave a pool behind as
well as an error. The shapes built from others (`arrayOf`, `listOf`, `nullable`) are
registered under a name made from the name of the other, so building one twice answers the
same id.

`stripNullable` follows nullable shapes to the shape below, which is described and not
nullable (`exists_descriptor_of_stripNullableWithin`). Descriptors may lead around in a
circle, and the walk that has taken more steps than the pool has shapes ends with
`ShapeError.endless`.
-/

namespace Reshape

/-! ## Errors -/

/-- What a pool refuses. -/
inductive ShapeError where
  /-- The pool never handed out the id. -/
  | unknown (id : ShapeId)
  /-- The id was declared, and nothing says what it stands for. -/
  | undefinedShape (id : ShapeId) (name : String)
  /-- The id already stands for something else. -/
  | alreadyDefined (id : ShapeId) (name : String)
  /-- The descriptor has another name than the one declared. -/
  | nameMismatch (id : ShapeId) (declared defined : String)
  /-- Following the shape leads back to it again and again. -/
  | endless (id : ShapeId)
  deriving DecidableEq

namespace ShapeError

/-- The text of the refusal. -/
def message : ShapeError → String
  | unknown id => "unknown shape " ++ id.text
  | undefinedShape id name =>
    "shape `" ++ name ++ "` (" ++ id.text ++ ") was declared but never defined"
  | alreadyDefined id name => "shape `" ++ name ++ "` (" ++ id.text ++ ") is already defined"
  | nameMismatch id declared defined =>
    "shape " ++ id.text ++ " was declared as `" ++ declared ++ "` but defined as `" ++ defined ++
      "`"
  | endless id => "shape " ++ id.text ++ " contains itself without end"

end ShapeError

/-! ## Pools -/

/-- A declared name, and what it stands for once that is defined. -/
structure Slot where
  name : String
  descriptor? : Option Descriptor := none
  deriving DecidableEq

/-- Shapes in the order of their ids, and the id of every declared name. -/
structure Pool where
  slots : List Slot
  byName : List (String × ShapeId)
  deriving DecidableEq

/-- A computation that may add shapes to a pool, or fail. -/
abbrev PoolM := EStateM ShapeError Pool

theorem get_bind {ε σ α : Type} (f : σ → EStateM ε σ α) (s : σ) : (get >>= f) s = f s s :=
  rfl

theorem bind_of_eq_ok {ε σ α β : Type} {x : EStateM ε σ α} {f : α → EStateM ε σ β} {a : α}
    {s s' : σ} (h : x s = .ok a s') : (x >>= f) s = f a s' := by
  change EStateM.bind x f s = _
  rw [EStateM.bind, h]

theorem bind_of_eq_error {ε σ α β : Type} {x : EStateM ε σ α} {f : α → EStateM ε σ β} {e : ε}
    {s s' : σ} (h : x s = .error e s') : (x >>= f) s = .error e s' := by
  change EStateM.bind x f s = _
  rw [EStateM.bind, h]

theorem bind_of_eq {ε σ α β : Type} {x y : EStateM ε σ α} {s s' : σ} (h : x s = y s')
    (f : α → EStateM ε σ β) : (x >>= f) s = (y >>= f) s' := by
  change EStateM.bind x f s = EStateM.bind y f s'
  rw [EStateM.bind, EStateM.bind, h]

theorem modify_bind {ε σ α : Type} (f : σ → σ) (g : PUnit → EStateM ε σ α) (s : σ) :
    (modify f >>= g) s = g ⟨⟩ (f s) :=
  rfl

namespace Pool

/-- The descriptors that every pool starts with, in the order of their ids. -/
def initialDescriptors : List Descriptor :=
  Primitive.all.map Descriptor.ofPrimitive ++
    [Descriptor.ofAny "any", Descriptor.ofCollection "list" .untypedList none]

/-- The number of ids handed out. -/
def size (pool : Pool) : Nat := pool.slots.length

/-- The pool with one more shape, under the next id. -/
def push (pool : Pool) (slot : Slot) : Pool where
  slots := pool.slots ++ [slot]
  byName := (slot.name, ⟨pool.size⟩) :: pool.byName

/-- A pool with the built-in shapes only. -/
def initial : Pool :=
  initialDescriptors.foldl (fun pool d => pool.push ⟨d.name, some d⟩) ⟨[], []⟩

instance : Inhabited Pool := ⟨initial⟩

/-- The id that a name stands for. -/
def lookup (pool : Pool) (name : String) : Option ShapeId :=
  pool.byName.lookup name

/-- What a shape stands for. -/
def descriptor (pool : Pool) (id : ShapeId) : Except ShapeError Descriptor :=
  match pool.slots[id.index]? with
  | none => .error (.unknown id)
  | some slot =>
    match slot.descriptor? with
    | none => .error (.undefinedShape id slot.name)
    | some known => .ok known

/-- The declared name of a shape, for messages. -/
def nameOf (pool : Pool) (id : ShapeId) : String :=
  match pool.slots[id.index]? with
  | none => "<unknown " ++ id.text ++ ">"
  | some slot => slot.name

def text (pool : Pool) : String :=
  "ShapePool \x7b len: " ++ String.ofList (natText pool.size) ++ ", .. \x7d"

/-! ## Declaring and defining -/

/-- The id of a name, which is declared if it is new. -/
def declare (name : String) : PoolM ShapeId := do
  let pool ← get
  match pool.lookup name with
  | some id => return id
  | none =>
    set (pool.push ⟨name, none⟩)
    return ⟨pool.size⟩

/-- Say what a declared id stands for. Saying the same again is no error. -/
def define (id : ShapeId) (descriptor : Descriptor) : PoolM Unit := do
  let pool ← get
  match pool.slots[id.index]? with
  | none => throw (.unknown id)
  | some slot =>
    if slot.name ≠ descriptor.name then
      throw (.nameMismatch id slot.name descriptor.name)
    else
      match slot.descriptor? with
      | some known =>
        if known = descriptor then return () else throw (.alreadyDefined id descriptor.name)
      | none =>
        set { pool with slots := pool.slots.set id.index ⟨slot.name, some descriptor⟩ }

/-- Declare the name of a descriptor and define it. -/
def register (descriptor : Descriptor) : PoolM ShapeId := do
  let id ← declare descriptor.name
  define id descriptor
  return id

/-! ## Shapes built from others -/

/-- The name of a shape that has been declared. -/
def declaredName (id : ShapeId) : PoolM String := do
  match (← get).slots[id.index]? with
  | none => throw (.unknown id)
  | some slot => return slot.name

/-- The fixed-length array of a shape. -/
def arrayOf (element : ShapeId) : PoolM ShapeId := do
  let name ← declaredName element
  register (.ofCollection ("[" ++ name ++ "]") .array element)

/-- The growing list of a shape. -/
def listOf (element : ShapeId) : PoolM ShapeId := do
  let name ← declaredName element
  register (.ofCollection ("List<" ++ name ++ ">") .list element)

/-- The shape or null. A nullable shape is its own. -/
def nullable (inner : ShapeId) : PoolM ShapeId := do
  match (← get).descriptor inner with
  | .error e => throw e
  | .ok known =>
    match known.kind with
    | .nullable _ => return inner
    | _ => register (.ofNullable (known.name ++ "?") inner)

/-- A named container that takes elements in order. -/
def insertable (name : String) (element : Option ShapeId) : PoolM ShapeId :=
  register (.ofCollection name .insertable element)

/-- A named container that can be enumerated and never be built. -/
def opaqueCollection (name : String) (element : Option ShapeId) : PoolM ShapeId :=
  register (.ofCollection name .opaqueFamily element)

/-! ## Nullable shapes -/

/-- Follow nullable shapes for at most `steps` shapes. -/
def stripNullableWithin (pool : Pool) : Nat → ShapeId → Except ShapeError ShapeId
  | 0, id => .error (.endless id)
  | steps + 1, id =>
    match pool.descriptor id with
    | .error e => .error e
    | .ok known =>
      match known.kind with
      | .nullable inner => pool.stripNullableWithin steps inner
      | _ => .ok id

/-- The shape below the nullable ones. -/
def stripNullable (pool : Pool) (id : ShapeId) : Except ShapeError ShapeId :=
  pool.stripNullableWithin (pool.size + 1) id

/-! ## Laws -/

theorem descriptor_eq_ok_iff {pool : Pool} {id : ShapeId} {known : Descriptor} :
    pool.descriptor id = .ok known ↔
      ∃ slot, pool.slots[id.index]? = some slot ∧ slot.descriptor? = some known := by
  unfold descriptor
  cases pool.slots[id.index]? with
  | none => simp
  | some slot => cases h : slot.descriptor? <;> simp [h]

theorem lt_size_of_descriptor {pool : Pool} {id : ShapeId} {known : Descriptor}
    (h : pool.descriptor id = .ok known) : id.index < pool.size := by
  obtain ⟨slot, hslot, -⟩ := descriptor_eq_ok_iff.mp h
  exact (List.getElem?_eq_some_iff.mp hslot).1

/-- Declaring a name that has an id changes nothing. -/
theorem declare_of_lookup {pool : Pool} {name : String} {id : ShapeId}
    (h : pool.lookup name = some id) : declare name pool = .ok id pool := by
  rw [declare, get_bind, h]
  rfl

/-- A new name gets the next id. -/
theorem declare_of_lookup_eq_none {pool : Pool} {name : String} (h : pool.lookup name = none) :
    declare name pool = .ok ⟨pool.size⟩ (pool.push ⟨name, none⟩) := by
  rw [declare, get_bind, h]
  rfl

theorem lookup_declare {pool after : Pool} {name : String} {id : ShapeId}
    (h : declare name pool = .ok id after) : after.lookup name = some id := by
  cases hl : pool.lookup name with
  | some known =>
    rw [declare_of_lookup hl] at h
    injection h with hid hafter
    rw [← hid, ← hafter, hl]
  | none =>
    rw [declare_of_lookup_eq_none hl] at h
    injection h with hid hafter
    rw [← hid, ← hafter]
    exact List.lookup_cons_self

/-- What is found below the nullable shapes is described, and is not nullable. -/
theorem exists_descriptor_of_stripNullableWithin {pool : Pool} {steps : Nat}
    {id target : ShapeId} (h : pool.stripNullableWithin steps id = .ok target) :
    ∃ known, pool.descriptor target = .ok known ∧ ∀ inner, known.kind ≠ .nullable inner := by
  induction steps generalizing id with
  | zero => cases h
  | succ steps ih =>
    rw [stripNullableWithin] at h
    split at h
    · cases h
    · rename_i known hknown
      split at h
      · exact ih h
      · rename_i hkind
        injection h with h
        exact ⟨known, h ▸ hknown, hkind⟩

/-- More steps do not change what is found. -/
theorem stripNullableWithin_of_le {pool : Pool} {steps more : Nat} {id target : ShapeId}
    (hle : steps ≤ more) (h : pool.stripNullableWithin steps id = .ok target) :
    pool.stripNullableWithin more id = .ok target := by
  induction steps generalizing id more with
  | zero => cases h
  | succ steps ih =>
    obtain ⟨more, rfl⟩ : ∃ n, more = n + 1 := ⟨more - 1, by omega⟩
    rw [stripNullableWithin] at h ⊢
    split at h
    · cases h
    · split at h
      · exact ih (by omega) h
      · exact h

end Pool

/-! ## Shape expressions -/

/-- A shape written with primitives, lists and nullable shapes. -/
inductive ShapeExpr where
  | primitive (kind : Primitive)
  | list (element : ShapeExpr)
  | nullable (inner : ShapeExpr)
  deriving DecidableEq

/-- The id of the shape that the expression writes. -/
def ShapeExpr.intern : ShapeExpr → PoolM ShapeId
  | primitive kind => return kind.shape
  | list element => do Pool.listOf (← element.intern)
  | nullable inner => do Pool.nullable (← inner.intern)

end Reshape
