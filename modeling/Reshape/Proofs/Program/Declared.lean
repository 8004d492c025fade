import Reshape.Proofs.Outcome

/-!
# Locals that programs declare

Expressions are looked at wherever they stand in a program (`Expr.nodes`). What passes the check of
locals uses none but those that it declares, each with the shape in its table (`Declaring`), so a
valid program declares all that it uses (`Program.declared_of_validate`).
-/

namespace Reshape

/-! ## Expressions within expressions -/

mutual

/-- The expression, and all expressions within it. -/
def Expr.nodes : Expr → List Expr
  | .argument a => [.argument a]
  | .readLocal id => [.readLocal id]
  | .writeLocal id value => .writeLocal id value :: value.nodes
  | .declareLocal id shape => [.declareLocal id shape]
  | .newInstance shape => [.newInstance shape]
  | .box value => .box value :: value.nodes
  | .unbox value => .unbox value :: value.nodes
  | .returns value => .returns value :: value.nodes
  | .sequence children => .sequence children :: Expr.nodesAll children
  | .invoke source target value destination =>
    .invoke source target value destination :: (value.nodes ++ destination.nodes)
  | .null => [.null]
  | .readMember object shape member => .readMember object shape member :: object.nodes
  | .writeMember id member value => .writeMember id member value :: value.nodes
  | .coalesce value fallback => .coalesce value fallback :: (value.nodes ++ fallback.nodes)
  | .ifNotNull test body => .ifNotNull test body :: (test.nodes ++ body.nodes)
  | .convert conversion value => .convert conversion value :: value.nodes

/-- The expressions, and all expressions within them. -/
def Expr.nodesAll : List Expr → List Expr
  | [] => []
  | e :: es => e.nodes ++ Expr.nodesAll es

end

/-- The local that the expression itself reads, writes or declares. -/
def Expr.local? : Expr → Option LocalId
  | .readLocal id | .writeLocal id _ | .declareLocal id _ | .writeMember id _ _ => some id
  | _ => none

/-! ## Locals of valid programs -/

/-- Where the locals `known` are declared, `nodes` use no locals but these and those that they
declare, all within the table. They leave `known'` declared. -/
structure Declaring (locals : List ShapeId) (known known' : List LocalId) (nodes : List Expr) :
    Prop where
  uses : ∀ x ∈ nodes, ∀ id, x.local? = some id → id.index < locals.length ∧
    (id ∈ known ∨ ∃ shape, .declareLocal id shape ∈ nodes)
  declares : ∀ id shape, .declareLocal id shape ∈ nodes → locals[id.index]? = some shape
  left : ∀ id ∈ known', id ∈ known ∨ ∃ shape, .declareLocal id shape ∈ nodes

namespace Declaring

variable {locals : List ShapeId} {known known₁ known' : List LocalId} {nodes nodes' : List Expr}

theorem nil : Declaring locals known known [] :=
  ⟨fun _ hx => (List.not_mem_nil hx).elim, fun _ _ h => (List.not_mem_nil h).elim,
    fun _ h => .inl h⟩

theorem append (h : Declaring locals known known₁ nodes)
    (h' : Declaring locals known₁ known' nodes') :
    Declaring locals known known' (nodes ++ nodes') := by
  have hleft (id : LocalId)
      (hid : id ∈ known₁ ∨ ∃ shape, .declareLocal id shape ∈ nodes') :
      id ∈ known ∨ ∃ shape, .declareLocal id shape ∈ nodes ++ nodes' := by
    rcases hid with hid | ⟨shape, hid⟩
    · exact (h.left id hid).imp_right fun ⟨shape, hid⟩ => ⟨shape, List.mem_append_left _ hid⟩
    · exact .inr ⟨shape, List.mem_append_right _ hid⟩
  refine ⟨fun x hx id hid => ?_, fun id shape hid => ?_, fun id hid => hleft id (h'.left id hid)⟩
  · rcases List.mem_append.mp hx with hx | hx
    · obtain ⟨hlt, hknown⟩ := h.uses x hx id hid
      exact ⟨hlt, hknown.imp_right fun ⟨shape, hid⟩ => ⟨shape, List.mem_append_left _ hid⟩⟩
    · obtain ⟨hlt, hknown⟩ := h'.uses x hx id hid
      exact ⟨hlt, hleft id hknown⟩
  · exact (List.mem_append.mp hid).elim (h.declares id shape) (h'.declares id shape)

/-- What a branch leaves declared is forgotten after it. -/
theorem branch (h : Declaring locals known known₁ nodes)
    (h' : Declaring locals known₁ known' nodes') :
    Declaring locals known known₁ (nodes ++ nodes') :=
  { h.append h' with
    left := fun id hid =>
      (h.left id hid).imp_right fun ⟨shape, hid⟩ => ⟨shape, List.mem_append_left _ hid⟩ }

/-- An expression that declares nothing itself, and uses no local but one that is declared. -/
theorem cons {e : Expr} (hnew : ∀ id shape, e ≠ .declareLocal id shape)
    (hlocal : ∀ id, e.local? = some id → id.index < locals.length ∧ id ∈ known')
    (h : Declaring locals known known' nodes) : Declaring locals known known' (e :: nodes) := by
  have hmore (id : LocalId) (hid : id ∈ known ∨ ∃ shape, .declareLocal id shape ∈ nodes) :
      id ∈ known ∨ ∃ shape, .declareLocal id shape ∈ e :: nodes :=
    hid.imp_right fun ⟨shape, hid⟩ => ⟨shape, List.mem_cons_of_mem _ hid⟩
  refine ⟨fun x hx id hid => ?_, fun id shape hid => ?_, fun id hid => hmore id (h.left id hid)⟩
  · rcases List.mem_cons.mp hx with rfl | hx
    · obtain ⟨hlt, hknown⟩ := hlocal id hid
      exact ⟨hlt, hmore id (h.left id hknown)⟩
    · obtain ⟨hlt, hknown⟩ := h.uses x hx id hid
      exact ⟨hlt, hmore id hknown⟩
  · exact h.declares id shape ((List.mem_cons.mp hid).resolve_left fun h => hnew id shape h.symm)

theorem declareLocal {id : LocalId} {shape : ShapeId} (h : locals[id.index]? = some shape) :
    Declaring locals known (id :: known) [.declareLocal id shape] := by
  have hnew : (.declareLocal id shape : Expr) ∈ [Expr.declareLocal id shape] :=
    List.mem_singleton_self _
  refine ⟨fun x hx id' hid => ?_, fun id' shape' hid => ?_, fun id' hid => ?_⟩
  · obtain rfl := List.mem_singleton.mp hx
    cases hid
    exact ⟨(List.getElem?_eq_some_iff.mp h).1, .inr ⟨shape, hnew⟩⟩
  · cases List.mem_singleton.mp hid
    exact h
  · rcases List.mem_cons.mp hid with rfl | hid
    · exact .inr ⟨shape, hnew⟩
    · exact .inl hid

end Declaring

theorem LocalId.require_eq_ok_iff {locals : List ShapeId} {declared : List LocalId} {id : LocalId} :
    id.require locals declared = .ok () ↔ id.index < locals.length ∧ id ∈ declared := by
  unfold require
  split
  · rename_i hle
    simp [Nat.not_lt.mpr hle]
  · rename_i hlt
    split
    · rename_i hid
      simp [hid, Nat.lt_of_not_le hlt]
    · rename_i hid
      simp [hid]

theorem LocalId.declare_eq_ok_iff {locals : List ShapeId} {declared declared' : List LocalId}
    {id : LocalId} {shape : ShapeId} : id.declare locals declared shape = .ok declared' ↔
      locals[id.index]? = some shape ∧ id ∉ declared ∧ declared' = id :: declared := by
  unfold declare
  split
  · rename_i hnone
    simp [hnone]
  · rename_i allocated hallocated
    rw [hallocated, Option.some.injEq]
    split
    · rename_i hne
      simp [hne]
    · rename_i hsame
      obtain rfl := Decidable.not_not.mp hsame
      split
      · rename_i hid
        simp [hid]
      · rename_i hid
        simp [hid, eq_comm]

mutual

/-- What passes the check declares what it uses. -/
theorem Expr.declaring_of_check {locals : List ShapeId} :
    ∀ (e : Expr) {known known' : List LocalId}, e.check locals known = .ok known' →
      Declaring locals known known' e.nodes
  | .argument _, _, _, h | .newInstance _, _, _, h | .null, _, _, h => by
    cases h
    exact .cons (fun _ _ h => nomatch h) (fun _ h => nomatch h) .nil
  | .readLocal id, _, _, h => by
    obtain ⟨_, hrequire, h⟩ := Except.bind_eq_ok_iff.mp h
    cases h
    refine .cons (fun _ _ h => nomatch h) (fun id' hid => ?_) .nil
    cases hid
    exact LocalId.require_eq_ok_iff.mp hrequire
  | .writeLocal id value, _, _, h | .writeMember id _ value, _, _, h => by
    obtain ⟨_, hvalue, h⟩ := Except.bind_eq_ok_iff.mp h
    obtain ⟨_, hrequire, h⟩ := Except.bind_eq_ok_iff.mp h
    cases h
    refine .cons (fun _ _ h => nomatch h) (fun id' hid => ?_) (value.declaring_of_check hvalue)
    cases hid
    exact LocalId.require_eq_ok_iff.mp hrequire
  | .declareLocal id shape, _, _, h => by
    obtain ⟨hlocal, -, rfl⟩ := LocalId.declare_eq_ok_iff.mp h
    exact .declareLocal hlocal
  | .box value, _, _, h | .unbox value, _, _, h | .returns value, _, _, h
  | .convert _ value, _, _, h | .readMember value _ _, _, _, h =>
    .cons (fun _ _ h => nomatch h) (fun _ h => nomatch h) (value.declaring_of_check h)
  | .sequence children, _, _, h =>
    .cons (fun _ _ h => nomatch h) (fun _ h => nomatch h) (Expr.declaring_of_checkAll children h)
  | .invoke _ _ value destination, _, _, h => by
    obtain ⟨_, hvalue, hdestination⟩ := Except.bind_eq_ok_iff.mp h
    exact .cons (fun _ _ h => nomatch h) (fun _ h => nomatch h)
      ((value.declaring_of_check hvalue).append (destination.declaring_of_check hdestination))
  | .coalesce first branch, _, _, h | .ifNotNull first branch, _, _, h => by
    obtain ⟨_, hfirst, h⟩ := Except.bind_eq_ok_iff.mp h
    obtain ⟨_, hbranch, h⟩ := Except.bind_eq_ok_iff.mp h
    cases h
    exact .cons (fun _ _ h => nomatch h) (fun _ h => nomatch h)
      ((first.declaring_of_check hfirst).branch (branch.declaring_of_check hbranch))

theorem Expr.declaring_of_checkAll {locals : List ShapeId} :
    ∀ (es : List Expr) {known known' : List LocalId}, Expr.checkAll locals es known = .ok known' →
      Declaring locals known known' (Expr.nodesAll es)
  | [], _, _, h => by
    cases h
    exact .nil
  | e :: es, _, _, h => by
    obtain ⟨_, he, hes⟩ := Except.bind_eq_ok_iff.mp h
    exact (e.declaring_of_check he).append (Expr.declaring_of_checkAll es hes)

end

namespace Program

variable {program : Program}

theorem declaring_of_validate (h : program.validate = .ok ()) :
    ∃ known, Declaring program.locals [] known program.body.nodes := by
  obtain ⟨known, hcheck, -⟩ := Except.bind_eq_ok_iff.mp h
  exact ⟨known, program.body.declaring_of_check hcheck⟩

/-- A valid program declares its locals with the shapes in its table. -/
theorem localShape?_of_validate (h : program.validate = .ok ()) {id : LocalId} {shape : ShapeId}
    (hid : .declareLocal id shape ∈ program.body.nodes) : program.localShape? id = some shape := by
  obtain ⟨known, hbody⟩ := declaring_of_validate h
  exact hbody.declares id shape hid

/-- A valid program declares each local that it uses. -/
theorem declared_of_validate (h : program.validate = .ok ()) {x : Expr}
    (hx : x ∈ program.body.nodes) {id : LocalId} (hid : x.local? = some id) :
    ∃ shape, program.localShape? id = some shape ∧
      .declareLocal id shape ∈ program.body.nodes := by
  obtain ⟨known, hbody⟩ := declaring_of_validate h
  obtain ⟨shape, hdeclared⟩ := (hbody.uses x hx id hid).2.resolve_left List.not_mem_nil
  exact ⟨shape, hbody.declares id shape hdeclared, hdeclared⟩

end Program

end Reshape
