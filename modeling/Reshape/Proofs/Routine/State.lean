import Reshape.Proofs.Program.Coded
import Reshape.Proofs.Program.Planned
import Reshape.Proofs.Session.Transparency

/-!
# The caller's own value

The state that a conversion is given is meant for converters. No program that is planned reads it
(`Mapping.plan_stateless`), so all that a run does with it is to hand it on : to every converter
that is called, and to every routine that is run within (`Session.Reachable.state_handed_on`). Where
there are no converters the state makes no difference to anything.

Both come of one induction, on two runs of one routine in one session with two states. They go in
step (`Tandem`) as long as calling a converter does, which it does if the states are equal, or if
there is no converter to call.
-/

set_option linter.unusedSectionVars false

namespace Reshape

/-! ## Plans -/

/-- The expression reads no state. -/
def Expr.Stateless (e : Expr) : Prop := Expr.argument .state ∉ e.nodes

/-- No program of the plan reads the state. -/
def RoutinePlan.Stateless : RoutinePlan → Prop
  | program p => p.body.Stateless
  | collection plan => ∀ p ∈ plan.construct, p.body.Stateless
  | unresolved => True

theorem Expr.Planned.stateless {e : Expr} (h : e.Planned) : e.Stateless :=
  fun hmem => h _ hmem rfl

/-- No program that is planned reads the state, the one that makes a container included. -/
theorem Mapping.plan_stateless {pool : Pool} {mapping : Mapping} {source target : ShapeId}
    {plan : RoutinePlan} (h : mapping.plan pool source target = .ok plan) : plan.Stateless := by
  have hplanned := Mapping.planned_of_plan h
  cases plan with
  | program p => exact (hplanned p (List.mem_singleton_self p)).stateless
  | collection plan => exact fun p hp => (hplanned p (Option.mem_toList.mpr hp)).stateless
  | unresolved => exact True.intro

/-! ## Code -/

/-- The same of all the code of a body. -/
def Body.Uses (arguments : Argument → Prop) (converters : Registered → Prop) : Body → Prop
  | program p => p.code.Uses arguments converters
  | collection mapper => ∀ p ∈ mapper.construct, p.code.Uses arguments converters
  | unresolved => True

section

variable {pool : Pool} {mapping : Mapping}

mutual

/-- The code of what reads no state hands it on, to converters of the mapping. -/
theorem Expr.Coded.uses : ∀ {e : Expr} {code : Code}, e.Coded pool mapping code → e.Stateless →
    code.Uses (· ≠ .state) (· ∈ mapping.converters)
  | .argument _, _, .argument, h => by
    rintro rfl
    exact h (List.mem_singleton_self _)
  | .readLocal _, _, .readLocal, _ | .null, _, .null, _
  | .declareLocal _ _, _, .declareLocal _, _ | .newInstance _, _, .newInstance _, _ => True.intro
  | .writeLocal _ _, _, .writeLocal hvalue, h | .box _, _, .box hvalue, h
  | .unbox _, _, .unbox hvalue, h | .returns _, _, .returns hvalue, h
  | .readMember _ _ _, _, .readMember hvalue, h | .writeMember _ _ _, _, .writeMember hvalue, h
  | .convert (.primitive _ _) _, _, .convert hvalue, h =>
    (hvalue.uses fun hmem => h (List.mem_cons_of_mem _ hmem) :)
  | .convert (.custom _) _, _, .custom hc hvalue, h =>
    ⟨List.mem_of_getElem? hc, hvalue.uses fun hmem => h (List.mem_cons_of_mem _ hmem)⟩
  | .sequence _, _, .sequence hs, h => hs.use fun hmem => h (List.mem_cons_of_mem _ hmem)
  | .invoke _ _ _ _, _, .invokeLinked _ hfirst hsecond, h
  | .invoke _ _ _ _, _, .invokeDynamic hfirst hsecond, h
  | .coalesce _ _, _, .coalesce hfirst hsecond, h
  | .ifNotNull _ _, _, .ifNotNull hfirst hsecond, h =>
    ⟨hfirst.uses fun hmem => h (List.mem_cons_of_mem _ (List.mem_append_left _ hmem)),
      hsecond.uses fun hmem => h (List.mem_cons_of_mem _ (List.mem_append_right _ hmem))⟩

theorem Expr.CodedAll.use : ∀ {es : List Expr} {codes : List Code},
    Expr.CodedAll pool mapping es codes → Expr.argument .state ∉ Expr.nodesAll es →
      Code.Use (· ≠ .state) (· ∈ mapping.converters) codes
  | [], _, .nil, _ => True.intro
  | _ :: _, _, .cons hcoded hs, h =>
    ⟨hcoded.uses fun hmem => h (List.mem_append_left _ hmem),
      hs.use fun hmem => h (List.mem_append_right _ hmem)⟩

end

theorem Program.ready_uses {program : Program} (h : program.body.Stateless) {n : Nat}
    {r : ReadyProgram × Nat} (hr : program.ready pool mapping n = .ok r) :
    r.1.code.Uses (· ≠ .state) (· ∈ mapping.converters) :=
  (coded_of_ready hr).2.1.uses h

/-- The code of a routine reads no state, and its converters are the mapping's. -/
theorem Mapping.body_uses {source target : ShapeId} {body : Body}
    (h : mapping.body pool source target = .ok body) :
    body.Uses (· ≠ .state) (· ∈ mapping.converters) := by
  obtain ⟨plan, hplan, h⟩ := Except.bind_eq_ok_iff.mp h
  obtain ⟨r, hready, rfl⟩ := Except.map_eq_ok_iff.mp h
  have hstateless := Mapping.plan_stateless hplan
  cases plan with
  | program program =>
    obtain ⟨ready, n, hprogram, hr⟩ := ReadyM.bind_eq_ok_iff.mp hready
    cases hr
    exact Program.ready_uses hstateless hprogram
  | collection plan =>
    obtain ⟨mapper, n, hmapper, hr⟩ := ReadyM.bind_eq_ok_iff.mp hready
    cases hr
    obtain ⟨construct, n', hconstruct, hmapper⟩ := ReadyM.bind_eq_ok_iff.mp hmapper
    obtain ⟨path, n'', -, hmapper⟩ := ReadyM.bind_eq_ok_iff.mp hmapper
    cases hmapper
    intro p hp
    obtain rfl : construct = some p := hp
    cases hplanned : plan.construct with
    | none =>
      rw [hplanned] at hconstruct
      cases hconstruct
    | some program =>
      rw [hplanned, Option.mapM_some, map_eq_pure_bind] at hconstruct
      obtain ⟨ready, n, hprogram, hr⟩ := ReadyM.bind_eq_ok_iff.mp hconstruct
      cases hr
      exact Program.ready_uses (hstateless program hplanned) hprogram
  | unresolved =>
    cases hready
    exact True.intro

end

/-! ## Two runs in step -/

/-- Calls have been made, none of them with null, and all of them with this state. -/
def Session.Passed (state : Value) (s s' : Session) : Prop :=
  ∃ made, s'.calls = made ++ s.calls ∧ ∀ c ∈ made, c.value ≠ .null ∧ c.state = state

theorem Session.Passed.of_calls {state : Value} {s s' : Session} (h : s'.calls = s.calls) :
    s.Passed state s' :=
  ⟨[], h, fun _ hc => (List.not_mem_nil hc).elim⟩

theorem Session.Passed.trans {state : Value} {s s₁ s' : Session} (h : s.Passed state s₁)
    (h' : s₁.Passed state s') : s.Passed state s' := by
  obtain ⟨made, hcalls, hall⟩ := h
  obtain ⟨made', hcalls', hall'⟩ := h'
  exact ⟨made' ++ made, by rw [hcalls', hcalls, List.append_assoc],
    List.forall_mem_append.mpr ⟨hall', hall⟩⟩

/-- A run with the one state has come so far. -/
structure Session.Hands (mappings : Mapping → Prop) (owner : Nat → Linkage) (state : Value)
    (s₀ s : Session) : Prop where
  evolves : s₀.Evolves mappings owner s
  passed : s₀.Passed state s

/-- Runs of a routine with two states do the same, as far as mappings of the id are concerned, and
hand on the first of them. -/
def Invoke.HandsOn (mappings : Mapping → Prop) (id : MappingId) (state state' : Value)
    (invoke : Invoke) : Prop :=
  ∀ (owner : Nat → Linkage) (s : Session) (r : Routine), s.Owned mappings owner → s.Knows r →
    r.key.mapping = id → ∀ source destination,
      invoke r source destination state' s = invoke r source destination state s ∧
        Ensures (invoke r source destination state) s
          (fun _ => s.Hands mappings owner state) fun _ => s.Hands mappings owner state

section

variable {mappings : Mapping → Prop} {owner : Nat → Linkage} {s₀ s : Session} {id : MappingId}
  {state state' : Value} {invoke : Invoke}

/-- To find a routine, and to run it with either state. -/
theorem Session.Hands.find_bind {owner₁ : Nat → Linkage} {linkage : Linkage}
    {source target : ShapeId} {x : RunM Routine} (hinvoke : invoke.HandsOn mappings id state state')
    (hid : linkage.mapping.id = id) (h : s₀.Hands mappings owner state s)
    (hagree : ∀ i < s₀.linkages, owner₁ i = owner i)
    (hx : s.Searches mappings owner₁ linkage source target x) (v d : Value) :
    (x >>= fun routine => invoke routine v d state') s =
        (x >>= fun routine => invoke routine v d state) s ∧
      Ensures (x >>= fun routine => invoke routine v d state) s
        (fun _ => s₀.Hands mappings owner state) fun _ => s₀.Hands mappings owner state := by
  unfold Session.Searches Ensures at hx
  simp only [Ensures, Bind.bind, EStateM.bind]
  cases hrun : x s with
  | error stop s' =>
    rw [hrun] at hx
    obtain ⟨⟨hevolves, -⟩, hcalls, -⟩ := hx
    exact ⟨rfl, h.evolves.trans hagree hevolves, h.passed.trans (.of_calls hcalls)⟩
  | ok r s' =>
    rw [hrun] at hx
    obtain ⟨hfinds, hcalls⟩ := hx
    have hs' : s₀.Evolves mappings owner s' := h.evolves.trans hagree hfinds.evolves
    obtain ⟨owner₂, hagree', howned⟩ := hs'.owned
    have hkey : r.key.mapping = id := by
      rw [hfinds.answers.key]
      exact hid
    obtain ⟨heq, hhands⟩ := hinvoke owner₂ s' r howned hfinds.knows hkey v d
    refine ⟨heq, ?_⟩
    have hlast (s'' : Session) (h'' : s'.Hands mappings owner₂ state s'') :
        s₀.Hands mappings owner state s'' :=
      ⟨hs'.trans hagree' h''.evolves, (h.passed.trans (.of_calls hcalls)).trans h''.passed⟩
    exact hhands.mono (fun _ => hlast) fun _ => hlast

variable (hstate : state' = state ∨ ∀ m, mappings m → m.id = id → m.converters = [])

include hstate

/-- The converters of a mapping are called in step : there are none, or both runs have one state. -/
theorem Session.Hands.callConverter (h : s₀.Hands mappings owner state s) {mapping : Mapping}
    (hmapping : mappings mapping) (hid : mapping.id = id) {c : Registered}
    (hc : c ∈ mapping.converters) {v : Value} (hv : v ≠ .null) :
    Session.callConverter c v state' s = Session.callConverter c v state s ∧
      Ensures (Session.callConverter c v state) s
        (fun _ => s₀.Hands mappings owner state) fun _ => s₀.Hands mappings owner state := by
  rcases hstate with rfl | hnone
  · refine ⟨rfl, ?_⟩
    let called : Session := { s with calls := s.converterCall c v state' :: s.calls }
    have hcalled (heap : Heap) : s₀.Hands mappings owner state' { called with heap := heap } :=
      ⟨(h.evolves.withCalls _).withHeap heap, h.passed.trans
        ⟨[s.converterCall c v state'], rfl, List.forall_mem_singleton.mpr ⟨hv, rfl⟩⟩⟩
    change Ensures (RunM.onHeapExcept (fun e => e) (c.converter.apply v state')) called _ _
    unfold Ensures RunM.onHeapExcept
    rcases c.converter.apply v state' called.heap with ⟨_ | _, heap⟩ <;> exact hcalled heap
  · rw [hnone mapping hmapping hid] at hc
    exact (List.not_mem_nil hc).elim

/-- The code of a routine goes in step with two states, and hands on the one. -/
theorem Session.Owned.abreast (hinvoke : invoke.HandsOn mappings id state state')
    (hs : s.Owned mappings owner) {r : Routine} (hr : s.Knows r) (hid : r.key.mapping = id)
    (source destination : Value) :
    Session.Abreast (Jointly (s.Hands mappings owner state)) (· ≠ .state)
      (· ∈ r.linkage.mapping.converters) invoke ⟨source, destination, state, r.linkage⟩
      ⟨source, destination, state', r.linkage⟩ := by
  obtain ⟨hlt, howner, hmapping, hmade⟩ := hs.madeIn hr
  have hid' : r.linkage.mapping.id = id := hmade.mapping.symm.trans hid
  refine ⟨fun a ha => ?_, fun s₁ t h => by rw [h.1], fun s₁ t heap h => ?_, fun c hc v hv => ?_,
    fun link v d => ?_, fun shape shape' v d => ?_⟩
  · cases a with
    | state => exact absurd rfl ha
    | source | destination => rfl
  · obtain ⟨rfl, h⟩ := h
    exact ⟨rfl, h.evolves.withHeap heap, h.passed⟩
  · exact mirrors_jointly_iff.mpr fun s₁ h => h.callConverter hstate hmapping hid' hc hv
  · refine mirrors_jointly_iff.mpr fun s₁ h => ?_
    obtain ⟨owner₁, hagree, howned⟩ := h.evolves.owned
    exact h.find_bind hinvoke hid' hagree (Session.resolve_searches howned
      (Nat.lt_of_lt_of_le hlt h.evolves.linkages) ((hagree _ hlt).trans howner) link) v d
  · refine mirrors_jointly_iff.mpr fun s₁ h => ?_
    obtain ⟨owner₁, hagree, howned⟩ := h.evolves.owned
    exact h.find_bind hinvoke hid' hagree
      (Session.resolveDynamic_searches howned hmapping shape shape') v d

/-- Runs of routines go in step with two states, whatever their depth. -/
theorem Routine.run_handsOn (depth : Nat) :
    Invoke.HandsOn mappings id state state' (Routine.run depth) := by
  induction depth with
  | zero => exact fun _ _ _ hs _ _ _ _ => ⟨rfl, .refl hs, .of_calls rfl⟩
  | succ depth ih =>
    intro owner s r hs hr hid source destination
    obtain ⟨-, -, -, hmade⟩ := hs.madeIn hr
    have huses := Mapping.body_uses hmade.body
    have habreast := hs.abreast hstate ih hr hid source destination
    have hstart : s.Hands mappings owner state s := ⟨.refl hs, .of_calls rfl⟩
    unfold Routine.run
    dsimp only
    cases hbody : r.body with
    | program program =>
      rw [hbody] at huses
      exact mirrors_jointly_iff.mp (habreast.runProgram program huses) s hstart
    | collection mapper =>
      rw [hbody] at huses
      exact mirrors_jointly_iff.mp (habreast.runMapper mapper huses (by decide) (by decide)) s
        hstart
    | unresolved => exact ⟨rfl, hstart⟩

end

/-- Whatever a routine is run on, and however the run ends, all calls of converters that it makes
are made with values that are not null and with the caller's own state, be they made by the
routine itself or by one that is run within. Under mappings without converters the state makes no
difference to the outcome : the value or the error, the heap, the routines that have been compiled
and the links that have been resolved are the same whatever it is. -/
theorem Session.Reachable.state_handed_on {mappings : Mapping → Prop} {s : Session}
    (h : s.Reachable mappings) {r : Routine} (hr : s.Knows r) (depth : Nat)
    (source destination state : Value) :
    (∃ made, (After (r.run depth source destination state) s).calls = made ++ s.calls ∧
      ∀ c ∈ made, c.value ≠ .null ∧ c.state = state) ∧
    ((∀ m, mappings m → m.id = r.key.mapping → m.converters = []) → ∀ state',
      r.run depth source destination state' s = r.run depth source destination state s) := by
  obtain ⟨owner, howned⟩ := h.coherent
  constructor
  · have hhands : Invoke.HandsOn mappings r.key.mapping state state (Routine.run depth) :=
      Routine.run_handsOn (.inl rfl) depth
    obtain ⟨-, hkept⟩ := hhands owner s r howned hr rfl source destination
    exact (hkept.after).passed
  · intro hnone state'
    exact (Routine.run_handsOn (.inr hnone) depth owner s r howned hr rfl source destination).1

/-! ## A list whose texts are replaced -/

namespace Replaced

/-- Texts become the state. -/
def mapping : Mapping where
  id := ⟨"replaced"⟩
  converters := [⟨ShapeId.str, ShapeId.str, ⟨"state", fun _ state heap => (.ok state, heap)⟩⟩]

/-- A list of a text, of null and of an integer. -/
def heap : Heap :=
  let (text, heap) := Heap.newString "old" {}
  { heap with instances := heap.instances.push (.seq ShapeId.untypedList #[text, .null, .int 1]) }

def session : Session :=
  .compiling [] heap mapping ShapeId.untypedList ShapeId.untypedList

def routine : Routine :=
  Session.compiled [] heap mapping ShapeId.untypedList ShapeId.untypedList

theorem knows : session.Knows routine := by
  have hcached : (session.cached? ⟨0⟩
      ⟨ShapeId.untypedList, ShapeId.untypedList, mapping.id⟩).isSome = true := rfl
  exact (Session.knows_of_cached? hcached).1

/-- The routine that copies lists without a converter. -/
def plainly : Routine :=
  Session.compiled [] Recopied.heap Mapping.initial ShapeId.untypedList ShapeId.untypedList

theorem knows_plainly : Recopied.cold.Knows plainly := by
  have hcached : (Recopied.cold.cached? ⟨0⟩
      ⟨ShapeId.untypedList, ShapeId.untypedList, Mapping.initial.id⟩).isSome = true := rfl
  exact (Session.knows_of_cached? hcached).1

end Replaced

/-- The routine that copies lists leaves the text to another one, which calls the converter. Without
converters, one list is copied in the same way with any state. -/
theorem Session.Reachable.state_handed_on_replaced :
    (∃ made, (After (Replaced.routine.run 2 (.ref ⟨0⟩) .null (.int 7)) Replaced.session).calls = made ∧
      made.length = 1 ∧ ∀ c ∈ made, c.value ≠ .null ∧ c.state = .int 7) ∧
    ∀ state, Replaced.plainly.run 2 (.ref ⟨0⟩) .null state Recopied.cold =
      Replaced.plainly.run 2 (.ref ⟨0⟩) .null .null Recopied.cold := by
  have hreplaced : Replaced.session.Reachable (· = Replaced.mapping) :=
    reachable_compiling [] Replaced.heap Replaced.mapping ShapeId.untypedList ShapeId.untypedList
  have hrecopied : Recopied.cold.Reachable (· = Mapping.initial) :=
    reachable_compiling [] Recopied.heap Mapping.initial ShapeId.untypedList ShapeId.untypedList
  constructor
  · obtain ⟨⟨made, hcalls, hall⟩, -⟩ :=
      Session.Reachable.state_handed_on hreplaced Replaced.knows 2 (.ref ⟨0⟩) .null (.int 7)
    rw [show Replaced.session.calls = [] from rfl, List.append_nil] at hcalls
    exact ⟨made, hcalls, by rw [← hcalls]; rfl, hall⟩
  · obtain ⟨-, hsame⟩ := Session.Reachable.state_handed_on hrecopied Replaced.knows_plainly 2
      (.ref ⟨0⟩) .null .null
    refine hsame fun m hm _ => ?_
    rw [hm]
    rfl

end Reshape
