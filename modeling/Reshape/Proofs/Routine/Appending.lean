import Reshape.Mapping.Converters
import Reshape.Proofs.Routine.Collecting
import Reshape.Proofs.Routine.Enclosed

/-!
# Containers that are supplied

A routine for a generic container appends to the one that it is supplied with what becomes of the
elements of the source. These are the elements that the source has when the routine starts, so that
the source may be the container itself. What is in the container in the end is told by the elements
alone if their conversions leave it as it is (`Session.Reachable.appends_elements`). They do

* without converters, if none of the elements leads to the container ;
* with converters that change no instance, if the rules pair no member twice, since then no
  conversion of an element has a destination that was there before ; and
* if the elements are of a set of places that the container is not in, and the converters stay in
  the set.

Otherwise a converter may put the container into a member that a later pair converts into, and more
is appended to it than there are elements (`Routine.exists_appended_between`).
-/

set_option linter.unusedSectionVars false

namespace Reshape

/-! ## What is appended -/

section

variable (r : Routine) (plan : CollectionPlan) (depth : Nat) (state : Value) (d : Address)
  (old : List Value) (s : Session) (xs : List Value)

/-- The elements have been converted one after the other, and the results follow what the container
held before. -/
def Routine.Appends (s' : Session) : Prop :=
  ∃ ws, ws.length = xs.length ∧ r.Elements plan depth state (Session.push d) s xs ws s' ∧
    s'.heap.get? d = some (.seq plan.target (old ++ ws).toArray)

/-- Some element fails, and the results of those before it follow what the container held before. -/
def Routine.AppendsUntil (stop : Stop) (s' : Session) : Prop :=
  ∃ before v after ws s₁, xs = before ++ v :: after ∧ ws.length = before.length ∧
    r.Elements plan depth state (Session.push d) s before ws s₁ ∧
    r.ElementFails plan depth state s₁ v stop s' ∧
    s'.heap.get? d = some (.seq plan.target (old ++ ws).toArray)

end

section

variable {r : Routine} {plan : CollectionPlan} {depth : Nat} {state : Value} {d : Address}
  {old : List Value} {s s₁ s' : Session} {v w : Value} {vs : List Value} {stop : Stop}

theorem Routine.Appends.cons (h : r.Element plan depth state s v w s₁)
    (hs : r.Appends plan depth state d (old ++ [w]) (s₁.push d w) vs s') :
    r.Appends plan depth state d old s (v :: vs) s' := by
  obtain ⟨ws, hlength, hws, hget⟩ := hs
  refine ⟨w :: ws, ?_, .cons h hws, ?_⟩
  · rw [List.length_cons, List.length_cons, hlength]
  · rw [hget, List.append_assoc]
    rfl

/-- Nothing else is appended. -/
theorem Routine.Appends.unique {xs : List Value} {s'' : Session}
    (h : r.Appends plan depth state d old s xs s')
    (h' : r.Appends plan depth state d old s xs s'') : s'' = s' := by
  obtain ⟨_, -, hs, -⟩ := h
  obtain ⟨_, -, hs', -⟩ := h'
  exact (hs.unique hs').2

theorem Routine.AppendsUntil.cons (h : r.Element plan depth state s v w s₁)
    (hs : r.AppendsUntil plan depth state d (old ++ [w]) (s₁.push d w) vs stop s') :
    r.AppendsUntil plan depth state d old s (v :: vs) stop s' := by
  obtain ⟨before, v', after, ws, s₂, rfl, hlength, hws, hfails, hget⟩ := hs
  refine ⟨v :: before, v', after, w :: ws, s₂, rfl, ?_, .cons h hws, hfails, ?_⟩
  · rw [List.length_cons, List.length_cons, hlength]
  · rw [hget, List.append_assoc]
    rfl

end

/-! ## Contracts that spare a container -/

namespace Contract

/-- Under the contract nothing changes the instance at the place, and appending to it is harmless. -/
structure Reserves (c : Contract) (d : Address) : Prop where
  kept {h h' : Heap} {i : Instance} (hl : c.later h h') (hi : h.get? d = some i) :
    h'.get? d = some i
  push {h : Heap} (w : Value) (hinv : c.inv h) : c.inv (h.push d w)
  source {h : Heap} {S : ShapeId} {v : Value} (w : Value) (hv : c.source h S v) :
    c.source (h.push d w) S v

variable {d : Address}

theorem keeping_reserves : keeping.Reserves d where
  kept hl hi := hl _ _ hi
  push _ _ := trivial
  source _ _ := trivial

theorem confining_reserves {p : Address → Prop} {state : Value} (hd : ¬p d) :
    (confining p state).Reserves d where
  kept hl hi := (hl.kept d hd).trans hi
  push w hinv := hinv.of_eq (Heap.size_modifyContents ..) fun a ha => by
    have hne : d ≠ a := fun heq => hd (heq ▸ ha)
    rw [Heap.get?_push, if_neg hne]
  source _ hv := hv

end Contract

/-! ## Element after element -/

/-- The session is held by the contract, and the container has these items. -/
structure Session.Supplies (c : Contract) (pool : Pool) (mappings : Mapping → Prop) (r : Routine)
    (d : Address) (target : ShapeId) (items : List Value) (s : Session) : Prop where
  held : c.Held pool mappings s
  knows : s.Knows r
  container : s.heap.get? d = some (.seq target items.toArray)

section

variable {c : Contract} {pool : Pool} {mappings : Mapping → Prop} {r : Routine} {s : Session}
  {d : Address} {plan : CollectionPlan} {mapper : CollectionMapper} {mapping : Mapping}
  {source : ShapeId} {sourceShape targetShape : Descriptor} {depth : Nat} {frame : Frame}
  {items : List Value}

theorem Session.Supplies.push (hreserves : c.Reserves d)
    (h : s.Supplies c pool mappings r d plan.target items) (w : Value) :
    (s.push d w).Supplies c pool mappings r d plan.target (items ++ [w]) := by
  refine ⟨h.held.withHeap (hreserves.push w h.held.inv), h.knows, ?_⟩
  change (s.heap.push d w).get? d = _
  rw [Heap.get?_push, if_pos rfl, h.container, Option.map_some, Instance.mapContents,
    List.push_toArray]

variable (hc : c.SoundWith pool frame.state) (hreserves : c.Reserves d)
  (hw : c.Within pool mappings (Routine.run depth) frame r) (hm : c.allows mapping)
  (ht : pool.Below plan.target plan.target targetShape)
  (hmapper : mapper.For pool mapping source plan.target sourceShape targetShape)
  (hrealizes : mapper.Realizes pool plan) (hbody : r.body = .collection mapper)

include hc hreserves hw hm ht hmapper hrealizes hbody

/-- An element is converted without the container, and then appended to it. -/
theorem CollectionMapper.Realizes.appendElement_supplies
    (h : s.Supplies c pool mappings r d plan.target items) {v : Value}
    (hv : c.source s.heap (sourceElement source sourceShape) v) :
    Ensures (mapper.appendElement (Routine.run depth) frame d v) s
      (fun _ s' => ∃ w s₁, r.Element plan depth frame.state s v w s₁ ∧ s' = s₁.push d w ∧
        s'.Supplies c pool mappings r d plan.target (items ++ [w]) ∧
        ∀ S u, c.source s.heap S u → c.source s'.heap S u)
      fun stop s' => r.ElementFails plan depth frame.state s v stop s' ∧
        s'.heap.get? d = some (.seq plan.target items.toArray) := by
  obtain ⟨family, element, hkind⟩ := CollectionKind.exists_collection_of_ofDescriptor? hmapper.kind
  have hserves : s.Serves mappings pool r := ⟨h.held.coherent, h.held.pool_eq, h.knows⟩
  have hmaps := (hrealizes.mapElement_does hbody hserves hw.linkage v).and
    (Contract.mapElement_gives hc hw hm ht hmapper hkind h.knows h.held hv)
  refine Ensures.bind (hmaps.mono ?_ ?_)
  · rintro w s₁ ⟨⟨helement, -⟩, hl, -⟩
    have h₁ : s₁.Supplies c pool mappings r d plan.target items :=
      ⟨hl.held, hl.knows r h.knows, hreserves.kept hl.later h.container⟩
    exact ⟨w, s₁, helement, rfl, h₁.push hreserves w, fun S u hu =>
      hreserves.source w (hc.values.source_later hl.later hu)⟩
  · exact fun stop s' hstop => ⟨hstop.1, hreserves.kept hstop.2.later h.container⟩

/-- The container gets one result after the other, up to the first element that fails. -/
theorem CollectionMapper.Realizes.appendElements_supplies {vs : List Value}
    (h : s.Supplies c pool mappings r d plan.target items)
    (hvs : ∀ v ∈ vs, c.source s.heap (sourceElement source sourceShape) v) :
    Ensures (mapper.appendElements (Routine.run depth) frame d vs) s
      (fun _ s' => r.Appends plan depth frame.state d items s vs s')
      fun stop s' => r.AppendsUntil plan depth frame.state d items s vs stop s' := by
  unfold CollectionMapper.appendElements
  induction vs generalizing s items with
  | nil => exact Ensures.pure ⟨[], rfl, .nil, by rw [List.append_nil]; exact h.container⟩
  | cons v vs ih =>
    obtain ⟨hv, hvs⟩ := List.forall_mem_cons.mp hvs
    refine Ensures.bind ((hrealizes.appendElement_supplies hc hreserves hw hm ht hmapper hbody h
      hv).mono ?_ ?_)
    · rintro - s' ⟨w, s₁, helement, rfl, h', hsource⟩
      refine (ih h' fun u hu => hsource _ _ (hvs u hu)).mono ?_ ?_
      · exact fun _ s' hs' => .cons helement hs'
      · exact fun stop s' hs' => .cons helement hs'
    · rintro stop s' ⟨hfails, hget⟩
      exact ⟨[], v, vs, [], s, rfl, rfl, .nil, hfails, by rw [List.append_nil]; exact hget⟩

end

/-! ## Routines -/

/-- The conversions of the elements under the mappings of the id leave the container as it is. -/
inductive Session.Withholds (mappings : Mapping → Prop) (s : Session) (id : MappingId)
    (xs : List Value) (state : Value) (d : Address) : Prop
  | plain (hconverters : ∀ m, mappings m → m.id = id → m.converters = [])
    (hreach : ∀ x ∈ xs, ¬s.heap.Reaches x d)
  | once (hkeeps : ∀ m, mappings m → m.id = id → ∀ c ∈ m.converters, c.converter.Keeps)
    (honce : ∀ m, mappings m → m.id = id → ∀ known known',
      ((m.rules.existing known known').map MemberPair.destination).Nodup)
  | confined {p : Address → Prop} (hd : ¬p d) (hp : s.heap.Encloses p)
    (hxs : ∀ x ∈ xs, x.Within p)
    (hstays : ∀ m, mappings m → m.id = id → ∀ c ∈ m.converters, c.converter.Stays p state)

section

variable {mappings : Mapping → Prop} {s : Session}

/-- To what is withheld there belongs a contract that reserves it. -/
theorem Session.Withholds.exists_reserves {id : MappingId} {xs : List Value} {state : Value}
    {d : Address} {i : Instance} (h : s.Withholds mappings id xs state d)
    (hpool : Pool.initial.GrowsTo s.pool) (hd : s.heap.get? d = some i) :
    ∃ c : Contract, c.SoundWith s.pool state ∧ c.Reserves d ∧ c.inv s.heap ∧
      (∀ m, mappings m → m.id = id → c.allows m) ∧ ∀ S, ∀ x ∈ xs, c.source s.heap S x := by
  cases h with
  | plain hconverters hreach =>
    refine ⟨_, Contract.confining_soundWith hpool,
      Contract.confining_reserves (Heap.not_opens hd hreach), s.heap.encloses_opens xs, ?_,
      fun _ _ hx => Heap.within_opens hx⟩
    intro m hm hid x hx
    rw [hconverters m hm hid] at hx
    cases hx
  | once hkeeps honce =>
    exact ⟨_, Contract.keeping_soundWith hpool state, Contract.keeping_reserves, trivial,
      fun m hm hid => ⟨hkeeps m hm hid, honce m hm hid⟩, fun _ _ _ => trivial⟩
  | confined hout hp hxs hstays =>
    exact ⟨_, Contract.confining_soundWith hpool, Contract.confining_reserves hout, hp, hstays,
      fun _ => hxs⟩

/-- A container that is supplied is appended to, and answered. -/
theorem CollectionMapper.Realizes.run_supplied {pool : Pool} {plan : CollectionPlan}
    {mapper : CollectionMapper} (h : mapper.Realizes pool plan)
    (hkind : plan.kind = .genericInsertable) {frame : Frame} (hsource : frame.source ≠ .null)
    {d : Address} (hdestination : frame.destination = .ref d) {items : Array Value}
    (hd : s.heap.get? d = some (.seq plan.target items)) (invoke : Invoke) :
    mapper.run invoke frame s = (do
      mapper.appendElements invoke frame d ((s.heap.elements? frame.source).getD [frame.source])
      return .ref d : RunM Value) s := by
  have hnull : ¬frame.source.isNull = true := fun hnull => hsource (Value.isNull_iff.mp hnull)
  have hsequence : sequenceAt? s.heap mapper.target frame.destination = some d :=
    sequenceAt?_eq_some_iff.mpr ⟨hdestination, items, h.target ▸ hd⟩
  have hcontainer : mapper.container? invoke frame s = .ok (some d) s := by
    unfold container?
    rw [get_bind, hsequence]
    rfl
  unfold run
  rw [if_neg hnull, h.kind, hkind]
  exact bind_of_eq_ok hcontainer

/-- A routine for a generic container that is supplied with one appends the results of the elements
to it in order, and answers it. If an element fails, the results of those before it have been
appended. The elements are those at the start, also if the source is the container. -/
theorem Session.Reachable.appends_elements (hs : s.Reachable mappings) {r : Routine}
    (hr : s.Knows r) {plan : CollectionPlan}
    (hplan : r.linkage.mapping.plan s.pool r.key.source r.key.target = .ok (.collection plan))
    (hkind : plan.kind = .genericInsertable) {source state : Value} (hsource : source ≠ .null)
    {d : Address} {old : List Value}
    (hd : s.heap.get? d = some (.seq plan.target old.toArray))
    (hwithholds : s.Withholds mappings r.key.mapping ((s.heap.elements? source).getD [source])
      state d) (depth : Nat) :
    Ensures (r.run (depth + 1) source (.ref d) state) s
      (fun w s' => w = .ref d ∧ r.Appends plan depth state d old s
        ((s.heap.elements? source).getD [source]) s')
      fun stop s' => r.AppendsUntil plan depth state d old s
        ((s.heap.elements? source).getD [source]) stop s' := by
  obtain ⟨owner, howned⟩ := hs.coherent
  obtain ⟨-, -, hmapping, hmade⟩ := howned.madeIn hr
  obtain ⟨mapper, n, below, sourceShape, targetShape, hbody, hready, -, htarget, hcollection⟩ :=
    hmade.exists_ready hplan
  obtain ⟨_, hbody', hrealizes, -⟩ := hmade.exists_mapper hplan
  cases hbody.symm.trans hbody'
  have hmapper := CollectionPlan.for_of_ready htarget.self hcollection hready
  -- Whatever keeps the conversions off the container is a contract that all routines meet.
  obtain ⟨c, hc, hreserves, hinv, hallows, hxs⟩ := hwithholds.exists_reserves howned.pool hd
  let frame : Frame := ⟨source, .ref d, state, r.linkage⟩
  have hwithin : c.Within s.pool mappings (Routine.run depth) frame r :=
    ⟨rfl, fun h hr' hkey => hc.run_meets hallows depth h hr' hkey⟩
  have hsupplies : s.Supplies c s.pool mappings r d plan.target old :=
    ⟨⟨⟨owner, howned⟩, rfl, hinv⟩, hr, hd⟩
  rw [Routine.run_succ, hbody]
  refine .of_eq (hrealizes.run_supplied hkind hsource rfl hd (Routine.run depth)) ?_
  refine Ensures.bind ((hrealizes.appendElements_supplies hc hreserves hwithin
    (hallows _ hmapping hmade.mapping.symm) htarget.self hmapper hbody hsupplies (hxs _)).mono ?_
      fun _ _ hstop => hstop)
  exact fun _ s' happends => Ensures.pure ⟨rfl, happends⟩

end

/-! ## A bag that is converted into itself -/

namespace Doubled

/-- A bag of two integers. -/
def heap : Heap where
  instances := #[.seq ⟨7⟩ #[.int 1, .int 2]]
  tokens := 0

def session : Session :=
  .compiling Bag.operations heap Mapping.initial ⟨7⟩ ⟨7⟩

def routine : Routine :=
  Session.compiled Bag.operations heap Mapping.initial ⟨7⟩ ⟨7⟩

theorem reachable : session.Reachable (· = Mapping.initial) :=
  Session.reachable_compiling Bag.operations heap Mapping.initial ⟨7⟩ ⟨7⟩

theorem knows : session.Knows routine :=
  (@Session.knows_of_cached? session ⟨0⟩ ⟨⟨7⟩, ⟨7⟩, Mapping.initial.id⟩ rfl).1

theorem get?_eq : session.heap.get? ⟨0⟩ = some (.seq Bag.plan.target [.int 1, .int 2].toArray) :=
  rfl

theorem plan_eq : routine.linkage.mapping.plan session.pool routine.key.source routine.key.target =
    .ok (.collection Bag.plan) :=
  rfl

theorem withholds : session.Withholds (· = Mapping.initial) routine.key.mapping
    [.int 1, .int 2] .null ⟨0⟩ := by
  refine .plain (fun m hm _ => hm ▸ rfl) fun x hx hreach => ?_
  refine hreach.within (p := fun _ => False) (fun _ _ h => h.elim) ?_
  simp only [List.mem_cons, List.not_mem_nil, or_false] at hx
  rcases hx with rfl | rfl <;> rintro b ⟨⟩

end Doubled

/-- The bag gets the two integers that it had once more, and no others. -/
theorem Session.Reachable.appends_elements_doubled : ∃ s',
    Doubled.routine.run 2 (.ref ⟨0⟩) (.ref ⟨0⟩) .null Doubled.session = .ok (.ref ⟨0⟩) s' ∧
      Doubled.routine.Appends Bag.plan 1 .null ⟨0⟩ [.int 1, .int 2] Doubled.session
        [.int 1, .int 2] s' ∧
      s'.heap.get? ⟨0⟩ = some (.seq ⟨7⟩ #[.int 1, .int 2, .int 1, .int 2]) ∧
      ∀ s'', Doubled.routine.Appends Bag.plan 1 .null ⟨0⟩ [.int 1, .int 2] Doubled.session
        [.int 1, .int 2] s'' → s'' = s' := by
  have hsource : Value.ref ⟨0⟩ ≠ .null := nofun
  have hrun := Session.Reachable.appends_elements Doubled.reachable Doubled.knows Doubled.plan_eq
    rfl hsource Doubled.get?_eq Doubled.withholds 1
  obtain ⟨s', hok, hget⟩ : ∃ s', Doubled.routine.run 2 (.ref ⟨0⟩) (.ref ⟨0⟩) .null
      Doubled.session = .ok (.ref ⟨0⟩) s' ∧
        s'.heap.get? ⟨0⟩ = some (.seq ⟨7⟩ #[.int 1, .int 2, .int 1, .int 2]) := ⟨_, rfl, rfl⟩
  have happends := (hrun.of_run hok).2
  exact ⟨s', hok, happends, hget, fun _ h => happends.unique h⟩

/-! ## A bag that is lent -/

namespace Lent

def pair : Descriptor :=
  .ofRecord "Pair" [⟨"left", ShapeId.int, {}⟩, ⟨"right", ⟨7⟩, {}⟩]

def operations : List Pool.Operation :=
  [.insertable "Bag" none, .register pair]

/-- Both members become the bag of the new pair. An integer becomes the caller's own value. -/
def mapping : Mapping where
  id := ⟨"lent"⟩
  rules := .fixed [⟨0, 1⟩, ⟨1, 1⟩]
  converters := [⟨ShapeId.int, ⟨7⟩, SimpleConverter.state.toConverter⟩]

/-- A list of one pair, with an item in its bag, and an empty bag. -/
def heap : Heap where
  instances := #[.seq ShapeId.untypedList #[.ref ⟨1⟩], .object ⟨8⟩ #[.int 1, .ref ⟨2⟩],
    .seq ⟨7⟩ #[.int 10], .seq ⟨7⟩ #[]]
  tokens := 0

def session : Session :=
  .compiling operations heap mapping ShapeId.untypedList ⟨7⟩

def routine : Routine :=
  Session.compiled operations heap mapping ShapeId.untypedList ⟨7⟩

def plan : CollectionPlan where
  kind := .genericInsertable
  target := ⟨7⟩
  route := .dynamic none
  inlineElements := false
  construct := some ⟨[], .returns (.newInstance ⟨7⟩)⟩

theorem knows : session.Knows routine :=
  (@Session.knows_of_cached? session ⟨0⟩ ⟨ShapeId.untypedList, ⟨7⟩, mapping.id⟩ rfl).1

theorem heap_eq : session.heap = heap :=
  (Session.pool_and_heap_compiling operations heap mapping ShapeId.untypedList ⟨7⟩).2

theorem not_reaches : ¬heap.Reaches (.ref ⟨1⟩) ⟨3⟩ := by
  have hwithin {n : Nat} (hn : n = 1 ∨ n = 2) :
      (Value.ref ⟨n⟩).Within fun a => a.index = 1 ∨ a.index = 2 := Value.Within.ref.mpr hn
  intro hreach
  refine absurd (hreach.within ?_ (hwithin (.inl rfl))) (by decide)
  rintro ⟨n⟩ i (rfl | rfl) hi w hw
  · obtain rfl := Option.some.inj hi
    replace hw : w ∈ [.int 1, .ref ⟨2⟩] := hw
    simp only [List.mem_cons, List.not_mem_nil, or_false] at hw
    rcases hw with rfl | rfl
    · rintro b ⟨⟩
    · exact hwithin (.inr rfl)
  · obtain rfl := Option.some.inj hi
    obtain rfl := List.mem_singleton.mp hw
    rintro b ⟨⟩

/-- How many items there are in the bag once the list has been converted into it. -/
def count? : Option Nat :=
  match routine.run 4 (.ref ⟨0⟩) (.ref ⟨3⟩) (.ref ⟨3⟩) session with
  | .ok _ s' => (s'.heap.elements? (.ref ⟨3⟩)).map List.length
  | .error _ _ => none

theorem count?_eq : count? = some 2 := by decide +kernel

end Lent

/-- Between what a bag held and the results of the elements there may be more. The converter changes
nothing, and the one element does not lead to the bag. But the bag is what the caller hands to the
converter, and a later pair fills it. -/
theorem Routine.exists_appended_between :
    (∀ c ∈ Lent.mapping.converters, c.converter.Keeps) ∧
      Lent.session.Reachable (· = Lent.mapping) ∧ Lent.session.Knows Lent.routine ∧
      Lent.routine.linkage.mapping.plan Lent.session.pool Lent.routine.key.source
        Lent.routine.key.target = .ok (.collection Lent.plan) ∧
      Lent.session.heap.elements? (.ref ⟨0⟩) = some [.ref ⟨1⟩] ∧
      ¬Lent.session.heap.Reaches (.ref ⟨1⟩) ⟨3⟩ ∧
      Lent.session.heap.get? ⟨3⟩ = some (.seq Lent.plan.target #[]) ∧
      ∃ w s', Lent.routine.run 4 (.ref ⟨0⟩) (.ref ⟨3⟩) (.ref ⟨3⟩) Lent.session = .ok w s' ∧
        (s'.heap.elements? (.ref ⟨3⟩)).map List.length = some 2 ∧
        ¬Lent.routine.Appends Lent.plan 3 (.ref ⟨3⟩) ⟨3⟩ [] Lent.session [.ref ⟨1⟩] s' := by
  rw [Lent.heap_eq]
  refine ⟨?_, Session.reachable_compiling .., Lent.knows, rfl, rfl, Lent.not_reaches, rfl, ?_⟩
  · intro c hc v state heap
    obtain rfl := List.mem_singleton.mp hc
    exact .refl heap
  · have hcount := Lent.count?_eq
    unfold Lent.count? at hcount
    split at hcount
    · rename_i w s' hrun
      refine ⟨w, s', hrun, hcount, ?_⟩
      rintro ⟨ws, hlength, -, hget⟩
      rw [Heap.elements?_ref, hget] at hcount
      have htwo : ws.length = 2 := Option.some.inj hcount
      exact absurd (hlength.symm.trans htwo) (by decide)
    · cases hcount

end Reshape
