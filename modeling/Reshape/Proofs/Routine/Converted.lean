import Reshape.Mapping.Converters
import Reshape.Proofs.Program.Access
import Reshape.Proofs.Routine.Secluded

/-!
# Where converters are called

A mapping may have a converter for two declared shapes. A routine that fills a record calls it once
for each pair of members of the two shapes, when the turn of the pair comes, and writes what it
answers (`RecordForm.Converts`). What is written stays there if nothing else gets at the record.

A routine for arrays or lists calls it, through the routine for the two shapes, once for each
element (`Registered.TakesAll`), but it decides how elements go before it knows of any converter : a
shallow mapping takes elements as they are if the two declared shapes are one or the second is
`any`, and elements that are declared to be `any` go by the shapes that they have (`Routine.Maps`).
There the converter for the two shapes is passed over.
-/

set_option linter.unusedSectionVars false

namespace Reshape

/-! ## Calls -/

/-- What the converter makes of a value in a session. Null is not given to it. -/
inductive Registered.Takes (c : Registered) (state : Value) (s : Session) :
    Value → Value → Session → Prop
  | null : Takes c state s .null .null s
  | called {v y : Value} {s' : Session} (hv : v ≠ .null)
    (h : Session.callConverter c v state s = .ok y s') : Takes c state s v y s'

/-- The calls of converters between the two sessions are calls of this one, one for each of the
values that is not null, in order. -/
def Registered.Called (c : Registered) (state : Value) (vs : List Value) (s s' : Session) : Prop :=
  ∃ made : List ConverterCall, s'.calls = made.reverse ++ s.calls ∧
    made.map ConverterCall.value = vs.filter (!·.isNull) ∧
    ∀ call ∈ made, call.converter = c.converter.name ∧ call.source = c.source ∧
      call.target = c.target ∧ call.state = state

/-- From a session to the last, the converter takes one value after the other, and what it answers
is stored as `stored` says. Routines may be looked for in between. -/
inductive Registered.TakesAll (c : Registered) (state : Value) (stored : Value → Value → Prop) :
    Session → List Value → List Value → Session → Prop
  | nil {s : Session} : TakesAll c state stored s [] [] s
  | cons {s s₁ s₂ s' : Session} {v y w : Value} {vs ws : List Value} (hheap : s₁.heap = s.heap)
    (hcalls : s₁.calls = s.calls) (h : c.Takes state s₁ v y s₂) (hw : stored y w)
    (hs : TakesAll c state stored s₂ vs ws s') : TakesAll c state stored s (v :: vs) (w :: ws) s'

section

variable {c : Registered} {state : Value} {s s₁ s' : Session} {v y : Value} {vs ws : List Value}

theorem Session.calls_of_callConverter (h : Session.callConverter c v state s = .ok y s') :
    s'.calls = s.converterCall c v state :: s.calls := by
  obtain ⟨_, s₁, hnoted, happly⟩ := EStateM.bind_eq_ok_iff.mp h
  cases hnoted
  unfold RunM.onHeapExcept at happly
  split at happly
  · obtain ⟨-, rfl⟩ := EStateM.Result.ok.inj happly
    rfl
  · cases happly

theorem Registered.Called.trans {us : List Value} (h : c.Called state us s s₁)
    (h' : c.Called state vs s₁ s') : c.Called state (us ++ vs) s s' := by
  obtain ⟨made, hcalls, hvalues, hall⟩ := h
  obtain ⟨made', hcalls', hvalues', hall'⟩ := h'
  refine ⟨made ++ made', ?_, ?_, List.forall_mem_append.mpr ⟨hall, hall'⟩⟩
  · rw [hcalls', hcalls, List.reverse_append, List.append_assoc]
  · rw [List.map_append, List.filter_append, hvalues, hvalues']

theorem Registered.Takes.called_one (h : c.Takes state s v y s') : c.Called state [v] s s' := by
  cases h with
  | null => exact ⟨[], rfl, rfl, fun _ hcall => nomatch hcall⟩
  | called hv h =>
    have hnull : v.isNull = false := by
      rw [← Bool.not_eq_true, Value.isNull_iff]
      exact hv
    refine ⟨[s.converterCall c v state], Session.calls_of_callConverter h, ?_, ?_⟩
    · rw [List.filter_cons_of_pos (by rw [hnull]; rfl)]
      rfl
    · exact List.forall_mem_singleton.mpr ⟨rfl, rfl, rfl, rfl⟩

theorem Registered.TakesAll.called {stored : Value → Value → Prop}
    (h : c.TakesAll state stored s vs ws s') : c.Called state vs s s' := by
  induction h with
  | nil => exact ⟨[], rfl, rfl, fun _ hcall => nomatch hcall⟩
  | cons hheap hcalls h _ _ ih =>
    obtain ⟨made, hmade, hvalues⟩ := h.called_one
    rw [hcalls] at hmade
    exact Registered.Called.trans ⟨made, hmade, hvalues⟩ ih

end

/-! ## Members -/

/-- In the course of a run the turn of the pair comes, after some members are filled and before the
others are : the converter makes `y` of the source member, and `y` is written. -/
inductive RecordForm.Converts (form : RecordForm) (c : Registered) (pair : MemberPair)
    (invoke : Invoke) (frame : Frame) (s : Session) (w : Value) (s' : Session) (y : Value) : Prop
  | intro {before after : List MemberTransfer} {record record₁ record₂ v : Value}
    {s₀ s₁ s₂ s₃ : Session} (hmembers : form.members = before ++ ⟨pair, .custom c⟩ :: after)
    (hdestination : form.destination frame s = .ok record s₀) (hrecord : record.unboxed ≠ .null)
    (hbefore : form.fillAll invoke frame frame.source.unboxed record.unboxed before s₀ =
      .ok record₁ s₁)
    (hread : s₁.heap.memberAs frame.source.unboxed form.source pair.source = .ok v)
    (htakes : c.Takes frame.state s₁ v y s₂) (hcalled : c.Called frame.state [v] s₁ s₂)
    (hafter : form.fillAll invoke frame frame.source.unboxed
      (s₂.heap.writeMember record₁ pair.destination y).1 after
        { s₂ with heap := (s₂.heap.writeMember record₁ pair.destination y).2 } = .ok record₂ s₃)
    (hresult : form.result record₂ s₃ = .ok w s') :
    Converts form c pair invoke frame s w s' y

namespace RecordForm

variable {form : RecordForm} {c : Registered} {pair : MemberPair} {invoke : Invoke} {frame : Frame}
  {s s' : Session} {record source v w y : Value}

/-- A converter takes what is read of the source, whatever the member holds. -/
theorem run_custom {shape : ShapeId} {i : Nat} (hread : s.heap.memberAs source shape i = .ok v)
    (h : c.Takes frame.state s v y s') (current : RunM Value) :
    (Transfer.custom c).run invoke frame (RunM.readMember source shape i) current s = .ok y s' := by
  have hvalue : RunM.readMember source shape i s = .ok v s := by
    rw [RunM.readMember_eq, hread]
    rfl
  refine (bind_of_eq_ok hvalue).trans ?_
  cases h with
  | null => rfl
  | called hv h =>
    rw [if_neg fun hnull => hv (Value.isNull_iff.mp hnull)]
    exact h

/-- A member that a converter is for. -/
theorem of_fill_custom (h : form.fill invoke frame source record ⟨pair, .custom c⟩ s = .ok w s') :
    ∃ v y s₁, s.heap.memberAs source form.source pair.source = .ok v ∧
      c.Takes frame.state s v y s₁ ∧ w = (s₁.heap.writeMember record pair.destination y).1 ∧
      s' = { s₁ with heap := (s₁.heap.writeMember record pair.destination y).2 } := by
  obtain ⟨y, s₁, htransfer, hwrite⟩ := EStateM.bind_eq_ok_iff.mp h
  obtain ⟨rfl, rfl⟩ := EStateM.Result.ok.inj hwrite
  obtain ⟨v, s₀, hread, hcall⟩ := EStateM.bind_eq_ok_iff.mp htransfer
  rw [RunM.readMember_eq] at hread
  cases hmember : s.heap.memberAs source form.source pair.source with
  | error stop =>
    rw [hmember] at hread
    cases hread
  | ok u =>
    rw [hmember] at hread
    cases hread
    refine ⟨v, y, s₁, rfl, ?_, rfl, rfl⟩
    split at hcall
    · rename_i hnull
      rw [Value.isNull_iff] at hnull
      subst hnull
      cases hcall
      exact .null
    · rename_i hnull
      exact .called (fun heq => hnull (Value.isNull_iff.mpr heq)) hcall

theorem fillAll_append (before after : List MemberTransfer) :
    form.fillAll invoke frame source record (before ++ after) =
      form.fillAll invoke frame source record before >>= fun record =>
        form.fillAll invoke frame source record after :=
  List.foldlM_append

theorem converts_of_run {before after : List MemberTransfer}
    (hmembers : form.members = before ++ ⟨pair, .custom c⟩ :: after)
    (h : form.run invoke frame s = .ok w s') (hw : w ≠ .null) :
    ∃ y, form.Converts c pair invoke frame s w s' y := by
  have hnull {v : Value} {t t' : Session} (hreturn : (return .null : RunM Value) t = .ok v t') :
      v = .null := by
    cases hreturn
    rfl
  unfold run at h
  split at h
  · exact absurd (hnull h) hw
  · obtain ⟨record, s₀, hdestination, h⟩ := EStateM.bind_eq_ok_iff.mp h
    unfold convert at h
    split at h
    · exact absurd (hnull h) hw
    · rename_i hrecord
      obtain ⟨record₂, s₃, hfill, hresult⟩ := EStateM.bind_eq_ok_iff.mp h
      rw [hmembers, fillAll_append] at hfill
      obtain ⟨record₁, s₁, hbefore, hfill⟩ := EStateM.bind_eq_ok_iff.mp hfill
      rw [fillAll_cons] at hfill
      obtain ⟨_, _, hcustom, hafter⟩ := EStateM.bind_eq_ok_iff.mp hfill
      obtain ⟨v, y, s₂, hread, htakes, rfl, rfl⟩ := of_fill_custom hcustom
      exact ⟨y, .intro hmembers hdestination (fun heq => hrecord (Value.isNull_iff.mpr heq)) hbefore
        hread htakes htakes.called_one hafter hresult⟩

/-- The record that is answered has the members of the one that was filled. -/
theorem member?_of_result (h : form.result record s = .ok w s') (i : Nat) :
    s'.heap.member? w i = s.heap.member? record i := by
  unfold result at h
  split at h
  · have hbox : RunM.onHeap (Heap.box record) s =
        .ok (s.heap.box record).1 { s with heap := (s.heap.box record).2 } := rfl
    obtain ⟨rfl, rfl⟩ := EStateM.Result.ok.inj (hbox.symm.trans h)
    exact Heap.member?_box record s.heap i
  · cases h
    rfl

end RecordForm

section

variable {mappings : Mapping → Prop} {pool : Pool} {mapping : Mapping} {S T : ShapeId}
  {sourceShape targetShape : Descriptor} {form : RecordForm} {c : Registered} {pair : MemberPair}

/-- The members of a form use the converters of its mapping. -/
theorem RecordForm.Made.uses (h : form.Made pool mapping S T sourceShape targetShape) :
    ∀ m ∈ form.members, m.Uses mapping := by
  intro m hm c hc
  obtain ⟨_, _, -, -, hmade⟩ := h.members m hm
  rw [hc] at hmade
  exact hmade.mem_converters

/-- A pair of members whose declared shapes have a converter is filled by it. -/
theorem RecordForm.Made.exists_custom (h : form.Made pool mapping S T sourceShape targetShape)
    {member member' : Member} (hpair : mapping.Pairs sourceShape targetShape pair member member')
    (hc : mapping.converters.find? (·.isFor member.shape member'.shape) = some c) :
    ∃ before after, form.members = before ++ ⟨pair, .custom c⟩ :: after := by
  have hexisting : pair ∈ mapping.rules.existing sourceShape targetShape := by
    refine List.mem_filter.mpr ⟨hpair.mem, decide_eq_true ⟨?_, ?_⟩⟩
    · exact (List.getElem?_eq_some_iff.mp hpair.source).1
    · exact (List.getElem?_eq_some_iff.mp hpair.destination).1
  rw [← h.pairs] at hexisting
  obtain ⟨m, hm, rfl⟩ := List.mem_map.mp hexisting
  obtain ⟨sourceMember, targetMember, hs, ht, hmade⟩ := h.members m hm
  cases hpair.source.symm.trans hs
  cases hpair.destination.symm.trans ht
  obtain ⟨before, after, hsplit⟩ := List.append_of_mem hm
  refine ⟨before, after, hsplit.trans ?_⟩
  rw [← hmade.eq_custom hc]

/-- No other pair writes the member, if no member is written twice. -/
theorem RecordForm.Made.destination_ne (h : form.Made pool mapping S T sourceShape targetShape)
    (hnodup : ((mapping.rules.pairs sourceShape targetShape).map MemberPair.destination).Nodup)
    {before after : List MemberTransfer} {m : MemberTransfer}
    (hmembers : form.members = before ++ m :: after) :
    (∀ m' ∈ before, m'.pair.destination ≠ m.pair.destination) ∧
      ∀ m' ∈ after, m'.pair.destination ≠ m.pair.destination := by
  have hexisting : ((form.members.map MemberTransfer.pair).map MemberPair.destination).Nodup := by
    rw [h.pairs]
    exact hnodup.sublist (List.filter_sublist.map _)
  rw [List.map_map, hmembers, List.map_append, List.map_cons, List.nodup_append] at hexisting
  obtain ⟨-, hafter, hbefore⟩ := hexisting
  refine ⟨fun m' hm' => ?_, fun m' hm' heq => ?_⟩
  · exact hbefore _ (List.mem_map_of_mem hm') _ List.mem_cons_self
  · exact (List.nodup_cons.mp hafter).1 (List.mem_map.mpr ⟨m', hm', heq⟩)

variable {r : Routine} {s s' : Session} {depth : Nat} {source destination state w y : Value}

/-- What is written for the pair is still there when the record is answered, if nothing else gets at
the record. -/
theorem RecordForm.Made.member?_of_converts
    (h : form.Made pool r.linkage.mapping S T sourceShape targetShape)
    (ht : pool.Below T T targetShape) (hkind : targetShape.kind = .record)
    (hnodup : ((r.linkage.mapping.rules.pairs sourceShape targetShape).map
      MemberPair.destination).Nodup)
    (hdestination : pair.destination < targetShape.members.length)
    (hserves : s.Serves mappings pool r)
    (hconverts : form.Converts c pair (Routine.run depth) ⟨source, destination, state, r.linkage⟩ s
      w s' y)
    (hshelters : s.Shelters mappings source destination state pair.destination) :
    s'.heap.member? w pair.destination = some y := by
  cases hconverts with
  | @intro before after record record₁ record₂ v s₀ s₁ s₂ s₃ hmembers hmade hrecord hbefore hread
      htakes _ hafter hresult =>
    have huses := h.uses
    rw [hmembers, List.forall_mem_append, List.forall_mem_cons] at huses
    obtain ⟨hbeforeUses, hcustom, hafterUses⟩ := huses
    obtain ⟨hbeforeNe, hafterNe⟩ := h.destination_ne hnodup hmembers
    obtain ⟨hstart, hthere⟩ :
        s₀.Apart mappings pool r [source.unboxed, state] record.unboxed ∧
          (s₀.heap.member? record.unboxed pair.destination).isSome = true := by
      cases hshelters with
      | new hnull hwhole =>
        exact h.apart_of_whole ht hkind hserves hwhole hnull hmade hrecord hdestination
      | supplied hne hmember hsecluded =>
        exact RecordForm.apart_of_supplied hserves hne hmade hmember hsecluded
    obtain ⟨hturn, hheld⟩ := (RecordForm.fillAll_apart rfl hbeforeUses hstart).of_run hbefore
    have hcall : (Transfer.custom c).run (Routine.run depth) ⟨source, destination, state, r.linkage⟩
        (RunM.readMember source.unboxed form.source pair.source)
        (RunM.readMember record₁ form.target pair.destination) s₁ = .ok y s₂ :=
      RecordForm.run_custom hread htakes _
    obtain ⟨hmeanwhile, hwithin, hunchanged⟩ :=
      (MemberTransfer.run_apart rfl hcustom hturn).of_run hcall
    have hslot : (s₂.heap.member? record₁ pair.destination).isSome = true := by
      rw [hunchanged, hheld pair.destination hbeforeNe]
      exact hthere
    obtain ⟨-, hkept⟩ := (RecordForm.fillAll_apart rfl hafterUses
      (hmeanwhile.writeMember hwithin pair.destination)).of_run hafter
    calc s'.heap.member? w pair.destination
        = s₃.heap.member? record₂ pair.destination := RecordForm.member?_of_result hresult _
      _ = _ := hkept pair.destination hafterNe
      _ = some y := Heap.member?_writeMember_self y s₂.heap record₁ hslot

end

/-! ## Elements -/

/-- Elements of the one declared shape are taken as they are into an array or a list that declares
the other. -/
def Mapping.TakesVerbatim (mapping : Mapping) (source target : ShapeId) : Prop :=
  mapping.copyMode = .shallow ∧ (source = target ∨ target = ShapeId.any)

/-- How the elements of the one declared shape become those of an array or a list that declares the
other, where the mapping of the routine has the converter for the two shapes. -/
inductive Routine.Maps (r : Routine) (c : Registered) (plan : CollectionPlan) (depth : Nat)
    (state : Value) (source target : ShapeId) (s : Session) (xs : List Value) :
    List Value → Session → Prop
  /-- The converter is passed over : the elements stay what they are, and nothing is called. -/
  | verbatim (h : r.linkage.mapping.TakesVerbatim source target) :
    Maps r c plan depth state source target s xs xs s
  /-- It is passed over as well where the elements are declared to be `any`. They go through the
  routines for the shapes that they have. -/
  | byShape {ys : List Value} {s' : Session} (h : ¬r.linkage.mapping.TakesVerbatim source target)
    (hany : source = ShapeId.any)
    (hroute : plan.route = .dynamic (if target = ShapeId.any then none else some target))
    (hs : r.Elements plan depth state (fun _ s => s) s xs ys s') :
    Maps r c plan depth state source target s xs ys s'
  /-- Each element is given to the converter once, and what that answers is stored, out of its box
  for a value type. -/
  | converted {ys : List Value} {s' : Session} (h : ¬r.linkage.mapping.TakesVerbatim source target)
    (hany : source ≠ ShapeId.any) (hs : c.TakesAll state (plan.Stores s.pool) s xs ys s')
    (hcalled : c.Called state xs s s') : Maps r c plan depth state source target s xs ys s'

section

variable {pool : Pool} {mapping : Mapping} {source target : ShapeId} {c : Registered}
  (hc : mapping.converters.find? (·.isFor source target) = some c)

include hc

/-- The routine for two shapes with a converter is nothing but the converter. -/
theorem Mapping.run_of_converter {body : Body} (h : mapping.body pool source target = .ok body)
    (invoke : Invoke) (frame : Frame) :
    body.run invoke frame =
      (Transfer.custom c).run invoke frame (return frame.source) (return frame.destination) := by
  rcases mapping.converterFor_cases source target with ⟨-, hnone⟩ | ⟨id, _, hid, -, -⟩
  · cases hc.symm.trans hnone
  · obtain ⟨plan, hplan, h⟩ := Except.bind_eq_ok_iff.mp h
    obtain ⟨⟨_, n⟩, hready, rfl⟩ := Except.map_eq_ok_iff.mp h
    have hprogram : mapping.converterProgram source target =
        some (.ofExpr (.convert (.custom id) (.argument .source))) := by
      rw [converterProgram, hid]
      rfl
    unfold Mapping.plan at hplan
    rw [hprogram] at hplan
    cases hplan
    obtain ⟨c', hfind, hrun⟩ := run_of_converterProgram hprogram hready
    obtain rfl := Option.some.inj (hfind.symm.trans hc)
    exact hrun invoke frame

end

section

variable {mappings : Mapping → Prop} {pool : Pool} {r : Routine} {s : Session}
  {plan : CollectionPlan} {mapper : CollectionMapper} {depth : Nat} {frame : Frame}
  {source target : ShapeId} {c : Registered}

/-- Elements that are taken as they are need no session. -/
theorem CollectionMapper.mapElements_verbatim {invoke : Invoke} (hpath : mapper.path = .verbatim)
    (xs : List Value) (s : Session) : mapper.mapElements invoke frame xs s = .ok xs s := by
  unfold mapElements
  induction xs with
  | nil => rfl
  | cons x xs ih =>
    have hone : mapper.mapElement invoke frame x s = .ok x s := by
      rw [mapElement_eq, transfer, hpath]
      rfl
    rw [List.mapM_cons]
    exact (bind_of_eq_ok hone).trans (bind_of_eq_ok ih)

variable (hunique : ∀ m m', mappings m → mappings m' → m.id = m'.id → m = m')
  (hc : r.linkage.mapping.converters.find? (·.isFor source target) = some c)

include hunique hc

/-- A routine that is found for the two shapes gives the value to the converter. -/
theorem Session.Serves.run_converter (h : s.Serves mappings pool r) {found : Routine}
    (hknows : s.Knows found) (hkey : found.key = ⟨source, target, r.key.mapping⟩) {v : Value}
    (hv : v ≠ .null) (destination state : Value) :
    found.run (depth + 1) v destination state = Session.callConverter c v state := by
  obtain ⟨owner, howned⟩ := h.coherent
  obtain ⟨-, -, hmapping, hmade⟩ := howned.madeIn h.knows
  obtain ⟨-, -, hmapping', hmade'⟩ := howned.madeIn hknows
  have hid := hmade'.mapping
  have hbody := hmade'.body
  rw [hkey] at hid hbody
  rw [hunique _ _ hmapping' hmapping (hid.symm.trans hmade.mapping)] at hbody
  rw [Routine.run_succ, Mapping.run_of_converter hc hbody]
  exact if_neg fun hnull => hv (Value.isNull_iff.mp hnull)

variable (hm : mapper.Realizes pool plan) (hroute : plan.route = .static source target)
  (hlinkage : frame.linkage = r.linkage)

include hm hroute hlinkage

/-- An element is taken as the contract says of the two element shapes, and stored as the plan says.
-/
theorem CollectionMapper.Realizes.mapElement_takes (h : s.Serves mappings pool r) (x : Value) :
    Ensures (mapper.mapElement (Routine.run depth) frame x) s
      (fun w s' => s'.Serves mappings pool r ∧ ∃ y s₁, s₁.heap = s.heap ∧ s₁.calls = s.calls ∧
        c.Takes frame.state s₁ x y s' ∧ plan.Stores pool y w)
      fun _ _ => True := by
  have hpath := hm.path
  rw [hroute] at hpath
  obtain ⟨id, hpath⟩ := hpath.exists_link
  unfold mapElement
  rw [hpath, hlinkage]
  split
  · rename_i hnull
    rw [Value.isNull_iff] at hnull
    subst hnull
    exact Ensures.pure ⟨h, .null, s, rfl, rfl, .null, fun _ => rfl, fun _ => rfl⟩
  · rename_i hnull
    have hv : x ≠ .null := fun heq => hnull (Value.isNull_iff.mpr heq)
    refine Ensures.bind ((h.locates_linked ⟨id, source, target⟩).mono ?_ fun _ _ _ => trivial)
    rintro found s₁ ⟨hl, hserves⟩
    obtain ⟨owner, howned⟩ := hserves.coherent
    cases depth with
    | zero => exact Ensures.throw trivial
    | succ depth =>
      have hrun : found.run (depth + 1) x .null frame.state = _ :=
        hserves.run_converter hunique hc hl.knows hl.key hv .null frame.state
      have hevolves := @Routine.run_evolving mappings (depth + 1) owner s₁ found howned
        hl.knows x .null frame.state
      refine Ensures.bind (((Ensures.outcome _ s₁).and hevolves).mono ?_ fun _ _ _ => trivial)
      rintro y s' ⟨hy, hevolves⟩
      rw [hrun] at hy
      exact Ensures.pure ⟨hevolves.serves hserves, y, s₁, hl.heap, hl.calls, .called hv hy,
        hm.stores y⟩

/-- The converter takes the elements one after the other. -/
theorem CollectionMapper.Realizes.mapElements_takes (h : s.Serves mappings pool r)
    (xs : List Value) :
    Ensures (mapper.mapElements (Routine.run depth) frame xs) s
      (fun ys s' => c.TakesAll frame.state (plan.Stores pool) s xs ys s') fun _ _ => True := by
  unfold mapElements
  induction xs generalizing s with
  | nil => exact Ensures.pure .nil
  | cons x xs ih =>
    rw [List.mapM_cons]
    refine Ensures.bind ((hm.mapElement_takes hunique hc hroute hlinkage h x).mono ?_
      fun _ _ _ => trivial)
    rintro w s₂ ⟨hserves, y, s₁, hheap, hcalls, htakes, hstores⟩
    refine Ensures.bind ((ih hserves).mono ?_ fun _ _ _ => trivial)
    exact fun ys s' hs => Ensures.pure (.cons hheap hcalls htakes hstores hs)

end

/-- Whichever way the elements of an array or a list go, it is the one the two declared shapes ask
for. -/
theorem CollectionMapper.Realizes.mapElements_maps {mappings : Mapping → Prop} {r : Routine}
    {s : Session} {plan : CollectionPlan} {mapper : CollectionMapper} {source target : ShapeId}
    {c : Registered} (hunique : ∀ m m', mappings m → mappings m' → m.id = m'.id → m = m')
    (hc : r.linkage.mapping.converters.find? (·.isFor source target) = some c)
    (hm : mapper.Realizes s.pool plan) (hbody : r.body = .collection mapper)
    (hkind : plan.kind = .array ∨ plan.kind = .typedList)
    {element? : Option ShapeId} (htarget : target = element?.getD ShapeId.any)
    (hroute : plan.route = elementRoute plan.kind r.linkage.mapping.copyMode source element?)
    (h : s.Serves mappings s.pool r) {depth : Nat} {frame : Frame}
    (hlinkage : frame.linkage = r.linkage) (xs : List Value) :
    Ensures (mapper.mapElements (Routine.run depth) frame xs) s
      (fun ys s' => r.Maps c plan depth frame.state source target s xs ys s') fun _ _ => True := by
  rw [elementRoute_of_whole hkind, ← htarget] at hroute
  by_cases hverbatim : r.linkage.mapping.copyMode = .shallow ∧
      (source = target ∨ target = ShapeId.any)
  · rw [if_pos hverbatim] at hroute
    have hpath := hm.path
    rw [hroute] at hpath
    exact Ensures.of_ok (CollectionMapper.mapElements_verbatim hpath.eq_verbatim xs s)
      (.verbatim hverbatim)
  · rw [if_neg hverbatim] at hroute
    by_cases hany : source = ShapeId.any
    · rw [if_pos hany] at hroute
      exact (hm.mapElements_does hbody hlinkage xs h).mono
        (fun ys s' hs => .byShape hverbatim hany hroute hs) fun _ _ _ => trivial
    · rw [if_neg hany] at hroute
      exact (hm.mapElements_takes hunique hc hroute hlinkage h xs).mono
        (fun ys s' hs => .converted hverbatim hany hs hs.called) fun _ _ _ => trivial

/-! ## Routines for records -/

/-- The routine fills records of the shape `below'` from values of the shape `below` : these lie
below its two shapes, and neither pair has a converter. -/
structure Routine.FillsRecords (r : Routine) (pool : Pool) (below below' : ShapeId)
    (sourceShape targetShape : Descriptor) : Prop where
  source : pool.Below r.key.source below sourceShape
  target : pool.Below r.key.target below' targetShape
  known : sourceShape.kind ≠ .any
  kind : targetShape.kind = .record
  declared : r.linkage.mapping.converterFor r.key.source r.key.target = none
  generated : r.linkage.mapping.converterFor below below' = none

namespace Routine

variable {r : Routine} {pool : Pool} {below below' : ShapeId} {sourceShape targetShape : Descriptor}

theorem FillsRecords.plan_eq (h : r.FillsRecords pool below below' sourceShape targetShape) :
    r.linkage.mapping.plan pool r.key.source r.key.target = .program <$>
      Mapping.recordProgram pool r.linkage.mapping below sourceShape below' targetShape := by
  have hgenerated : r.linkage.mapping.generatedPlan pool below below' = .program <$>
      Mapping.recordProgram pool r.linkage.mapping below sourceShape below' targetShape := by
    rw [map_eq_pure_bind]
    unfold Mapping.generatedPlan
    cases hsource : sourceShape.kind with
    | any => exact absurd hsource h.known
    | _ =>
      simp only [h.source.descriptor, h.target.descriptor, Pool.orCompileError, bind, Except.bind,
        Descriptor.isCollection, hsource, h.kind]
      rfl
  unfold Mapping.plan Mapping.converterProgram
  simp only [h.declared, h.generated, Option.map_none, h.source.strip, h.target.strip,
    Pool.orCompileError, bind, Except.bind]
  exact hgenerated

theorem FillsRecords.exists_form (h : r.FillsRecords pool below below' sourceShape targetShape)
    (hmade : r.MadeIn pool) (hpool : Pool.initial.GrowsTo pool) :
    ∃ form : RecordForm, form.Made pool r.linkage.mapping below below' sourceShape targetShape ∧
      ∀ invoke frame, r.body.run invoke frame = form.run invoke frame := by
  obtain ⟨_, hplan, hbody⟩ := Except.bind_eq_ok_iff.mp hmade.body
  obtain ⟨⟨body, n⟩, hready, hbody⟩ := Except.map_eq_ok_iff.mp hbody
  obtain rfl : body = r.body := hbody
  rw [h.plan_eq] at hplan
  obtain ⟨program, hprogram, rfl⟩ := Except.map_eq_ok_iff.mp hplan
  obtain ⟨form, hrun, hform⟩ := Mapping.exists_recordForm_of_program hpool hprogram hready
  exact ⟨form, hform, hrun⟩

end Routine

/-! ## Runs -/

section

variable {mappings : Mapping → Prop} {r : Routine} {s s' : Session} {depth : Nat}
  {source destination state w : Value} {c : Registered}
  (hserves : s.Serves mappings s.pool r)
  (hrun : r.run (depth + 1) source destination state s = .ok w s') (hw : w ≠ .null)

include hserves hrun hw

/-- The turn of the pair comes in every run that answers a record. -/
theorem Session.Serves.converts_member {below below' : ShapeId}
    {sourceShape targetShape : Descriptor} {pair : MemberPair} {member member' : Member}
    (hrecords : r.FillsRecords s.pool below below' sourceShape targetShape)
    (hnodup : ((r.linkage.mapping.rules.pairs sourceShape targetShape).map
      MemberPair.destination).Nodup)
    (hpair : r.linkage.mapping.Pairs sourceShape targetShape pair member member')
    (hc : r.linkage.mapping.converters.find? (·.isFor member.shape member'.shape) = some c) :
    ∃ form : RecordForm,
      form.Made s.pool r.linkage.mapping below below' sourceShape targetShape ∧
      (∀ invoke frame, r.body.run invoke frame = form.run invoke frame) ∧
      ∃ y, form.Converts c pair (Routine.run depth) ⟨source, destination, state, r.linkage⟩ s w s'
          y ∧
        (s.Shelters mappings source destination state pair.destination →
          s'.heap.member? w pair.destination = some y) := by
  obtain ⟨owner, howned⟩ := hserves.coherent
  obtain ⟨-, -, -, hmade⟩ := howned.madeIn hserves.knows
  obtain ⟨form, hform, hbody⟩ := hrecords.exists_form hmade howned.pool
  rw [Routine.run_succ, hbody] at hrun
  obtain ⟨before, after, hmembers⟩ := hform.exists_custom hpair hc
  obtain ⟨y, hconverts⟩ := RecordForm.converts_of_run hmembers hrun hw
  refine ⟨form, hform, hbody, y, hconverts, ?_⟩
  exact hform.member?_of_converts hrecords.target.self hrecords.kind hnodup
    (List.getElem?_eq_some_iff.mp hpair.destination).1 hserves hconverts

/-- A run that answers an array or a list has gone through all elements. -/
theorem Session.Serves.maps_elements {declared declared' : ShapeId} {plan : CollectionPlan}
    (hunique : ∀ m m', mappings m → mappings m' → m.id = m'.id → m = m')
    (hc : r.linkage.mapping.converters.find? (·.isFor declared declared') = some c)
    (hplan : r.linkage.mapping.plan s.pool r.key.source r.key.target = .ok (.collection plan))
    (hkind : plan.kind = .array ∨ plan.kind = .typedList)
    (hshapes : plan.ElementShapes s.pool r.key.source declared declared') :
    ∃ ys s₁, r.Maps c plan depth state declared declared' s
        ((s.heap.elements? source).getD [source]) ys s₁ ∧
      w = .ref ⟨s₁.heap.size⟩ ∧ s' = s₁.withSequence plan.target ys := by
  obtain ⟨owner, howned⟩ := hserves.coherent
  obtain ⟨-, -, -, hmade⟩ := howned.madeIn hserves.knows
  obtain ⟨mapper, hbody, hm, -⟩ := hmade.exists_mapper hplan
  obtain ⟨element?, htarget, hroute⟩ := Mapping.route_of_plan hplan hshapes
  have hwhole : mapper.kind ≠ .genericInsertable := by
    rw [hm.kind]
    rcases hkind with hk | hk <;> rw [hk] <;> exact nofun
  rw [Routine.run_succ, hbody, Body.run] at hrun
  have hsource : source ≠ .null := by
    rintro rfl
    cases hrun
    exact hw rfl
  rw [CollectionMapper.run_of_whole hwhole hsource] at hrun
  obtain ⟨ys, s₁, hmap, halloc⟩ := EStateM.bind_eq_ok_iff.mp hrun
  obtain ⟨rfl, rfl⟩ := EStateM.Result.ok.inj halloc
  have hmaps :=
    (hm.mapElements_maps hunique hc hbody hkind htarget hroute hserves rfl _).of_run hmap
  refine ⟨ys, s₁, hmaps, rfl, ?_⟩
  rw [← hm.target]
  rfl

end

/-- A run that answers something gives to the converter for two shapes what it takes from places of
the one shape into places of the other. A routine for records calls the converter once for each pair
of members that declare the two shapes, unless the source member is null, and the member of the
record that is answered holds what the converter made of it, if nothing else gets at that record. A
routine for arrays or lists whose elements declare the two shapes calls it once for each element
that is not null, and what the converter makes of them is stored, but not if the mapping is shallow
and the two shapes are one or the second is `any`, nor if the first is `any` : then elements stay
what they are, or go by the shapes that they have. -/
theorem Session.Reachable.converter_called {mappings : Mapping → Prop} {s : Session}
    (hs : s.Reachable mappings)
    (hunique : ∀ m m', mappings m → mappings m' → m.id = m'.id → m = m') {r : Routine}
    (hr : s.Knows r) {declared declared' : ShapeId} {c : Registered}
    (hc : r.linkage.mapping.converters.find? (·.isFor declared declared') = some c) {depth : Nat}
    {source destination state w : Value} {s' : Session}
    (hrun : r.run (depth + 1) source destination state s = .ok w s') (hw : w ≠ .null) :
    (∀ below below' sourceShape targetShape pair member member',
      r.FillsRecords s.pool below below' sourceShape targetShape →
      ((r.linkage.mapping.rules.pairs sourceShape targetShape).map MemberPair.destination).Nodup →
      r.linkage.mapping.Pairs sourceShape targetShape pair member member' →
      member.shape = declared → member'.shape = declared' →
      ∃ form : RecordForm,
        form.Made s.pool r.linkage.mapping below below' sourceShape targetShape ∧
        (∀ invoke frame, r.body.run invoke frame = form.run invoke frame) ∧
        ∃ y, form.Converts c pair (Routine.run depth) ⟨source, destination, state, r.linkage⟩ s w s'
            y ∧
          (s.Shelters mappings source destination state pair.destination →
            s'.heap.member? w pair.destination = some y)) ∧
    ∀ plan, r.linkage.mapping.plan s.pool r.key.source r.key.target = .ok (.collection plan) →
      plan.kind = .array ∨ plan.kind = .typedList →
      plan.ElementShapes s.pool r.key.source declared declared' →
      ∃ ys s₁, r.Maps c plan depth state declared declared' s
          ((s.heap.elements? source).getD [source]) ys s₁ ∧
        w = .ref ⟨s₁.heap.size⟩ ∧ s' = s₁.withSequence plan.target ys := by
  have hserves : s.Serves mappings s.pool r := ⟨hs.coherent, rfl, hr⟩
  constructor
  · intro below below' sourceShape targetShape pair member member' hrecords hnodup hpair hmember
      hmember'
    subst hmember hmember'
    exact hserves.converts_member hrun hw hrecords hnodup hpair hc
  · intro plan hplan hkind hshapes
    exact hserves.maps_elements hrun hw hunique hc hplan hkind hshapes

/-! ## A point and a list, with a converter for integers -/

namespace Raising

def point : Descriptor :=
  .ofRecord "Point" [⟨"x", ShapeId.int, {}⟩]

def operations : List Pool.Operation :=
  [.register point, .listOf ShapeId.int]

/-- A point, and a list of its coordinate. -/
def heap : Heap where
  instances := #[.object ⟨7⟩ #[.int 1], .seq ⟨8⟩ #[.int 1]]

/-- It adds the value of the caller. -/
def converter : Registered :=
  ⟨ShapeId.int, ShapeId.int, SimpleConverter.add.toConverter⟩

def mapping : Mapping where
  id := ⟨"shallow"⟩
  copyMode := .shallow
  converters := [converter]

/-- The routines that copy points and lists have been compiled. -/
def session : Session :=
  After (Session.getOrCompile ⟨0⟩ ⟨8⟩ ⟨8⟩ mapping) (.compiling operations heap mapping ⟨7⟩ ⟨7⟩)

def routine (shape : ShapeId) : Routine :=
  (session.cached? ⟨0⟩ ⟨shape, shape, mapping.id⟩).getD default

def plan : CollectionPlan where
  kind := .typedList
  target := ⟨8⟩
  route := .verbatim
  inlineElements := true
  construct := none

theorem reachable : session.Reachable (· = mapping) :=
  (Session.reachable_compiling operations heap mapping ⟨7⟩ ⟨7⟩).getOrCompile rfl rfl ⟨8⟩ ⟨8⟩

theorem knows {shape : ShapeId}
    (h : (session.cached? ⟨0⟩ ⟨shape, shape, mapping.id⟩).isSome = true) :
    session.Knows (routine shape) :=
  (Session.knows_of_cached? h).1

theorem fillsRecords : (routine ⟨7⟩).FillsRecords session.pool ⟨7⟩ ⟨7⟩ point point :=
  ⟨⟨rfl, rfl⟩, ⟨rfl, rfl⟩, nofun, rfl, rfl, rfl⟩

theorem pairs : (routine ⟨7⟩).linkage.mapping.Pairs point point ⟨0, 0⟩ ⟨"x", ShapeId.int, {}⟩
    ⟨"x", ShapeId.int, {}⟩ :=
  ⟨by decide, rfl, rfl⟩

theorem elementShapes :
    plan.ElementShapes session.pool (routine ⟨8⟩).key.source ShapeId.int ShapeId.int :=
  ⟨⟨8⟩, .ofCollection "List<int>" .list (some ShapeId.int),
    .ofCollection "List<int>" .list (some ShapeId.int), ⟨rfl, rfl⟩, rfl, rfl, rfl⟩

theorem whole : session.Whole (· = mapping) [.ref ⟨0⟩, .int 5] := by
  have hint (n : Int64) (p : Address → Prop) : (Value.int n).Within p := by
    have hprimitive : Value.IsPrimitive .int (.int n) := trivial
    exact hprimitive.within
  refine ⟨fun a i hi w hw => ?_, fun v hv => ?_, fun p _ m hm => ?_⟩
  · have hmem : i = .object ⟨7⟩ #[.int 1] ∨ i = .seq ⟨8⟩ #[.int 1] := by
      have hmem : i ∈ heap.instances := Array.mem_of_getElem? hi
      simpa [heap] using hmem
    obtain rfl : w = .int 1 := by
      rcases hmem with rfl | rfl <;> exact List.mem_singleton.mp hw
    exact hint 1 _
  · rcases List.mem_cons.mp hv with rfl | hv
    · exact Value.Within.ref.mpr Nat.two_pos
    · exact List.mem_singleton.mp hv ▸ hint 5 _
  · subst hm
    intro c hc heap v state _ hheap _ _
    obtain rfl := List.mem_singleton.mp hc
    refine ⟨hheap, fun w hw => ?_⟩
    cases hw
    exact hint _ _

end Raising

/-- The coordinate of the point is given to the converter, but what the list holds is not. -/
theorem Session.Reachable.converter_called_raising : ∃ form y s₁ s₂,
    (Raising.routine ⟨7⟩).run 1 (.ref ⟨0⟩) .null (.int 5) Raising.session = .ok (.ref ⟨2⟩) s₁ ∧
      RecordForm.Converts form Raising.converter ⟨0, 0⟩ (Routine.run 0)
        ⟨.ref ⟨0⟩, .null, .int 5, (Raising.routine ⟨7⟩).linkage⟩ Raising.session (.ref ⟨2⟩) s₁ y ∧
      y = .int 6 ∧ s₁.heap.member? (.ref ⟨2⟩) 0 = some y ∧
      (Raising.routine ⟨8⟩).run 1 (.ref ⟨1⟩) .null (.int 5) Raising.session = .ok (.ref ⟨2⟩) s₂ ∧
      s₂ = Raising.session.withSequence ⟨8⟩ [.int 1] := by
  have hunique (m m' : Mapping) (hm : m = Raising.mapping) (hm' : m' = Raising.mapping)
      (_ : m.id = m'.id) : m = m' := hm.trans hm'.symm
  obtain ⟨s₁, hpoint, hsix⟩ : ∃ s₁, (Raising.routine ⟨7⟩).run 1 (.ref ⟨0⟩) .null (.int 5)
      Raising.session = .ok (.ref ⟨2⟩) s₁ ∧ s₁.heap.member? (.ref ⟨2⟩) 0 = some (.int 6) :=
    ⟨_, rfl, rfl⟩
  obtain ⟨s₂, hlist⟩ : ∃ s₂, (Raising.routine ⟨8⟩).run 1 (.ref ⟨1⟩) .null (.int 5)
      Raising.session = .ok (.ref ⟨2⟩) s₂ := ⟨_, rfl⟩
  obtain ⟨form, -, -, y, hconverts, hslot⟩ := (Session.Reachable.converter_called Raising.reachable
    hunique (Raising.knows rfl) rfl hpoint nofun).1 _ _ _ _ _ _ _ Raising.fillsRecords (by decide)
      Raising.pairs rfl rfl
  have hy := hslot (.new rfl Raising.whole)
  obtain ⟨ys, s, hmaps, -, rfl⟩ := (Session.Reachable.converter_called Raising.reachable hunique
    (Raising.knows rfl) rfl hlist nofun).2 Raising.plan rfl (.inr rfl) Raising.elementShapes
  refine ⟨form, y, s₁, _, hpoint, hconverts, Option.some.inj (hy.symm.trans hsix), hy, hlist, ?_⟩
  have hverbatim : (Raising.routine ⟨8⟩).linkage.mapping.TakesVerbatim ShapeId.int ShapeId.int :=
    ⟨rfl, .inl rfl⟩
  cases hmaps with
  | verbatim _ => rfl
  | byShape h | converted h => exact absurd hverbatim h

end Reshape
