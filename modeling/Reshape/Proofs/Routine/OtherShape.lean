import Reshape.Proofs.Routine.Handing
import Reshape.Proofs.Routine.Settling
import Reshape.Proofs.Routine.Unmatched

/-!
# Objects of another shape

A routine for records takes the object that it is supplied with for one of its target, and writes
members by their numbers whatever shape the object has. Its shape counts only where a value is
converted into what a member holds : such a pair refuses the object, but what the pairs before it
have written stays (`RecordForm.Made.fill_misfit`). If there is no such pair, the object is
answered, and keeps its shape (`Session.Reachable.overwrites_misfit`). A member may hold such an
object too, and is supplied to a routine of its own.
-/

set_option linter.unusedSectionVars false

namespace Reshape

/-! ## Transfers into what is there -/

section

variable {t : Transfer} {invoke : Invoke} {frame : Frame} {s : Session} {v : Value}
  {current : RunM Value}

/-- What is there makes no difference unless the value is converted into it. -/
theorem Transfer.run_of_not_sends (h : ∀ S T, ¬t.Sends s.heap v S T true) :
    t.run invoke frame (return v) current s = t.run invoke frame (return v) (return .null) s := by
  cases t with
  | same | convert _ | custom _ => rfl
  | linked link reuse inline =>
    cases reuse with
    | false => rfl
    | true =>
      have hnull : v.isNull = true :=
        Bool.of_not_eq_false fun hnull => h _ _ (.linked link true inline hnull)
      simp only [run, byLink, pure_bind, if_pos hnull]
  | dynamic target reuse inline =>
    cases reuse with
    | false => rfl
    | true =>
      have hshape : s.heap.shape? v = none :=
        Option.eq_none_iff_forall_ne_some.mpr fun own hown =>
          h _ _ (.dynamic target true inline hown)
      simp only [run, byShape, map_eq_pure_bind, bind_assoc, pure_bind]
      rw [get_bind, get_bind, hshape]

/-- A value that is converted into what is there goes by it first. -/
theorem Transfer.run_of_sends {S T : ShapeId} {stop : Stop} (h : t.Sends s.heap v S T true)
    (hcurrent : current s = .error stop s) :
    t.run invoke frame (return v) current s = .error stop s := by
  cases h with
  | linked link _ inline hnull =>
    simp only [run, map_eq_pure_bind]
    refine bind_of_eq_error ?_
    simp only [byLink, pure_bind, hnull, Bool.false_eq_true, if_false]
    exact bind_of_eq_error hcurrent
  | dynamic target _ inline hown =>
    simp only [run, map_eq_pure_bind]
    refine bind_of_eq_error ?_
    simp only [byShape, pure_bind]
    rw [get_bind, hown]
    exact bind_of_eq_error hcurrent

end

/-! ## What is written -/

section

variable (form : RecordForm) (invoke : Invoke) (frame : Frame) (d : Address)

/-- From a session to the last, the pairs of the members are converted one after the other and the
results written to the object, by their numbers. None is converted into what the object held. -/
inductive RecordForm.Overwrites : Session → List MemberTransfer → Session → Prop
  | nil {s : Session} : Overwrites s [] s
  | cons {s s₁ s' : Session} {m : MemberTransfer} {ms : List MemberTransfer} {v w : Value}
    (hread : s.heap.memberAs frame.source.unboxed form.source m.pair.source = .ok v)
    (hsends : ∀ S T, ¬m.transfer.Sends s.heap v S T true)
    (hrun : m.transfer.run invoke frame (return v) (return .null) s = .ok w s₁)
    (hs : Overwrites { s₁ with heap := s₁.heap.replace d m.pair.destination w } ms s') :
    Overwrites s (m :: ms) s'

/-- In the session, the pair ends the run with this error, and leaves another session behind. The
object is of the shape `found`. -/
inductive RecordForm.Stops (found : ShapeId) (m : MemberTransfer) (s : Session) :
    Stop → Session → Prop
  /-- The member of the source cannot be read. -/
  | unread {stop : Stop}
    (hread : s.heap.memberAs frame.source.unboxed form.source m.pair.source = .error stop) :
    Stops found m s stop s
  /-- The value would be converted into what the object holds. -/
  | refused {v : Value} {S T : ShapeId}
    (hread : s.heap.memberAs frame.source.unboxed form.source m.pair.source = .ok v)
    (hsends : m.transfer.Sends s.heap v S T true) :
    Stops found m s (.failed (.shapeMismatch form.target found)) s
  | failed {v : Value} {stop : Stop} {s' : Session}
    (hread : s.heap.memberAs frame.source.unboxed form.source m.pair.source = .ok v)
    (hsends : ∀ S T, ¬m.transfer.Sends s.heap v S T true)
    (hrun : m.transfer.run invoke frame (return v) (return .null) s = .error stop s') :
    Stops found m s stop s'

end

/-! ## Objects that do not fit -/

/-- The address is that of an object of the shape, in the course of runs of the routine. -/
structure Session.Presents (mappings : Mapping → Prop) (pool : Pool) (r : Routine) (d : Address)
    (found : ShapeId) (s : Session) : Prop where
  held : Contract.growing.Held pool mappings s
  knows : s.Knows r
  object : ∃ fields, s.heap.get? d = some (.object found fields)

section

variable {mappings : Mapping → Prop} {pool : Pool} {r : Routine} {d : Address} {found : ShapeId}
  {s s' : Session}

namespace Session.Presents

theorem shape?_eq (h : s.Presents mappings pool r d found) :
    s.heap.shape? (.ref d) = some found := by
  obtain ⟨fields, hget⟩ := h.object
  rw [Heap.shape?, hget]
  rfl

theorem later (h : s.Presents mappings pool r d found)
    (hl : Contract.growing.Leads pool mappings s s') : s'.Presents mappings pool r d found := by
  obtain ⟨fields, hget⟩ := h.object
  obtain ⟨f, hf⟩ := hl.later d _ hget
  exact ⟨hl.held, hl.knows r h.knows, f fields, hf⟩

theorem replace (h : s.Presents mappings pool r d found) (i : Nat) (w : Value) :
    ({ s with heap := s.heap.replace d i w } : Session).Presents mappings pool r d found := by
  obtain ⟨fields, hget⟩ := h.object
  refine ⟨h.held.withHeap trivial, h.knows, fields.setIfInBounds i w, ?_⟩
  rw [Heap.get?_replace, if_pos rfl, hget]
  rfl

end Session.Presents

variable {mapping : Mapping} {S T : ShapeId} {sourceShape targetShape : Descriptor}
  {form : RecordForm} {depth : Nat} {frame : Frame}
  (hpool : Pool.initial.GrowsTo pool) (hfound : found ≠ T)
  (hform : form.Made pool mapping S T sourceShape targetShape)
  (hm : Contract.growing.allows mapping)
  (hw : Contract.growing.Within pool mappings (Routine.run depth) frame r)

include hpool hfound hform hm hw

/-- A pair writes its result to the object, unless it refuses it for its shape or fails. -/
theorem RecordForm.Made.fill_misfit {m : MemberTransfer} (hmember : m ∈ form.members)
    (h : s.Presents mappings pool r d found) :
    Ensures (form.fill (Routine.run depth) frame frame.source.unboxed (.ref d) m) s
      (fun w s' => w = .ref d ∧ s'.Presents mappings pool r d found ∧
        ∀ ms s'', form.Overwrites (Routine.run depth) frame d s' ms s'' →
          form.Overwrites (Routine.run depth) frame d s (m :: ms) s'')
      fun stop s' => s'.Presents mappings pool r d found ∧
        form.Stops (Routine.run depth) frame found m s stop s' := by
  have hc := Contract.growing_soundWith hpool frame.state
  have hcurrent : RunM.readMember (.ref d) form.target m.pair.destination s =
      .error (.failed (.shapeMismatch form.target found)) s := by
    rw [RunM.readMember_eq, Heap.memberAs, h.shape?_eq]
    dsimp only
    rw [if_neg (hform.target_eq ▸ hfound)]
    rfl
  unfold RecordForm.fill
  refine Ensures.bind (.of_eq (Transfer.run_eq_of_value (RunM.readMember_eq ..) ..) ?_)
  cases hv : s.heap.memberAs frame.source.unboxed form.source m.pair.source with
  | error stop =>
    change Ensures (m.transfer.run _ frame (throw stop) _) s _ _
    rw [Transfer.run_throw]
    exact Ensures.throw ⟨h, .unread hv⟩
  | ok v =>
    change Ensures (m.transfer.run _ frame (return v) _) s _ _
    by_cases hsends : ∃ S T, m.transfer.Sends s.heap v S T true
    · obtain ⟨S', T', hsends⟩ := hsends
      unfold Ensures
      rw [Transfer.run_of_sends hsends hcurrent]
      exact ⟨h, .refused hv hsends⟩
    · have hsends : ∀ S T, ¬m.transfer.Sends s.heap v S T true :=
        fun S T hs => hsends ⟨S, T, hs⟩
      -- The object is not looked at, so that no more is asked of it than that it stays one.
      obtain ⟨_, _, -, -, hmade⟩ := hform.members m hmember
      have hgives : Contract.growing.Gives pool mappings s
          (m.transfer.run (Routine.run depth) frame (return v) (return .null)) _ :=
        Contract.made_gives hc hw h.knows hm hmade (.pure hc.values h.held trivial)
          fun s₁ hl => .pure hc.values hl.held trivial
      refine .of_eq (Transfer.run_of_not_sends hsends) ?_
      refine (Ensures.and hgives (Ensures.outcome _ s)).mono ?_ ?_
      · rintro w s₁ ⟨⟨hl, -⟩, hrun⟩
        have h₁ := h.later hl
        obtain ⟨fields, hget⟩ := h₁.object
        exact Ensures.of_ok (RunM.writeMember_object hget _ w)
          ⟨rfl, h₁.replace _ _, fun ms s'' hs => .cons hv hsends hrun hs⟩
      · rintro stop s' ⟨hl, hrun⟩
        exact ⟨h.later hl, .failed hv hsends hrun⟩

/-- The pairs are written one after the other, up to one that refuses the object or fails. -/
theorem RecordForm.Made.fillAll_misfit {members : List MemberTransfer}
    (hmembers : members ⊆ form.members) (h : s.Presents mappings pool r d found) :
    Ensures (form.fillAll (Routine.run depth) frame frame.source.unboxed (.ref d) members) s
      (fun w s' => w = .ref d ∧ s'.Presents mappings pool r d found ∧
        form.Overwrites (Routine.run depth) frame d s members s')
      fun stop s' => s'.Presents mappings pool r d found ∧
        ∃ before m after s₁, members = before ++ m :: after ∧
          form.Overwrites (Routine.run depth) frame d s before s₁ ∧
          form.Stops (Routine.run depth) frame found m s₁ stop s' := by
  induction members generalizing s with
  | nil => exact Ensures.pure ⟨rfl, h, .nil⟩
  | cons m members ih =>
    rw [RecordForm.fillAll_cons]
    refine Ensures.bind ((hform.fill_misfit hpool hfound hm hw (hmembers List.mem_cons_self) h).mono
      ?_ ?_)
    · rintro - s₁ ⟨rfl, h₁, hwritten⟩
      refine (ih (fun _ h => hmembers (List.mem_cons_of_mem _ h)) h₁).mono ?_ ?_
      · exact fun w s' hs' => ⟨hs'.1, hs'.2.1, hwritten _ _ hs'.2.2⟩
      · rintro stop s' ⟨h', before, m', after, s₂, rfl, hbefore, hstops⟩
        exact ⟨h', m :: before, m', after, s₂, rfl, hwritten _ _ hbefore, hstops⟩
    · rintro stop s' ⟨h', hstops⟩
      exact ⟨h', [], m, members, s, rfl, .nil, hstops⟩

end

/-! ## Runs -/

/-- A routine for records that is supplied with an object of another shape writes the results of its
pairs to it, by their numbers, and answers it. The object keeps its shape. It is refused only by a
pair that would convert a value into what it holds, after the pairs before it have been written. -/
theorem Session.Reachable.overwrites_misfit {mappings : Mapping → Prop} {s : Session}
    (hs : s.Reachable mappings) {r : Routine} (hr : s.Knows r)
    (hgrows : ∀ m, mappings m → m.id = r.key.mapping → ∀ c ∈ m.converters, c.converter.Grows)
    {below below' : ShapeId} {sourceShape targetShape : Descriptor}
    (hrecords : r.FillsRecords s.pool below below' sourceShape targetShape) {source : Value}
    (hsource : source ≠ .null) {d : Address} {found : ShapeId} {fields : Array Value}
    (hd : s.heap.get? d = some (.object found fields)) (hfound : found ≠ below') (depth : Nat)
    (state : Value) :
    ∃ form : RecordForm,
      form.Made s.pool r.linkage.mapping below below' sourceShape targetShape ∧
      (∀ invoke frame, r.body.run invoke frame = form.run invoke frame) ∧
      Ensures (r.run (depth + 1) source (.ref d) state) s
        (fun w s' => w = .ref d ∧ s'.heap.shape? w = some found ∧
          form.Overwrites (Routine.run depth) ⟨source, .ref d, state, r.linkage⟩ d s form.members s')
        fun stop s' => s'.heap.shape? (.ref d) = some found ∧
          ∃ before m after s₁, form.members = before ++ m :: after ∧
            form.Overwrites (Routine.run depth) ⟨source, .ref d, state, r.linkage⟩ d s before s₁ ∧
            form.Stops (Routine.run depth) ⟨source, .ref d, state, r.linkage⟩ found m s₁ stop
              s' := by
  obtain ⟨owner, howned⟩ := hs.coherent
  obtain ⟨-, -, hmapping, hmade⟩ := howned.madeIn hr
  obtain ⟨form, hform, hbody⟩ := hrecords.exists_form hmade howned.pool
  refine ⟨form, hform, hbody, ?_⟩
  let frame : Frame := ⟨source, .ref d, state, r.linkage⟩
  have hc := Contract.growing_soundWith howned.pool state
  have hwithin : Contract.growing.Within s.pool mappings (Routine.run depth) frame r :=
    ⟨rfl, fun h hr' hkey => hc.run_meets hgrows depth h hr' hkey⟩
  have hpresents : s.Presents mappings s.pool r d found :=
    ⟨⟨⟨owner, howned⟩, rfl, trivial⟩, hr, fields, hd⟩
  have hfill := hform.fillAll_misfit howned.pool hfound
    (hgrows _ hmapping hmade.mapping.symm) hwithin (fun _ h => h) hpresents
  rw [Routine.run_succ, hbody, RecordForm.run_into hsource rfl]
  refine Ensures.bind (hfill.mono ?_ fun stop s' hstop => ⟨hstop.1.shape?_eq, hstop.2⟩)
  rintro w s' ⟨rfl, hpresents', hoverwrites⟩
  exact Ensures.of_ok (RecordForm.result_ref s') ⟨rfl, hpresents'.shape?_eq, hoverwrites⟩

/-! ## A label that is taken for a total -/

namespace Misfit

def count : Descriptor :=
  .ofRecord "Count" [⟨"value", ShapeId.int, {}⟩]

def total : Descriptor :=
  .ofRecord "Total" [⟨"value", ShapeId.int, {}⟩]

def label : Descriptor :=
  .ofRecord "Label" [⟨"number", ShapeId.int, {}⟩, ⟨"text", ShapeId.str, {}⟩]

def operations : List Pool.Operation :=
  [.register count, .register total, .register label]

/-- A count and a label. -/
def heap : Heap where
  instances := #[.object ⟨7⟩ #[.int 1], .object ⟨9⟩ #[.int 5, .str ⟨0⟩ "text"]]
  tokens := 1

def session : Session :=
  .compiling operations heap Mapping.initial ⟨7⟩ ⟨8⟩

def routine : Routine :=
  Session.compiled operations heap Mapping.initial ⟨7⟩ ⟨8⟩

theorem reachable : session.Reachable (· = Mapping.initial) :=
  Session.reachable_compiling operations heap Mapping.initial ⟨7⟩ ⟨8⟩

theorem knows : session.Knows routine :=
  (@Session.knows_of_cached? session ⟨0⟩ ⟨⟨7⟩, ⟨8⟩, Mapping.initial.id⟩ rfl).1

theorem fillsRecords : routine.FillsRecords session.pool ⟨7⟩ ⟨8⟩ count total :=
  ⟨⟨rfl, rfl⟩, ⟨rfl, rfl⟩, nofun, rfl, rfl, rfl⟩

end Misfit

/-- The routine from counts to totals writes the value to the number of the label, and answers the
label. -/
theorem Session.Reachable.overwrites_misfit_label : ∃ form s',
    Misfit.routine.run 1 (.ref ⟨0⟩) (.ref ⟨1⟩) .null Misfit.session = .ok (.ref ⟨1⟩) s' ∧
      RecordForm.Overwrites form (Routine.run 0) ⟨.ref ⟨0⟩, .ref ⟨1⟩, .null, Misfit.routine.linkage⟩
        ⟨1⟩ Misfit.session form.members s' ∧
      s'.heap.shape? (.ref ⟨1⟩) = some ⟨9⟩ ∧ Misfit.routine.key.target = ⟨8⟩ ∧
      s'.heap.get? ⟨1⟩ = some (.object ⟨9⟩ #[.int 1, .str ⟨0⟩ "text"]) := by
  have hsource : Value.ref ⟨0⟩ ≠ .null := nofun
  have hlabel : Misfit.session.heap.get? ⟨1⟩ =
      some (.object ⟨9⟩ #[.int 5, .str ⟨0⟩ "text"]) := rfl
  obtain ⟨form, -, -, hends⟩ := Session.Reachable.overwrites_misfit Misfit.reachable Misfit.knows
    (fun m hm _ c hc => by subst hm; cases hc) Misfit.fillsRecords hsource hlabel (by decide) 0
    .null
  obtain ⟨s', hok, hget⟩ : ∃ s', Misfit.routine.run 1 (.ref ⟨0⟩) (.ref ⟨1⟩) .null Misfit.session =
      .ok (.ref ⟨1⟩) s' ∧
        s'.heap.get? ⟨1⟩ = some (.object ⟨9⟩ #[.int 1, .str ⟨0⟩ "text"]) := ⟨_, rfl, rfl⟩
  obtain ⟨-, hshape, hoverwrites⟩ := hends.of_run hok
  exact ⟨form, s', hok, hoverwrites, hshape, rfl, hget⟩

end Reshape
