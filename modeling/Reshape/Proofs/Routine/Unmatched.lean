import Reshape.Proofs.Routine.Converted
import Reshape.Proofs.Routine.Enclosed

/-!
# Members that nothing is matched with

A routine for records fills an object that it is supplied with where it is, one member after the
other. Without converters, and if nothing that the routine is given leads to the object, to fill one
member changes that field alone (`RecordForm.Made.fill_rewrites`). So fields that no pair of the
rules is for hold what they held before, and if a pair fails, so do all fields but those of the
pairs before it (`Session.Reachable.rewrites_matched`).
-/

set_option linter.unusedSectionVars false

namespace Reshape

/-! ## Fields that change -/

/-- From the first heap to the second, the object stays one of its shape with as many fields, and no
field has changed but those with these numbers. -/
def Heap.Rewrites (d : Address) (written : List Nat) (heap heap' : Heap) : Prop :=
  ∃ shape fields fields', heap.get? d = some (.object shape fields) ∧
    heap'.get? d = some (.object shape fields') ∧ fields'.size = fields.size ∧
    ∀ j, j ∉ written → fields'[j]? = fields[j]?

namespace Heap.Rewrites

variable {d : Address} {written written' : List Nat} {heap heap₁ heap' : Heap}

theorem of_eq {shape : ShapeId} {fields : Array Value}
    (h : heap.get? d = some (.object shape fields)) (heq : heap'.get? d = heap.get? d) :
    Rewrites d written heap heap' :=
  ⟨shape, fields, fields, h, heq.trans h, rfl, fun _ _ => rfl⟩

theorem trans (h : Rewrites d written heap heap₁) (h' : Rewrites d written' heap₁ heap') :
    Rewrites d (written ++ written') heap heap' := by
  obtain ⟨shape, fields, fields₁, hget, hget₁, hsize, hsame⟩ := h
  obtain ⟨_, _, fields', hget₁', hget', hsize', hsame'⟩ := h'
  cases hget₁.symm.trans hget₁'
  refine ⟨shape, fields, fields', hget, hget', hsize'.trans hsize, fun j hj => ?_⟩
  rw [List.mem_append, not_or] at hj
  exact (hsame' j hj.2).trans (hsame j hj.1)

/-- A field that is written. -/
theorem replace {shape : ShapeId} {fields : Array Value}
    (h : heap.get? d = some (.object shape fields)) (i : Nat) (v : Value) :
    Rewrites d [i] heap (heap.replace d i v) := by
  refine ⟨shape, fields, fields.setIfInBounds i v, h, ?_, Array.size_setIfInBounds, fun j hj => ?_⟩
  · rw [get?_replace, if_pos rfl, h]
    rfl
  · exact Array.getElem?_setIfInBounds_ne fun heq => hj (List.mem_singleton.mpr heq.symm)

end Heap.Rewrites

/-! ## Objects that are supplied -/

theorem RunM.writeMember_object {s : Session} {d : Address} {shape : ShapeId} {fields : Array Value}
    (hget : s.heap.get? d = some (.object shape fields)) (i : Nat) (v : Value) :
    RunM.onHeap (Heap.writeMember (.ref d) i v) s =
      .ok (.ref d) { s with heap := s.heap.replace d i v } := by
  unfold RunM.onHeap
  rw [Heap.writeMember_object hget]

namespace RecordForm

variable {form : RecordForm} {invoke : Invoke} {frame : Frame} {d : Address}

/-- An object is answered as it is, whatever the form says of boxes. -/
theorem result_ref (s : Session) : form.result (.ref d) s = .ok (.ref d) s := by
  unfold result
  split <;> rfl

/-- An object that is supplied is filled, and answered. -/
theorem run_into (hsource : frame.source ≠ .null) (hdestination : frame.destination = .ref d) :
    form.run invoke frame =
      form.fillAll invoke frame frame.source.unboxed (.ref d) form.members >>= form.result := by
  have hnull : ¬frame.source.isNull = true := fun hnull => hsource (Value.isNull_iff.mp hnull)
  unfold run destination
  rw [if_neg hnull, hdestination]
  rfl

end RecordForm

/-! ## One member after the other -/

/-- The object is outside of the set, and its fields refer to places of the set, in which the runs
of the routine stay. -/
structure Session.Detaches (mappings : Mapping → Prop) (pool : Pool) (p : Address → Prop)
    (state : Value) (r : Routine) (d : Address) (shape : ShapeId) (s : Session) : Prop where
  held : (Contract.confining p state).Held pool mappings s
  knows : s.Knows r
  outside : ¬p d
  object : ∃ fields, s.heap.get? d = some (.object shape fields) ∧ ∀ w ∈ fields, w.Within p

section

variable {mappings : Mapping → Prop} {pool : Pool} {p : Address → Prop} {r : Routine} {d : Address}
  {S T : ShapeId} {s s' : Session} {frame : Frame} {v : Value}

/-- Other routines leave the object as it is. -/
theorem Session.Detaches.later (h : s.Detaches mappings pool p frame.state r d T)
    (hl : (Contract.confining p frame.state).Leads pool mappings s s') :
    s'.Detaches mappings pool p frame.state r d T ∧ s'.heap.get? d = s.heap.get? d := by
  have hkept := hl.later.kept d h.outside
  obtain ⟨fields, hget, hfields⟩ := h.object
  exact ⟨⟨hl.held, hl.knows r h.knows, h.outside, fields, hkept.trans hget, hfields⟩, hkept⟩

/-- What a field of the object holds does not lead to the object. -/
theorem Session.Detaches.readMember (h : s.Detaches mappings pool p frame.state r d T) (i : Nat) :
    (Contract.confining p frame.state).Gives pool mappings s (RunM.readMember (.ref d) T i)
      fun _ w => w.Within p := by
  obtain ⟨fields, hget, hfields⟩ := h.object
  have hshape : s.heap.shape? (.ref d) = some T := by
    rw [Heap.shape?, hget]
    rfl
  refine Ensures.of_ok (RunM.readMember_eq_ok i hshape)
    ⟨Contract.confining_soundValues.leads_refl h.held, ?_⟩
  rw [Heap.member?_ref, hget]
  dsimp only
  cases hi : fields[i]? with
  | none => exact .null
  | some w => exact hfields w (Array.mem_of_getElem? hi)

/-- To write a value that does not lead to the object changes the one field. -/
theorem Session.Detaches.writeMember (h : s.Detaches mappings pool p frame.state r d T)
    (hv : v.Within p) (i : Nat) :
    Ensures (RunM.onHeap (Heap.writeMember (.ref d) i v)) s
      (fun w s' => w = .ref d ∧ s'.Detaches mappings pool p frame.state r d T ∧
        Heap.Rewrites d [i] s.heap s'.heap) fun _ _ => False := by
  obtain ⟨fields, hget, hfields⟩ := h.object
  have hinv : (s.heap.replace d i v).Encloses p :=
    h.held.inv.of_eq (Heap.size_modifyContents ..) fun a ha => by
      have hne : d ≠ a := fun heq => h.outside (heq ▸ ha)
      rw [Heap.get?_replace, if_neg hne]
  refine Ensures.of_ok (RunM.writeMember_object hget i v) ⟨rfl, ⟨h.held.withHeap hinv, h.knows,
    h.outside, fields.setIfInBounds i v, ?_, fun w hw => ?_⟩, .replace hget i v⟩
  · rw [Heap.get?_replace, if_pos rfl, hget]
    rfl
  · rcases Array.mem_or_eq_of_mem_setIfInBounds hw with hw | rfl
    · exact hfields w hw
    · exact hv

section

variable {mapping : Mapping} {sourceShape targetShape : Descriptor} {form : RecordForm}
  {depth : Nat}
  (hpool : Pool.initial.GrowsTo pool)
  (hform : form.Made pool mapping S T sourceShape targetShape)
  (hs : pool.Below S S sourceShape) (ht : pool.Below T T targetShape)
  (hm : (Contract.confining p frame.state).allows mapping)
  (hw : (Contract.confining p frame.state).Within pool mappings (Routine.run depth) frame r)
  (hv : v.Within p)

include hpool hform hs ht hm hw hv

/-- To fill a member changes its field, and to fail to fill it changes none. -/
theorem RecordForm.Made.fill_rewrites {m : MemberTransfer} (hmember : m ∈ form.members)
    (h : s.Detaches mappings pool p frame.state r d T) :
    Ensures (form.fill (Routine.run depth) frame v (.ref d) m) s
      (fun w s' => w = .ref d ∧ s'.Detaches mappings pool p frame.state r d T ∧
        Heap.Rewrites d [m.pair.destination] s.heap s'.heap)
      fun _ s' => s'.heap.get? d = s.heap.get? d := by
  have hc : (Contract.confining p frame.state).SoundWith pool frame.state :=
    Contract.confining_soundWith hpool
  obtain ⟨sourceMember, targetMember, hsm, -, hmade⟩ := hform.members m hmember
  have hvalue := Contract.made_gives hc hw h.knows hm hmade
    (Contract.readMember_gives_source hc h.held hs.descriptor hsm hv)
    fun s₁ hl => (h.later hl).1.readMember m.pair.destination
  unfold RecordForm.fill
  rw [hform.source_eq, hform.target_eq]
  refine Ensures.bind (Ensures.mono hvalue ?_ fun _ s' hl => (h.later hl).2)
  rintro w s₁ ⟨hl, hw₁⟩
  obtain ⟨h₁, hsame⟩ := h.later hl
  refine (h₁.writeMember hw₁ m.pair.destination).mono ?_ fun _ _ hno => hno.elim
  rintro record s' ⟨hrecord, h', hrewrites⟩
  obtain ⟨fields, hget, -⟩ := h.object
  have hnone : Heap.Rewrites d [] s.heap s₁.heap := .of_eq hget hsame
  exact ⟨hrecord, h', hnone.trans hrewrites⟩

/-- To fill members changes their fields. Where one fails, those before it have been filled. -/
theorem RecordForm.Made.fillAll_rewrites {members : List MemberTransfer}
    (hmembers : members ⊆ form.members) (h : s.Detaches mappings pool p frame.state r d T) :
    Ensures (form.fillAll (Routine.run depth) frame v (.ref d) members) s
      (fun w s' => w = .ref d ∧
        Heap.Rewrites d (members.map fun m => m.pair.destination) s.heap s'.heap)
      fun stop s' => ∃ before m after s₁, members = before ++ m :: after ∧
        form.fillAll (Routine.run depth) frame v (.ref d) before s = .ok (.ref d) s₁ ∧
        form.fill (Routine.run depth) frame v (.ref d) m s₁ = .error stop s' ∧
        Heap.Rewrites d (before.map fun m => m.pair.destination) s.heap s'.heap := by
  obtain ⟨fields, hget, -⟩ := h.object
  induction members generalizing s fields with
  | nil => exact Ensures.pure ⟨rfl, .of_eq hget rfl⟩
  | cons m members ih =>
    rw [RecordForm.fillAll_cons]
    have hfill := (hform.fill_rewrites hpool hs ht hm hw hv (hmembers List.mem_cons_self) h).and
      (Ensures.outcome _ s)
    refine Ensures.bind (hfill.mono ?_ ?_)
    · rintro w s₁ ⟨⟨rfl, h₁, hrewrites⟩, hrun⟩
      obtain ⟨fields₁, hget₁, -⟩ := h₁.object
      refine (ih (fun _ h => hmembers (List.mem_cons_of_mem _ h)) h₁ fields₁ hget₁).mono ?_ ?_
      · exact fun w s' hw' => ⟨hw'.1, hrewrites.trans hw'.2⟩
      · rintro stop s' ⟨before, m', after, s₂, rfl, hbefore, hstop, hrewrites'⟩
        refine ⟨m :: before, m', after, s₂, rfl, ?_, hstop, hrewrites.trans hrewrites'⟩
        exact (bind_of_eq_ok hrun).trans hbefore
    · rintro stop s' ⟨hsame, hrun⟩
      exact ⟨[], m, members, s, rfl, rfl, hrun, .of_eq hget hsame⟩

end

end

/-! ## Runs -/

/-- Without converters, a routine for records that is supplied with an object fills it and answers
it, if neither the source nor a field of the object leads to it. Nothing changes in the object but
the fields that pairs of the rules are for. Where a pair fails, the pairs before it have been
filled, and nothing else has changed in the object. -/
theorem Session.Reachable.rewrites_matched {mappings : Mapping → Prop} {s : Session}
    (hs : s.Reachable mappings) {r : Routine} (hr : s.Knows r)
    (hconverters : ∀ m, mappings m → m.id = r.key.mapping → m.converters = [])
    {below below' : ShapeId} {sourceShape targetShape : Descriptor}
    (hrecords : r.FillsRecords s.pool below below' sourceShape targetShape) {source : Value}
    (hsource : source ≠ .null) {d : Address} {fields : Array Value}
    (hd : s.heap.get? d = some (.object below' fields))
    (hfields : ∀ w ∈ fields, ¬s.heap.Reaches w d) (hreach : ¬s.heap.Reaches source d) (depth : Nat)
    (state : Value) :
    ∃ form : RecordForm, form.For s.pool r.linkage.mapping below below' sourceShape targetShape ∧
      (∀ invoke frame, r.body.run invoke frame = form.run invoke frame) ∧
      Ensures (r.run (depth + 1) source (.ref d) state) s
        (fun w s' => w = .ref d ∧ Heap.Rewrites d
          ((r.linkage.mapping.rules.existing sourceShape targetShape).map MemberPair.destination)
          s.heap s'.heap)
        fun stop s' => ∃ before m after s₁, form.members = before ++ m :: after ∧
          form.fillAll (Routine.run depth) ⟨source, .ref d, state, r.linkage⟩ source.unboxed (.ref d)
            before s = .ok (.ref d) s₁ ∧
          form.fill (Routine.run depth) ⟨source, .ref d, state, r.linkage⟩ source.unboxed (.ref d) m
            s₁ = .error stop s' ∧
          Heap.Rewrites d (before.map fun m => m.pair.destination) s.heap s'.heap := by
  obtain ⟨owner, howned⟩ := hs.coherent
  obtain ⟨-, -, hmapping, hmade⟩ := howned.madeIn hr
  obtain ⟨form, hform, hbody⟩ := hrecords.exists_form hmade howned.pool
  have hnone : r.linkage.mapping.converters = [] := hconverters _ hmapping hmade.mapping.symm
  refine ⟨form, hform.for hnone, hbody, ?_⟩
  have hdestinations : form.members.map (fun m => m.pair.destination) =
      (r.linkage.mapping.rules.existing sourceShape targetShape).map MemberPair.destination := by
    rw [← hform.pairs, List.map_map]
    rfl
  -- The set of what the source and the fields lead to leaves out the object, and runs stay in it.
  let p := s.heap.Opens (source :: fields.toList)
  let frame : Frame := ⟨source, .ref d, state, r.linkage⟩
  have hc : (Contract.confining p state).SoundWith s.pool state :=
    Contract.confining_soundWith howned.pool
  have hallows (m : Mapping) (hm : mappings m) (hid : m.id = r.key.mapping) :
      (Contract.confining p state).allows m := by
    intro c hcm
    rw [hconverters m hm hid] at hcm
    cases hcm
  have hwithin : (Contract.confining p state).Within s.pool mappings (Routine.run depth) frame r :=
    ⟨rfl, fun h hr' hkey => hc.run_meets hallows depth h hr' hkey⟩
  have hdetaches : s.Detaches mappings s.pool p state r d below' := by
    refine ⟨⟨⟨owner, howned⟩, rfl, s.heap.encloses_opens _⟩, hr, ?_, fields, hd, fun w hw => ?_⟩
    · exact Heap.not_opens hd (List.forall_mem_cons.mpr
        ⟨hreach, fun w hw => hfields w (Array.mem_toList_iff.mp hw)⟩)
    · exact Heap.within_opens (List.mem_cons_of_mem _ (Array.mem_toList_iff.mpr hw))
  have hvalue : source.unboxed.Within p := (Heap.within_opens List.mem_cons_self).unboxed
  have hfill : Ensures (form.fillAll (Routine.run depth) frame source.unboxed (.ref d) form.members)
      s _ _ :=
    hform.fillAll_rewrites howned.pool hrecords.source.self hrecords.target.self
      (hallows _ hmapping hmade.mapping.symm) hwithin hvalue (fun _ h => h) hdetaches
  rw [Routine.run_succ, hbody, RecordForm.run_into hsource rfl]
  refine Ensures.bind (hfill.mono ?_ fun _ _ hstop => hstop)
  rintro w s' ⟨rfl, hrewrites⟩
  exact Ensures.of_ok (RecordForm.result_ref s') ⟨rfl, hdestinations ▸ hrewrites⟩

/-! ## A note that is kept -/

namespace Noted

def reading : Descriptor :=
  .ofRecord "Reading" [⟨"value", ShapeId.str, {}⟩, ⟨"time", ShapeId.int, {}⟩]

def entry : Descriptor :=
  .ofRecord "Entry" [⟨"value", ShapeId.int, {}⟩, ⟨"time", ShapeId.int, {}⟩,
    ⟨"note", ShapeId.any, {}⟩]

def operations : List Pool.Operation := [.register reading, .register entry]

/-- The time comes first. The last pair is for a member that no entry has. -/
def mapping : Mapping where
  id := ⟨"noted"⟩
  rules := .fixed [⟨1, 1⟩, ⟨0, 0⟩, ⟨1, 3⟩]

/-- A reading of a number and one of a word, and an entry with a list for a note. -/
def heap : Heap where
  instances := #[.object ⟨7⟩ #[.str ⟨0⟩ "7", .int 30], .object ⟨7⟩ #[.str ⟨1⟩ "x", .int 40],
    .object ⟨8⟩ #[.int 1, .int 20, .ref ⟨3⟩], .seq ShapeId.untypedList #[]]
  tokens := 2

def session : Session :=
  .compiling operations heap mapping ⟨7⟩ ⟨8⟩

def routine : Routine :=
  Session.compiled operations heap mapping ⟨7⟩ ⟨8⟩

theorem reachable : session.Reachable (· = mapping) :=
  Session.reachable_compiling operations heap mapping ⟨7⟩ ⟨8⟩

theorem knows : session.Knows routine :=
  (@Session.knows_of_cached? session ⟨0⟩ ⟨⟨7⟩, ⟨8⟩, mapping.id⟩ rfl).1

theorem fillsRecords : routine.FillsRecords session.pool ⟨7⟩ ⟨8⟩ reading entry :=
  ⟨⟨rfl, rfl⟩, ⟨rfl, rfl⟩, nofun, rfl, rfl, rfl⟩

theorem heap_eq : session.heap = heap :=
  (Session.pool_and_heap_compiling operations heap mapping ⟨7⟩ ⟨8⟩).2

/-- Neither the readings nor the note lead to the entry. -/
theorem not_reaches {v : Value} (hv : v.Within (· ≠ ⟨2⟩)) : ¬session.heap.Reaches v ⟨2⟩ := by
  rw [heap_eq]
  intro hreach
  refine hreach.within (p := (· ≠ ⟨2⟩)) ?_ hv rfl
  rintro ⟨n⟩ i hn hi w hw
  match n with
  | 0 | 1 =>
    obtain rfl := Option.some.inj hi
    replace hw : w ∈ [.str _ _, .int _] := hw
    simp only [List.mem_cons, List.not_mem_nil, or_false] at hw
    rcases hw with rfl | rfl <;> rintro b ⟨⟩
  | 2 => exact absurd rfl hn
  | 3 =>
    obtain rfl := Option.some.inj hi
    cases hw
  | n + 4 => cases hi

theorem not_reaches_fields :
    ∀ w ∈ #[.int 1, .int 20, .ref ⟨3⟩], ¬session.heap.Reaches w ⟨2⟩ := by
  intro w hw
  refine not_reaches ?_
  simp only [List.mem_toArray, List.mem_cons, List.not_mem_nil, or_false] at hw
  rcases hw with rfl | rfl | rfl
  · rintro b ⟨⟩
  · rintro b ⟨⟩
  · exact Value.Within.ref.mpr (by decide)

end Noted

/-- The entry keeps its note. Where the value is no number, no more than the time is written. -/
theorem Session.Reachable.rewrites_matched_noted : ∃ s₁ s₂,
    Noted.routine.run 1 (.ref ⟨0⟩) (.ref ⟨2⟩) .null Noted.session = .ok (.ref ⟨2⟩) s₁ ∧
      Heap.Rewrites ⟨2⟩ [1, 0] Noted.session.heap s₁.heap ∧
      Noted.routine.run 1 (.ref ⟨1⟩) (.ref ⟨2⟩) .null Noted.session =
        .error (.failed (.primitive ⟨"\"x\"", .int⟩)) s₂ ∧
      ∃ before : List MemberTransfer, before.length < 2 ∧
        Heap.Rewrites ⟨2⟩ (before.map fun m => m.pair.destination) Noted.session.heap s₂.heap := by
  have hsource (n : Nat) : Value.ref ⟨n⟩ ≠ .null := nofun
  have hentry : Noted.session.heap.get? ⟨2⟩ =
      some (.object ⟨8⟩ #[.int 1, .int 20, .ref ⟨3⟩]) := rfl
  have hreach (n : Nat) (hn : n ≠ 2) : ¬Noted.session.heap.Reaches (.ref ⟨n⟩) ⟨2⟩ :=
    Noted.not_reaches (Value.Within.ref.mpr fun heq => hn (congrArg Address.index heq))
  have hrun (n : Nat) (hn : n ≠ 2) := Session.Reachable.rewrites_matched Noted.reachable Noted.knows
    (fun m hm _ => hm ▸ rfl) Noted.fillsRecords (hsource n) hentry Noted.not_reaches_fields
    (hreach n hn) 0 .null
  obtain ⟨s₁, hok⟩ : ∃ s₁, Noted.routine.run 1 (.ref ⟨0⟩) (.ref ⟨2⟩) .null Noted.session =
      .ok (.ref ⟨2⟩) s₁ := ⟨_, rfl⟩
  obtain ⟨s₂, herror⟩ : ∃ s₂, Noted.routine.run 1 (.ref ⟨1⟩) (.ref ⟨2⟩) .null Noted.session =
      .error (.failed (.primitive ⟨"\"x\"", .int⟩)) s₂ := ⟨_, rfl⟩
  refine ⟨s₁, s₂, hok, ?_, herror, ?_⟩
  · obtain ⟨form, -, -, hends⟩ := hrun 0 (by decide)
    exact (hends.of_run hok).2
  · obtain ⟨form, hform, -, hends⟩ := hrun 1 (by decide)
    unfold Ensures at hends
    rw [herror] at hends
    obtain ⟨before, m, after, s, hmembers, -, -, hrewrites⟩ := hends
    refine ⟨before, ?_, hrewrites⟩
    have hlength : (form.members.map MemberTransfer.pair).length = 2 := by
      rw [hform.pairs]
      rfl
    rw [hmembers, List.length_map, List.length_append, List.length_cons] at hlength
    omega

end Reshape
