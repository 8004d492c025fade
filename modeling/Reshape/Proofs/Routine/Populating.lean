import Reshape.Proofs.Routine.Assignment
import Reshape.Proofs.Routine.Fidelity

/-!
# Filling supplied records

A routine from a shape of a copyable pool into itself, run on a plain value with something ready for
it in its place, ends with a value that is settled (`Heap.Plain.populated`). Members that hold
records are supplied to the routines for these, whatever other members hold the same ones.

The induction is on the parts of the value. For a record it goes through its members, one after the
other (`RecordForm.fill_populates`), while all of the heap changes that the assignment is about.
What is no record is copied, as though nothing had been supplied (`Routine.Live.populates_other`).
-/

set_option linter.unusedSectionVars false

namespace Reshape

/-! ## Runs that fill -/

/-- A session of the pool in which the assignment holds. -/
structure Session.Filling (mappings : Mapping → Prop) (strict : Prop) (pool : Pool) (start : Heap)
    (p : Address → Prop) (A : Assignment) (s : Session) : Prop where
  coherent : s.Coherent mappings
  pool_eq : s.pool = pool
  holds : A.Holds strict pool start s.heap p

/-- More is assigned and written, and routines stay live. -/
structure Session.Advances (mappings : Mapping → Prop) (id : MappingId) (strict : Prop)
    (pool : Pool) (start : Heap) (p : Address → Prop) (A : Assignment) (s : Session)
    (A' : Assignment) (s' : Session) : Prop where
  filling : s'.Filling mappings strict pool start p A'
  live : ∀ r : Routine, r.Live id s → r.Live id s'
  more : A.Extends s.heap A' s'.heap

/-- From the session, if there is depth enough, the computation leads to a value that can be filled
again, and that is settled for `u` if filling is strict. -/
def Populates (mappings : Mapping → Prop) (id : MappingId) (strict : Prop) (pool : Pool)
    (start : Heap) (p : Address → Prop) (A : Assignment) (s : Session) (place : ShapeId) (u : Value)
    (x : Nat → RunM Value) : Prop :=
  Eventually x s fun w s' => ∃ A', s.Advances mappings id strict pool start p A A' s' ∧
    (strict → A'.Settled start s'.heap w u) ∧ A'.Awaits strict pool start place w u

/-- All routines for the value populate what is ready for it. -/
def Populated (mappings : Mapping → Prop) (id : MappingId) (strict : Prop) (pool : Pool)
    (start : Heap) (p : Address → Prop) (state u : Value) : Prop :=
  ∀ (A : Assignment) (s : Session) (r : Routine) (f : Value),
    s.Filling mappings strict pool start p A → r.Live id s → start.Plain pool u r.key.source →
    u.Within p → pool.Includes r.key.source r.key.target → A.Ready pool r.key.target f u →
    Populates mappings id strict pool start p A s r.key.target u fun depth => r.run depth u f state

section

variable {mappings : Mapping → Prop} {id : MappingId} {strict : Prop} {pool : Pool} {start : Heap}
  {p : Address → Prop} {A A' A'' : Assignment} {s s' s'' : Session} {place : ShapeId} {u : Value}

namespace Session.Filling

theorem to_holds (h : s.Filling mappings strict pool start p A) : s.Holds mappings pool s.heap :=
  ⟨h.coherent, h.pool_eq, .refl _⟩

/-- An assignment that holds of another heap of the session. -/
theorem withHeap {heap : Heap} (h : s.Filling mappings strict pool start p A)
    (hA : A'.Holds strict pool start heap p) :
    Session.Filling mappings strict pool start p A' { s with heap := heap } := by
  obtain ⟨owner, howned⟩ := h.coherent
  exact ⟨⟨owner, howned.withHeap heap⟩, h.pool_eq, hA⟩

end Session.Filling

namespace Session.Advances

theorem refl (h : s.Filling mappings strict pool start p A) :
    s.Advances mappings id strict pool start p A A s :=
  ⟨h, fun _ hr => hr, .refl A _⟩

theorem trans (h : s.Advances mappings id strict pool start p A A' s')
    (h' : s'.Advances mappings id strict pool start p A' A'' s'') :
    s.Advances mappings id strict pool start p A A'' s'' :=
  ⟨h'.filling, fun r hr => h'.live r (h.live r hr), h.more.trans h'.more⟩

/-- Another heap of the session, and what is assigned and written there. -/
theorem withHeap {heap : Heap} (h : s.Filling mappings strict pool start p A)
    (hA : A'.Holds strict pool start heap p) (hmore : A.Extends s.heap A' heap) :
    s.Advances mappings id strict pool start p A A' { s with heap := heap } :=
  ⟨h.withHeap hA, fun _ hr => ⟨hr.knows, hr.alive, hr.mapping⟩, hmore⟩

/-- Instances are added, and nothing is assigned. -/
theorem of_precedes (h : s.Filling mappings strict pool start p A) (hl : s.Precedes mappings s') :
    s.Advances mappings id strict pool start p A A s' :=
  ⟨⟨hl.coherent, hl.pool.trans h.pool_eq, h.holds.of_kept hl.kept⟩, fun _ hr => hr.precedes hl,
    .of_kept A hl.kept⟩

end Session.Advances

namespace Populates

theorem of_advances {x : Nat → RunM Value} (h : s.Advances mappings id strict pool start p A A' s')
    (hx : Populates mappings id strict pool start p A' s' place u x) :
    Eventually x s' fun w s'' => ∃ A'', s.Advances mappings id strict pool start p A A'' s'' ∧
      (strict → A''.Settled start s''.heap w u) ∧ A''.Awaits strict pool start place w u := by
  refine hx.mono ?_
  rintro w s'' ⟨A'', h', hw⟩
  exact ⟨A'', h.trans h', hw⟩

theorem null (h : s.Filling mappings strict pool start p A) :
    Populates mappings id strict pool start p A s place .null fun _ => return .null :=
  .of_succeeds (.pure ⟨A, .refl h, fun _ => .null, .blank .null⟩)

theorem placed {x : Nat → RunM Value} (h : Populates mappings id strict pool start p A s place u x)
    (inline : Bool) :
    Populates mappings id strict pool start p A s place u fun depth =>
      Transfer.placed inline <$> x depth := by
  refine Eventually.map (h.mono ?_)
  rintro w s' ⟨A', hadvances, hsettled, hawaits⟩
  cases inline with
  | false => exact ⟨A', hadvances, hsettled, hawaits⟩
  | true => exact ⟨A', hadvances, fun hstrict => (hsettled hstrict).unboxed, hawaits.unboxed⟩

/-- Places with the same shape below them are alike. -/
theorem below_iff {below : ShapeId} {known : Descriptor} (hb : pool.Below place below known)
    {x : Nat → RunM Value} :
    Populates mappings id strict pool start p A s below u x ↔
      Populates mappings id strict pool start p A s place u x := by
  simp only [Populates, Assignment.Awaits.below_iff hb]

end Populates

variable (hc : Copier mappings id pool) (hp : start.Closed p)

/-! ## Transfers -/

section

variable {r : Routine} {frame : Frame} {f : Value} (hs : s.Filling mappings strict pool start p A)
  (hr : r.Live id s) (hlinkage : frame.linkage = r.linkage) (hwithin : u.Within p)
  (hpopulated : Populated mappings id strict pool start p frame.state u)

include hc hp hs hr hlinkage hwithin hpopulated

/-- The routine that a link leads to populates what is there. -/
theorem Transfer.byLink_populates {link : Link} {value current : RunM Value}
    (hvalue : value s = .ok u s) (hcurrent : current s = .ok f s)
    (hu : start.Plain pool u link.source) (hincludes : pool.Includes link.source link.target)
    (hf : A.Ready pool link.target f u) :
    Populates mappings id strict pool start p A s link.target u fun depth =>
      byLink (Routine.run depth) frame link value current := by
  refine Eventually.bind_ok hvalue ?_
  by_cases hnull : u = .null
  · subst hnull
    exact Populates.null hs
  · simp only [if_neg (show ¬ u.isNull = true by simpa using hnull)]
    obtain ⟨own, known, -, ⟨below, known', hb, -⟩, -⟩ := hu.exists_own hc.grows hnull
    refine Eventually.bind_ok hcurrent (Eventually.bind ?_)
    rw [hlinkage]
    refine (Eventually.of_succeeds (hr.resolve hc hs.to_holds hb hincludes)).mono ?_
    rintro r' s' ⟨hl, -, hr', hsource, htarget⟩
    have hadvances : s.Advances mappings id strict pool start p A A s' := .of_precedes hs hl
    rw [← hsource] at hu
    rw [← hsource, ← htarget] at hincludes
    have hf' := hf.of_extends hadvances.more
    rw [← htarget] at hf' ⊢
    exact Populates.of_advances hadvances
      (hpopulated A s' r' f hadvances.filling hr' hu hwithin hincludes hf')

/-- The routine for the shape of the value makes one like it. -/
theorem Transfer.byShape_populates {value current : RunM Value} {below : ShapeId}
    {known : Descriptor} (hvalue : value s = .ok u s) (hcurrent : current s = .ok .null s)
    (hu : start.Plain pool u place) (hb : pool.Below place below known)
    (hkind : known.kind ≠ .record) :
    Populates mappings id strict pool start p A s place u fun depth =>
      byShape (Routine.run depth) frame none value current := by
  refine Eventually.bind_ok hvalue (.of_eq (fun _ => get_bind _ s) ?_)
  by_cases hnull : u = .null
  · subst hnull
    exact Populates.null hs
  · obtain ⟨own, known', hshape, -, hown, -, hu'⟩ := hu.exists_own hc.grows hnull
    rw [hs.holds.shape?_eq hp hwithin] at hshape
    rw [hshape]
    refine Eventually.bind_ok hcurrent (Eventually.bind ?_)
    rw [hlinkage]
    refine (Eventually.of_succeeds (hr.resolveDynamic hc hs.to_holds hown
      hown.includes_self)).mono ?_
    rintro r' s' ⟨hl, -, hr', hsource, htarget⟩
    have hadvances : s.Advances mappings id strict pool start p A A s' := .of_precedes hs hl
    have hincludes : pool.Includes r'.key.source r'.key.target := by
      rw [hsource, htarget]
      exact hown.includes_self
    rw [← hsource] at hu'
    have hmade :=
      hpopulated A s' r' .null hadvances.filling hr' hu' hwithin hincludes (.blank .null)
    refine (Populates.of_advances hadvances hmade).mono ?_
    rintro w s'' ⟨A', h, hsettled, -⟩
    exact ⟨A', h, hsettled, .other hb hkind⟩

/-- What is made for a place populates what is in it. -/
theorem Transfer.populates {t : Transfer} (ht : t.Between pool .deep place place)
    {value current : RunM Value} (hvalue : value s = .ok u s) (hcurrent : current s = .ok f s)
    (hu : start.Plain pool u place) (hf : A.Ready pool place f u) :
    Populates mappings id strict pool start p A s place u fun depth =>
      t.run (Routine.run depth) frame value current := by
  obtain ⟨below, known, below', known', hb, hb', hcarries⟩ := ht
  obtain ⟨rfl, rfl⟩ := hb.unique hb'
  have hu' : start.Plain pool u below' := (Heap.Plain.below_iff hb).mpr hu
  have hf' : A.Ready pool below' f u := (Assignment.Ready.below_iff hb).mpr hf
  cases hcarries with
  | primitive hkind _ =>
    have hplain := hs.holds.plain hp hwithin hu
    refine .of_succeeds ⟨u, s, hvalue, A, .refl hs, fun _ => ?_, .other hb (by simp [hkind])⟩
    exact hs.holds.settled_of_copied hp hwithin (.self hb hkind hplain)
  | convert hsource htarget hne _ =>
    exact absurd (Kind.primitive.inj (hsource.symm.trans htarget)) hne
  | shared hmode _ _ => cases hmode
  | dynamic hkind hany => exact absurd hkind hany
  | @linked number reuse inline _ _ _ =>
    obtain ⟨f', hcurrent', hf'⟩ : ∃ f', reused reuse current s = .ok f' s ∧
        A.Ready pool below' f' u := by
      cases reuse with
      | true => exact ⟨f, hcurrent, hf'⟩
      | false => exact ⟨.null, rfl, .blank .null⟩
    have hmade : Populates mappings id strict pool start p A s below' u fun depth =>
        byLink (Routine.run depth) frame ⟨number, below', below'⟩ value (reused reuse current) :=
      byLink_populates hc hp hs hr hlinkage hwithin hpopulated hvalue hcurrent' hu'
        hb.self.includes_self hf'
    exact ((Populates.below_iff hb).mp hmade).placed inline
  | copied hsource hany => exact absurd (hc.copyable.any _ _ hb.descriptor hany) hsource
  | @copiedByShape inline _ hany =>
    exact (byShape_populates hc hp hs hr hlinkage hwithin hpopulated hvalue rfl hu hb
      (by simp [hany])).placed inline

end

/-! ## Records -/

section

variable {r : Routine} {frame : Frame} (hlinkage : frame.linkage = r.linkage) {m : Mapping}
  (hm : m.Standard) {shape : ShapeId} {known : Descriptor} (hshape : pool.Below shape shape known)
  (hkind : known.kind = .record) {form : RecordForm}
  (hform : form.For pool m shape shape known known) {vs : List Value}
  (hlength : vs.length = known.members.length)
  (hplain : ∀ (i : Nat) (v : Value) (m : Member), vs[i]? = some v → known.members[i]? = some m →
    start.Plain pool v m.shape)
  (hvalues : start.Presents shape known u vs) (hwithin : u.Within p)
  (hpopulated : ∀ v ∈ vs, Populated mappings id strict pool start p frame.state v)

include hc hp hlinkage hm hshape hkind hform hlength hplain hvalues hwithin hpopulated

/-- The record that is filled from shows what it held at the start. -/
theorem RecordForm.source_shows (hs : s.Filling mappings strict pool start p A) :
    s.heap.shape? u.unboxed = some shape ∧ (∀ i, s.heap.member? u.unboxed i = vs[i]?) ∧
      ∀ v ∈ vs, v.Within p := by
  rcases hvalues with ⟨-, hu⟩ | ⟨-, b, rfl, hb⟩
  · rw [← Heap.shape?_bare, Value.bare_unboxed, hu]
    refine ⟨rfl, fun i => ?_, fun v hv a ha => ?_⟩
    · rw [← Heap.member?_bare, Value.bare_unboxed, hu]
      rfl
    · exact hwithin a (Value.mentions_of_bare (hu ▸ .struct hv ha))
  · have hpb : p b := Value.Within.ref.mp hwithin
    have hget := hs.holds.kept b _ hpb hb
    obtain ⟨i, hi, hparts⟩ := hp b hpb
    obtain rfl := Option.some.inj (hb.symm.trans hi)
    refine ⟨congrArg (Option.map Instance.shape) hget, fun i => ?_, hparts⟩
    change s.heap.member? (.ref b) i = _
    rw [Heap.member?_ref, hget]
    exact List.getElem?_toArray

/-- One more member is filled. -/
theorem RecordForm.fill_populates (hs : s.Filling mappings strict pool start p A) (hr : r.Live id s)
    {record : Value} {number : Nat} {m' : MemberTransfer} (hm' : m' ∈ form.members)
    (hpair : m'.pair = ⟨number, number⟩)
    (h : A.Underway strict pool start s.heap shape known u vs record number) :
    Eventually (fun depth => form.fill (Routine.run depth) frame u.unboxed record m') s
      fun record' s' => ∃ A', s.Advances mappings id strict pool start p A A' s' ∧
        A'.Underway strict pool start s'.heap shape known u vs record' (number + 1) ∧
        ∀ a, record = .ref a → record' = .ref a := by
  obtain ⟨member, member', hmember, hmember', hbetween⟩ := hform.members m' hm'
  rw [hpair] at hmember hmember'
  obtain rfl := Option.some.inj (hmember.symm.trans hmember')
  rw [hm.copyMode] at hbetween
  obtain ⟨v, hv⟩ : ∃ v, vs[number]? = some v :=
    ⟨_, List.getElem?_eq_getElem (hlength ▸ (List.getElem?_eq_some_iff.mp hmember).1)⟩
  obtain ⟨hsource, hread, hwithin'⟩ := RecordForm.source_shows hc hp hlinkage hm hshape hkind hform
    hlength hplain hvalues hwithin hpopulated hs
  obtain ⟨htarget, f, hf, hready⟩ := h.shows hs.holds hshape hmember hv
  have hvalue : RunM.readMember u.unboxed form.source m'.pair.source s = .ok v s := by
    rw [hform.source_eq, hpair, RunM.readMember_eq_ok number hsource, hread, hv]
    rfl
  have hcurrent : RunM.readMember record form.target m'.pair.destination s = .ok f s := by
    rw [hform.target_eq, hpair, RunM.readMember_eq_ok number htarget, hf]
    rfl
  have hmem := List.mem_of_getElem? hv
  have hplain' := hplain number v member hv hmember
  refine Eventually.bind ((Transfer.populates hc hp hs hr hlinkage (hwithin' v hmem)
    (hpopulated v hmem) hbetween hvalue hcurrent hplain' hready).mono ?_)
  rintro w s' ⟨A', hadvances, hsettled, hawaits⟩
  obtain ⟨A'', hmore, hholds, hunderway, hsame⟩ := (h.of_extends hadvances.more).write hc.grows
    hadvances.filling.holds hshape hmember hv hawaits hsettled
  rw [hpair]
  exact .of_succeeds ⟨_, _, rfl, A'', hadvances.trans (.withHeap hadvances.filling hholds hmore),
    hunderway, hsame⟩

/-- All members that are left are filled. -/
theorem RecordForm.fillAll_populates (hs : s.Filling mappings strict pool start p A)
    (hr : r.Live id s) {record : Value} {number : Nat} {members : List MemberTransfer}
    (hmembers : members ⊆ form.members) (hpairs : members.map MemberTransfer.pair =
      (List.range' number members.length).map fun i => ⟨i, i⟩)
    (h : A.Underway strict pool start s.heap shape known u vs record number) :
    Eventually (fun depth => form.fillAll (Routine.run depth) frame u.unboxed record members) s
      fun record' s' => ∃ A', s.Advances mappings id strict pool start p A A' s' ∧
        A'.Underway strict pool start s'.heap shape known u vs record' (number + members.length) ∧
        ∀ a, record = .ref a → record' = .ref a := by
  induction members generalizing s A record number with
  | nil => exact .of_succeeds (.pure ⟨A, .refl hs, h, fun _ h => h⟩)
  | cons m' members ih =>
    rw [List.length_cons, List.range'_succ, List.map_cons, List.map_cons] at hpairs
    obtain ⟨hpair, hpairs⟩ := List.cons.inj hpairs
    simp only [RecordForm.fillAll_cons]
    refine Eventually.bind ((RecordForm.fill_populates hc hp hlinkage hm hshape hkind hform hlength
      hplain hvalues hwithin hpopulated hs hr (hmembers List.mem_cons_self) hpair h).mono ?_)
    rintro record' s' ⟨A', hadvances, hunderway, hsame⟩
    refine (ih hadvances.filling (hadvances.live r hr)
      (fun _ h => hmembers (List.mem_cons_of_mem _ h)) hpairs hunderway).mono ?_
    rintro record'' s'' ⟨A'', hadvances', hunderway', hsame'⟩
    rw [List.length_cons, Nat.add_comm members.length, ← Nat.add_assoc]
    exact ⟨A'', hadvances.trans hadvances', hunderway',
      fun a ha => hsame' a (hsame a ha)⟩

/-- The record that is supplied or made is ready to be filled. -/
theorem RecordForm.destination_underway (hs : s.Filling mappings strict pool start p A)
    (hu : start.Plain pool u shape)
    (hf : A.Ready pool shape frame.destination u) :
    Succeeds (form.destination frame) s fun record s' =>
      ∃ A', s.Advances mappings id strict pool start p A A' s' ∧
        A'.Underway strict pool start s'.heap shape known u vs record.unboxed 0 ∧
        ∀ a, frame.destination = .ref a → record = .ref a := by
  unfold RecordForm.destination
  by_cases hnull : frame.destination = .null
  · rw [if_pos (by simpa using hnull), hnull]
    have horigin := hform.origin
    generalize form.origin = origin at horigin
    cases horigin with
    | @zero zero htype hzero =>
      have hk : s.heap.Kept (s.heap.box zero).2 := .box _ _
      refine ⟨_, _, rfl, A, .withHeap hs (hs.holds.of_kept hk) (.of_kept A hk), ?_, nofun⟩
      change A.Underway strict pool start (s.heap.box zero).2 shape known u vs
        (s.heap.box zero).1.unboxed 0
      obtain ⟨fields, rfl, hfields⟩ := Pool.zeroValue_struct hshape.descriptor hkind htype hzero
      obtain ⟨hlength', -, hblank⟩ := Pool.of_mapM_zeroValue hfields
      rw [Heap.unboxed_box]
      exact .of_ready htype (hvalues.bare htype) hlength' fun i f v m hf _ hm =>
        .blank (hblank i f m hf hm _)
    | absent htype hconstructor =>
      rcases hc.copyable.record _ _ hshape.descriptor hkind with h | h
      · cases htype.symm.trans h
      · cases hconstructor.symm.trans h
    | @template t htype hconstructor ht =>
      rcases Template.cases_of_ofShape hshape.descriptor htype hconstructor ht with
        ⟨fields, -, hfields, rfl⟩ | ⟨_, _, hkind', -⟩ | ⟨hkind', -⟩
      · obtain ⟨hlength', -, hblank⟩ := Pool.of_mapM_zeroValue hfields
        obtain ⟨b, rfl, hb⟩ := hvalues.exists_ref htype
        obtain ⟨A', hmore, hA', ha⟩ := hs.holds.alloc hc.grows hp hshape hkind htype hu hb hlength'
          fun i f m hf hm => hblank i f m hf hm _
        exact ⟨_, _, rfl, A', .withHeap hs hA' hmore, .object htype rfl hb ha nofun, nofun⟩
      · cases hkind.symm.trans hkind'
      · exact absurd hkind hkind'
  · rw [if_neg (by simpa using hnull)]
    refine Succeeds.pure ⟨A, .refl hs, ?_, fun _ h => h⟩
    rcases hf.record_cases hshape hkind hvalues.ne_null hnull with
      ⟨htype, fields, hd, hlength', hready⟩ | ⟨htype, a, hd, ha⟩
    · rw [hd]
      exact .of_ready htype (hvalues.bare htype) hlength' (hready vs (hvalues.bare htype))
    · obtain ⟨b, hu, hb⟩ := hvalues.exists_ref htype
      rw [hd]
      exact .object htype hu hb ha nofun

/-- A record is filled, if its members are. -/
theorem RecordForm.populates (hs : s.Filling mappings strict pool start p A) (hr : r.Live id s)
    (hsource : frame.source = u) (hu : start.Plain pool u shape)
    (hf : A.Ready pool shape frame.destination u) :
    Eventually (fun depth => form.run (Routine.run depth) frame) s fun w s' =>
      ∃ A', s.Advances mappings id strict pool start p A A' s' ∧
        (strict → A'.Settled start s'.heap w u) ∧ A'.Awaits strict pool start shape w u ∧
        ∀ a, frame.destination = .ref a → w = .ref a := by
  have hnull : ¬ u.isNull = true := fun h => hvalues.ne_null (Value.isNull_iff.mp h)
  unfold RecordForm.run
  simp only [hsource, if_neg hnull]
  refine Eventually.bind (.of_succeeds ((RecordForm.destination_underway hc hp hlinkage hm hshape
    hkind hform hlength hplain hvalues hwithin hpopulated hs hu hf).mono ?_))
  rintro record s₁ ⟨A₁, hadvances₁, hunderway₁, hsame₁⟩
  unfold RecordForm.convert
  have hrecord : ¬ record.unboxed.isNull = true := by simpa using hunderway₁.ne_null
  simp only [if_neg hrecord]
  have hmap : form.members.map MemberTransfer.pair =
      (List.range known.members.length).map fun i => ⟨i, i⟩ :=
    hform.pairs.trans (hm.existing_self hc.copyable hshape.descriptor hkind)
  have hcount : form.members.length = known.members.length := by
    simpa using congrArg List.length hmap
  have hpairs : form.members.map MemberTransfer.pair =
      (List.range' 0 form.members.length).map fun i => ⟨i, i⟩ := by
    rw [hmap, hcount, List.range_eq_range']
  refine Eventually.bind ((RecordForm.fillAll_populates hc hp hlinkage hm hshape hkind hform hlength
    hplain hvalues hwithin hpopulated hadvances₁.filling (hadvances₁.live r hr) (fun _ h => h)
    hpairs hunderway₁).mono ?_)
  rintro record' s₂ ⟨A₂, hadvances₂, hunderway₂, hsame₂⟩
  rw [Nat.zero_add, hcount] at hunderway₂
  obtain ⟨A₃, hmore, hholds, hsettled, hawaits⟩ :=
    hunderway₂.complete hc.grows hadvances₂.filling.holds hshape hkind hlength
  have hadvances₃ := (hadvances₁.trans hadvances₂).trans (.withHeap hadvances₂.filling hholds hmore)
  have hsame (a : Address) (ha : frame.destination = .ref a) : record' = .ref a := by
    refine hsame₂ a ?_
    rw [hsame₁ a ha]
    rfl
  unfold RecordForm.result
  split
  · have hk : s₂.heap.Kept (s₂.heap.box record').2 := .box _ _
    refine .of_succeeds ⟨_, _, rfl, A₃, hadvances₃.trans (.withHeap hadvances₃.filling
      (hholds.of_kept hk) (.of_kept A₃ hk)), fun hstrict => ?_, hawaits.box _, fun a ha => ?_⟩
    · exact ((hsettled hstrict).of_extends (.of_kept A₃ hk)).box _
    · rw [hsame a ha]
      rfl
  · exact .of_succeeds (.pure ⟨A₃, hadvances₃, hsettled, hawaits, hsame⟩)

end

/-! ## Other values -/

include hc in
/-- The form of a routine that leads to no record, and to no container that is appended to, pays no
heed to what is supplied. -/
theorem Form.run_withDestination {m : Mapping} (hm : m.Standard) {source target : ShapeId}
    {sourceShape targetShape : Descriptor} {form : Form}
    (hform : form.For pool m source target sourceShape targetShape)
    (hsource : pool.Below source source sourceShape)
    (hincludes : targetShape.kind = .any ∨ sourceShape = targetShape)
    (hkind : targetShape.kind ≠ .record)
    (hinsertable : ∀ element, targetShape.kind ≠ .collection .insertable element)
    (invoke : Invoke) (frame : Frame) (d : Value) :
    form.run invoke { frame with destination := d } = form.run invoke frame := by
  cases hform with
  | transfer _ hcase ht =>
    rw [hm.copyMode] at ht
    cases ht with
    | primitive _ _ | convert _ _ _ _ | copied _ _ | copiedByShape _ _ => rfl
    | shared hmode _ _ => cases hmode
    | linked hne hany hprimitive =>
      rcases hcase with hany' | hany' | ⟨q, hq⟩
      · exact absurd (hc.copyable.any _ _ hsource.descriptor hany') hne
      · exact absurd hany' hany
      · exact absurd hq (hprimitive q)
    | dynamic hany hne =>
      obtain rfl := hincludes.resolve_left hne
      exact absurd hany hne
  | record _ hkind' _ => exact absurd hkind' hkind
  | @collection mapper hmapper =>
    obtain ⟨family, element, hcollection⟩ :=
      CollectionKind.exists_collection_of_ofDescriptor? hmapper.kind
    change mapper.run invoke _ = mapper.run invoke _
    unfold CollectionMapper.run
    cases hk : mapper.kind with
    | genericInsertable =>
      rw [hmapper.family_eq hcollection, hk] at hcollection
      exact absurd hcollection (hinsertable element)
    | array | typedList | untypedList => rfl
  | unresolved _ _ => rfl

/-! ## All values -/

section

variable {state : Value}

include hc

/-- A routine that leads from a record shape to itself is run as the form of a record. -/
theorem Routine.Live.exists_ownForm {r : Routine} {target : ShapeId} {known : Descriptor}
    {heap : Heap} (hs : s.Holds mappings pool heap) (hr : r.Live id s)
    (hincludes : pool.Includes r.key.source r.key.target)
    (hb : pool.Below r.key.target target known) (hkind : known.kind = .record) :
    ∃ (m : Mapping) (form : RecordForm), m.Standard ∧ pool.Below r.key.source target known ∧
      form.For pool m target target known known ∧ ∀ depth v d state, r.run (depth + 1) v d state =
        form.run (Routine.run depth) ⟨v, d, state, r.linkage⟩ := by
  have hany : known.kind ≠ .any := by simp [hkind]
  obtain ⟨m, below, below', known₁, known₂, form, hm, hb₁, hb₂, hform, hrun⟩ :=
    hr.exists_form hc hs
  obtain ⟨rfl, rfl⟩ := hb.unique hb₂
  obtain ⟨_, _, hb₂', hcase⟩ := hincludes
  obtain ⟨rfl, rfl⟩ := hb.unique hb₂'
  obtain ⟨rfl, rfl⟩ := hb₁.unique (hcase.resolve_left hany)
  obtain ⟨form', rfl, hform'⟩ := hform.exists_record hkind hkind
  exact ⟨m, form', hm, hb₁, hform', hrun⟩

/-- Null is answered by null, and nothing else is done. -/
theorem Routine.Live.run_null {r : Routine} {target : ShapeId} {known : Descriptor}
    {heap : Heap} (hs : s.Holds mappings pool heap) (hr : r.Live id s)
    (hincludes : pool.Includes r.key.source r.key.target)
    (hb : pool.Below r.key.target target known) (hkind : known.kind = .record)
    (depth : Nat) (f state : Value) : r.run (depth + 1) .null f state s = .ok .null s := by
  obtain ⟨m, form, -, -, -, hrun⟩ := hr.exists_ownForm hc hs hincludes hb hkind
  rw [hrun]
  rfl

include hp

/-- A routine that leads to a record fills it, if the fields of the source are filled in. -/
theorem Routine.Live.populates_record {r : Routine} {f : Value} {target : ShapeId}
    {known : Descriptor} (hs : s.Filling mappings strict pool start p A)
    (hr : r.Live id s) (hu : start.Plain pool u r.key.source) (hwithin : u.Within p)
    (hincludes : pool.Includes r.key.source r.key.target)
    (hf : A.Ready pool r.key.target f u) (hb : pool.Below r.key.target target known)
    (hkind : known.kind = .record) (hnull : u ≠ .null)
    (hparts : ∀ v ∈ start.parts u, Populated mappings id strict pool start p state v) :
    Eventually (fun depth => r.run depth u f state) s fun w s' =>
      ∃ A', s.Advances mappings id strict pool start p A A' s' ∧
        (strict → A'.Settled start s'.heap w u) ∧ A'.Awaits strict pool start r.key.target w u ∧
        ∀ a, f = .ref a → w = .ref a := by
  obtain ⟨m, form, hm, hb₁, hform, hrun⟩ :=
    hr.exists_ownForm hc hs.to_holds hincludes hb hkind
  refine Eventually.of_succ ?_
  simp only [hrun]
  have hu' := (Heap.Plain.below_iff hb₁).mpr hu
  obtain ⟨vs, hlength, hplain, hvalues⟩ := hu'.record_cases hc.grows hb₁.self hkind hnull
  have hvs : start.parts u = vs := by
    rcases hvalues with ⟨-, hu⟩ | ⟨-, b, rfl, hb⟩
    · exact Heap.parts_of_struct start hu
    · rw [Heap.parts_ref hb]
      rfl
  refine (RecordForm.populates hc hp rfl hm hb₁.self hkind hform hlength hplain hvalues hwithin
    (fun v hv => hparts v (hvs ▸ hv)) hs hr rfl hu'
    ((Assignment.Ready.below_iff hb).mpr hf)).mono ?_
  rintro w s' ⟨A', hadvances, hsettled, hawaits, hsame⟩
  exact ⟨A', hadvances, hsettled, (Assignment.Awaits.below_iff hb).mp hawaits, hsame⟩

variable (hinsertable : ∀ shape known element, pool.descriptor shape = .ok known →
  known.kind ≠ .collection .insertable element)

include hinsertable

/-- A routine that leads to no record makes a copy, whatever is supplied. -/
theorem Routine.Live.populates_other {r : Routine} {f : Value} {target : ShapeId}
    {known : Descriptor} (hs : s.Filling mappings strict pool start p A)
    (hr : r.Live id s) (hu : start.Plain pool u r.key.source) (hwithin : u.Within p)
    (hincludes : pool.Includes r.key.source r.key.target)
    (hb : pool.Below r.key.target target known) (hkind : known.kind ≠ .record) :
    Populates mappings id strict pool start p A s r.key.target u fun depth =>
      r.run depth u f state := by
  obtain ⟨m, below, below', known₁, known₂, form, hm, hb₁, hb₂, hform, hrun⟩ :=
    hr.exists_form hc hs.to_holds
  obtain ⟨rfl, rfl⟩ := hb.unique hb₂
  have hsame (depth : Nat) : r.run depth u f state = r.run depth u .null state := by
    cases depth with
    | zero => rfl
    | succ depth =>
      rw [hrun, hrun]
      refine Form.run_withDestination hc hm hform hb₁.self ?_ hkind (fun element => ?_) _
        ⟨u, .null, state, r.linkage⟩ f
      · obtain ⟨_, _, hb₂', hcase⟩ := hincludes
        obtain ⟨rfl, rfl⟩ := hb.unique hb₂'
        exact hcase.imp_right fun hb₁' => (hb₁'.unique hb₁).2
      · exact hinsertable _ _ element hb.descriptor
  simp only [hsame]
  have hplain := hs.holds.plain hp hwithin hu
  obtain ⟨depth, hdepth⟩ := hplain.exists_depth hc state
  obtain ⟨w, s', hmade, hl, hcopied⟩ :=
    hdepth depth (Nat.le_refl _) s r .null hs.to_holds hr hplain hincludes trivial .null
  refine ⟨depth, w, s', fun more hmore => ?_, A, .of_precedes hs hl,
    fun _ => hs.holds.settled_of_copied hp hwithin hcopied, .other hb hkind⟩
  exact (Routine.run_of_le hmore fun s'' => by simp [hmade]).trans hmade

/-- A plain value is populated. -/
theorem Heap.Plain.populated (hu : start.Plain pool u place) :
    Populated mappings id strict pool start p state u := by
  refine hu.parts_induction (motive := Populated mappings id strict pool start p state) ?_
  intro u place _ hparts A s r f hs hr hu hwithin hincludes hf
  have hbelow := hincludes
  obtain ⟨target, known, hb, -⟩ := hbelow
  by_cases hkind : known.kind = .record
  · by_cases hnull : u = .null
    · subst hnull
      refine .of_succ (.of_ok (fun depth => ?_) ⟨A, .refl hs, fun _ => .null, .blank .null⟩)
      exact hr.run_null hc hs.to_holds hincludes hb hkind depth f state
    · refine (hr.populates_record hc hp hs hu hwithin hincludes hf hb hkind hnull hparts).mono ?_
      rintro w s' ⟨A', hadvances, hsettled, hawaits, -⟩
      exact ⟨A', hadvances, hsettled, hawaits⟩
  · exact hr.populates_other hc hp hinsertable hs hu hwithin hincludes hb hkind

end

end

end Reshape
