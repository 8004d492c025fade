import Reshape.Proofs.Routine.Chain
import Reshape.Proofs.Routine.Contract
import Reshape.Proofs.Session.Settled

/-!
# Forms that settle

A form settles (`Form.settles`) if all that it asks for does. This goes along the forms, and from
session to session : each part is run in a session that has come of the start under a contract
(`Contract`), in which the source is still what it was. The contract also answers for the source and
the destination that a routine within another is run on.
-/

set_option linter.unusedSectionVars false

namespace Reshape

/-! ## Parts that need no depth -/

section

variable {heap heap' : Heap} {s : Session} {u v : Value} {t : Transfer} {S T : ShapeId}
  {reuse : Bool}

theorem Transfer.Sends.of_shape?_eq (h : t.Sends heap u S T reuse)
    (hshape : heap'.shape? u = heap.shape? u) : t.Sends heap' u S T reuse := by
  cases h with
  | linked link _ inline hnull => exact .linked link _ inline hnull
  | dynamic target _ inline hown => exact .dynamic target _ inline (hshape.trans hown)

/-- What becomes of a value depends on what the value is in the session. -/
theorem Transfer.run_eq_of_value {value value' : RunM Value} (h : value s = value' s)
    (t : Transfer) (invoke : Invoke) (frame : Frame) (current : RunM Value) :
    t.run invoke frame value current s = t.run invoke frame value' current s := by
  cases t with
  | same => exact h
  | convert _ | custom _ => exact bind_of_eq h _
  | linked _ _ _ | dynamic _ _ _ =>
    simp only [run, byLink, byShape, map_eq_pure_bind, bind_assoc]
    exact bind_of_eq h _

/-- Without a value there is nothing to transfer. -/
theorem Transfer.run_throw (t : Transfer) (invoke : Invoke) (frame : Frame) (stop : Stop)
    (current : RunM Value) : t.run invoke frame (throw stop) current = throw stop := by
  cases t <;> rfl

theorem Heap.proper_of_memberAs {shape : ShapeId} {i : Nat} {stop : Stop}
    (h : heap.memberAs v shape i = .error stop) : stop.Proper := by
  unfold memberAs at h
  split at h
  · cases h
  · split at h
    · cases h
    · cases h
      trivial

theorem RunM.readMember_proper (v : Value) (shape : ShapeId) (i : Nat) (s : Session) :
    Ensures (RunM.readMember v shape i) s (fun _ _ => True) fun stop _ => stop.Proper := by
  refine .of_eq (RunM.readMember_eq v shape i s) ?_
  cases h : s.heap.memberAs v shape i with
  | ok w => exact trivial
  | error stop => exact Heap.proper_of_memberAs h

theorem CollectionMapper.transfer_ne_custom (mapper : CollectionMapper) (converter : Registered) :
    mapper.transfer ≠ .custom converter := by
  unfold transfer
  split <;> nofun

/-- A finite value has the members that it had. -/
theorem Heap.Finite.memberAs_eq {p : Value → Prop} (h : heap.Finite p v) (hk : heap.Kept heap')
    (shape : ShapeId) (i : Nat) :
    heap'.memberAs v.unboxed shape i = heap.memberAs v.unboxed shape i := by
  obtain ⟨hshape, hmember⟩ := h.shape?_and_member?_eq hk
  unfold memberAs
  rw [shape?_unboxed, shape?_unboxed, member?_unboxed, member?_unboxed, hshape, hmember]

end

/-! ## Requests that settle -/

namespace Contract

section

variable {c : Contract} {pool : Pool} {mappings : Mapping → Prop} {id : MappingId}
  {start s : Session} {r : Routine} {frame : Frame} {t : Transfer} {u : Value}

variable (c pool mappings id start) in
/-- All runs for the request settle, in whatever session has come of the start under the
contract. -/
def Settles (q : Request) : Prop :=
  ∀ s r d state, c.Leads pool mappings start s → s.Knows r → r.key = ⟨q.source, q.target, id⟩ →
    c.source s.heap q.source q.value → c.target s.heap q.target d →
    RunM.Settles (fun n => r.run n q.value d state) s

theorem Gives.ensures {α : Type} {x : RunM α} {p : Session → α → Prop}
    (h : c.Gives pool mappings s x p) :
    Ensures x s (fun a s' => c.Leads pool mappings s s' ∧ p s' a) fun _ _ => True :=
  Ensures.mono h (fun _ _ h => h) fun _ _ _ => trivial

theorem GivesSince.ensures {α : Type} {s₁ : Session} {x : RunM α} {p : Session → α → Prop}
    (h : c.GivesSince pool mappings s₁ s x p) :
    Ensures x s (fun a s' => c.Leads pool mappings s₁ s' ∧ p s' a) fun _ _ => True :=
  Ensures.mono h (fun _ _ h => h) fun _ _ _ => trivial

/-- What goes through a routine on its way from one shape to another is a source for it, and what is
there already is a destination. -/
theorem sends_between (hc : c.Sound pool) (h : c.Held pool mappings s) {m : Mapping} {S T : ShapeId}
    (ht : t.Between pool m.copyMode S T) (hu : c.source s.heap S u) {current : RunM Value}
    (hd : c.Gives pool mappings s current fun s' d => c.target s'.heap T d) {S' T' : ShapeId}
    {reuse : Bool} (hsends : t.Sends s.heap u S' T' reuse) : c.source s.heap S' u ∧
      c.Gives pool mappings s (Transfer.reused reuse current) fun s' d =>
        c.target s'.heap T' d := by
  obtain ⟨below, known, below', known', hs, ht, hcarries⟩ := ht
  have hu' := hc.values.source_below hs hu
  have hd' := hd.mono fun d s' _ hd => hc.values.target_below ht hd
  have hnull {T : ShapeId} : c.Gives pool mappings s (Transfer.reused false current) fun s' d =>
      c.target s'.heap T d := .pure hc.values h hc.values.target_null
  cases hcarries with
  | primitive _ _ | convert _ _ _ _ | shared _ _ _ => cases hsends
  | linked _ _ _ =>
    cases hsends with
    | linked _ _ _ _ => exact ⟨hu', reused_gives hc.values h _ hd'⟩
  | dynamic _ _ =>
    cases hsends with
    | dynamic _ _ _ hown =>
      exact ⟨hc.values.source_own h.inv hu' hown, reused_gives hc.values h _ hd'⟩
  | copied _ _ =>
    cases hsends with
    | linked _ _ _ _ => exact ⟨hu', hnull⟩
  | copiedByShape _ _ =>
    cases hsends with
    | dynamic _ _ _ hown => exact ⟨hc.values.source_own h.inv hu' hown, hnull⟩

/-- An element that goes through a routine is a source for it. -/
theorem sends_element (hc : c.Sound pool) (h : c.Held pool mappings s) {m : Mapping}
    {source target : ShapeId} {sourceShape targetShape : Descriptor} {mapper : CollectionMapper}
    (hmapper : mapper.For pool m source target sourceShape targetShape)
    (hu : c.source s.heap (sourceElement source sourceShape) u) {S T : ShapeId} {reuse : Bool}
    (hsends : mapper.transfer.Sends s.heap u S T reuse) : c.source s.heap S u ∧ reuse = false := by
  have hpath := hmapper.path
  unfold CollectionMapper.transfer at hsends
  generalize mapper.path = path at hsends hpath
  have hsuits := elementRoute_suits mapper.kind m.copyMode
    (sourceElement source sourceShape) targetShape.element?
  generalize elementRoute _ _ _ _ = route at hpath hsuits
  cases hpath with
  | verbatim => cases hsends
  | «static» id =>
    cases hsends with
    | linked _ _ _ _ => exact ⟨hsuits.1 ▸ hu, rfl⟩
  | dynamic target =>
    cases hsends with
    | dynamic _ _ _ hown => exact ⟨hc.values.source_own h.inv hu hown, rfl⟩

section

variable (hc : c.Sound pool) (hnullable : WellFounded pool.IsNullable)
  (hcontains : WellFounded pool.Contains) (hl : c.Leads pool mappings start s) (hr : s.Knows r)
  (hid : r.key.mapping = id)

include hc hl hr hid

/-- To look for a routine and to run it settles if the request does. -/
theorem search_settles {x : RunM Routine} {S T : ShapeId}
    (hx : ∀ s', c.Leads pool mappings s s' → c.Gives pool mappings s' x fun s'' r' =>
      s''.heap = s'.heap ∧ s''.Knows r' ∧ r'.key = ⟨S, T, r.key.mapping⟩)
    (hproper : ∀ s' : Session, s'.pool = pool →
      Ensures x s' (fun _ _ => True) fun stop _ => stop.Proper)
    {current : RunM Value}
    (hcurrent : Ensures current s (fun _ _ => True) fun stop _ => stop.Proper)
    (hd : c.Gives pool mappings s current fun s' d => c.target s'.heap T d)
    (hu : c.source s.heap S u) (hsettles : c.Settles pool mappings id start ⟨u, S, T⟩)
    (state : Value) : RunM.Settles (fun n => do
      let d ← current
      let routine ← x
      Routine.run n routine u d state) s := by
  refine .bind (.of_const hcurrent) (fun _ => hd.ensures) ?_
  rintro d s₁ ⟨hl₁, hd₁⟩
  refine .bind (.of_const (hproper s₁ hl₁.held.pool_eq)) (fun _ => (hx s₁ hl₁).ensures) ?_
  rintro r' s₂ ⟨hl₂, -, hr₂, hkey⟩
  have hlater := hc.values.leads_trans hl₁ hl₂
  refine hsettles s₂ r' d state (hc.values.leads_trans hl hlater) hr₂ (by rw [hkey, hid]) ?_ ?_
  · exact hc.values.source_later hlater.later hu
  · exact hc.values.target_later hl₂.later hd₁

include hnullable hcontains

/-- A transfer settles if the request for its value does. -/
theorem transfer_settles (hlinkage : frame.linkage = r.linkage)
    (hcustom : ∀ converter, t ≠ .custom converter) {current : RunM Value}
    (hcurrent : Ensures current s (fun _ _ => True) fun stop _ => stop.Proper)
    (hsends : ∀ S T reuse, t.Sends s.heap u S T reuse →
      c.Settles pool mappings id start ⟨u, S, T⟩ ∧ c.source s.heap S u ∧
        c.Gives pool mappings s (Transfer.reused reuse current) fun s' d =>
          c.target s'.heap T d) :
    RunM.Settles (fun n => t.run (Routine.run n) frame (return u) current) s := by
  have hreused (reuse : Bool) : Ensures (Transfer.reused reuse current) s (fun _ _ => True)
      fun stop _ => stop.Proper := by
    cases reuse with
    | true => exact hcurrent
    | false => exact trivial
  cases t with
  | same => exact .pure u
  | convert target =>
    refine .of_const ?_
    change Ensures (RunM.onHeapExcept .primitive (Heap.convert u target)) s _ _
    unfold Ensures RunM.onHeapExcept
    rcases Heap.convert u target s.heap with ⟨_ | _, _⟩ <;> trivial
  | custom converter => exact absurd rfl (hcustom converter)
  | linked link reuse inline =>
    refine .map _ ?_
    unfold Transfer.byLink
    simp only [pure_bind]
    split
    · exact .pure _
    · rename_i hnull
      obtain ⟨hsettles, hu, hd⟩ :=
        hsends _ _ _ (.linked link reuse inline (Bool.eq_false_iff.mpr hnull))
      rw [hlinkage]
      refine search_settles hc hl hr hid (fun s' hl' => ?_) (fun s' hpool => ?_) (hreused reuse) hd
        hu hsettles frame.state
      · exact .resolve hc.values hl'.held (hl'.knows r hr) link
      · exact Session.resolve_proper hnullable hcontains hpool r.linkage link
  | dynamic target reuse inline =>
    refine .map _ ?_
    unfold Transfer.byShape
    simp only [pure_bind]
    refine .of_eq (fun n => get_bind _ s) ?_
    split
    · exact .pure _
    · rename_i own hown
      obtain ⟨hsettles, hu, hd⟩ := hsends _ _ _ (.dynamic target reuse inline hown)
      rw [hlinkage]
      refine search_settles hc hl hr hid (fun s' hl' => ?_) (fun s' hpool => ?_) (hreused reuse) hd
        hu hsettles frame.state
      · exact .resolveDynamic hc.values hl'.held (hl'.knows r hr) _ _
      · exact Session.resolveDynamic_proper hnullable hcontains hpool r.linkage _ _

end

/-! ## Forms -/

section

variable (hc : c.Sound pool) (hnullable : WellFounded pool.IsNullable)
  (hcontains : WellFounded pool.Contains)
  (hkept : ∀ s, c.Leads pool mappings start s → start.heap.Kept s.heap)
  (hid : r.key.mapping = id)
  (hwithin : ∀ n, Within c pool mappings (Routine.run n) frame r) {m : Mapping} (hm : c.allows m)
  {source target : ShapeId} {sourceShape targetShape : Descriptor}
  (hs : pool.Below source source sourceShape) (ht : pool.Below target target targetShape)
  {p : Value → Prop} (hsource : start.heap.Finite p frame.source)

include hc hnullable hcontains hkept hid hwithin hm hs ht hsource

section

variable {form : RecordForm} (hform : form.For pool m source target sourceShape targetShape)
  (hasks : ∀ next, (Form.record form).Asks start.heap frame.source next →
    c.Settles pool mappings id start next)

include hform hasks

/-- One member settles, as the routine for it does. -/
theorem fill_settles {m' : MemberTransfer} (hm' : m' ∈ form.members) {before : Heap}
    {record : Value} {pending : List Nat} (hl : c.Leads pool mappings start s) (hr : s.Knows r)
    (hv : c.source s.heap source frame.source.unboxed)
    (hf : c.filling before s.heap target record (m'.pair.destination :: pending)) :
    RunM.Settles (fun n => form.fill (Routine.run n) frame frame.source.unboxed record m') s := by
  obtain ⟨sourceMember, targetMember, hsm, htm, hbetween⟩ := hform.members m' hm'
  have hmember := hsource.memberAs_eq (hkept s hl) source m'.pair.source
  have hread := RunM.readMember_eq frame.source.unboxed source m'.pair.source s
  rw [hmember] at hread
  unfold RecordForm.fill
  rw [hform.source_eq, hform.target_eq]
  refine .bind (p := fun _ _ => True) ?_ (fun _ => ?_) fun w s' _ => .of_const trivial
  · cases hu : start.heap.memberAs frame.source.unboxed source m'.pair.source with
    | error stop =>
      rw [hu] at hread
      refine .of_eq (fun n => Transfer.run_eq_of_value hread m'.transfer _ frame _) ?_
      refine .of_eq (fun n => congrFun (m'.transfer.run_throw _ frame stop _) s) ?_
      exact .throw (Heap.proper_of_memberAs hu)
    | ok u =>
      rw [hu] at hread
      refine .of_eq (fun n => Transfer.run_eq_of_value hread m'.transfer _ frame _) ?_
      have hgives : c.source s.heap sourceMember.shape u := by
        have hgives := readMember_gives_source (hc.with frame.state) hl.held hs.descriptor hsm hv
        unfold Gives Ensures at hgives
        rw [hread] at hgives
        exact hgives.2
      refine transfer_settles hc hnullable hcontains hl hr hid (hwithin 0).linkage
        hbetween.ne_custom (RunM.readMember_proper record target m'.pair.destination s)
        fun S T reuse h => ⟨?_, ?_⟩
      · have hinside := Heap.mem_held_of_memberAs hu h.ne_null
        have hshape := (hsource.of_inside (.single hinside)).shape?_eq (hkept s hl)
        exact hasks _ (.member hm' (hform.source_eq ▸ hu) (h.of_shape?_eq hshape.symm))
      · exact sends_between hc hl.held hbetween hgives
          (readMember_gives_target (hc.with frame.state) hl.held ht.descriptor htm hf) h
  · exact .trivial _ s

/-- The members settle one after the other ; each leaves the next what it needs. -/
theorem fillAll_settles {members : List MemberTransfer} (hmembers : members ⊆ form.members)
    {before : Session} {record : Value} (hbefore : c.Leads pool mappings start before)
    (hl : c.Leads pool mappings before s) (hr : s.Knows r)
    (hv : c.source s.heap source frame.source.unboxed)
    (hf : c.filling before.heap s.heap target record
      (members.map fun m => m.pair.destination)) :
    RunM.Settles
      (fun n => form.fillAll (Routine.run n) frame frame.source.unboxed record members) s := by
  induction members generalizing s record with
  | nil => exact .pure record
  | cons m' members ih =>
    simp only [RecordForm.fillAll_cons]
    have hm' := hmembers List.mem_cons_self
    have hmade := hform.made (hc.converters hm)
    refine .bind ?_ (fun n => (fill_gives (hc.with _) (hwithin n) hm hs ht hmade hm' hl hr hv
      hf).ensures) ?_
    · exact fill_settles hc hnullable hcontains hkept hid hwithin hm hs ht hsource hform hasks hm'
        (hc.values.leads_trans hbefore hl) hr hv hf
    · rintro record s₁ ⟨hl₁, hv₁, hr₁, hf₁⟩
      exact ih (fun _ h => hmembers (List.mem_cons_of_mem _ h)) hl₁ hr₁ hv₁ hf₁

/-- A record conversion settles once its members do. -/
theorem record_settles (hkind : targetShape.kind = .record) (hl : c.Leads pool mappings start s)
    (hr : s.Knows r) (hv : c.source s.heap source frame.source)
    (hd : c.target s.heap target frame.destination) :
    RunM.Settles (fun n => form.run (Routine.run n) frame) s := by
  unfold RecordForm.run
  split
  · exact .pure _
  · have hproper : Ensures (form.destination frame) s (fun _ _ => True)
        fun stop _ => stop.Proper := by
      unfold RecordForm.destination
      split <;> exact trivial
    refine .bind (.of_const hproper) (fun n => (destination_gives (hc.with _) (hwithin n) hm hs ht
      (hform.made (hc.converters hm)) hkind hl.held hr hv hd).ensures) ?_
    rintro record s₁ ⟨hl₁, hv₁, hr₁, hf₁⟩
    unfold RecordForm.convert
    split
    · exact .pure _
    · rename_i hnull
      have hf := hf₁ fun heq => hnull (by rw [heq]; rfl)
      refine .bind (p := fun _ _ => True) ?_ (fun n => .trivial _ s₁) fun record s₂ _ => ?_
      · exact fillAll_settles hc hnullable hcontains hkept hid hwithin hm hs ht hsource hform hasks
          (fun _ h => h) hl hl₁ hr₁ (hc.values.source_unboxed hv₁) hf
      · refine .of_const ?_
        unfold RecordForm.result
        split <;> exact trivial

end

section

variable {mapper : CollectionMapper}
  (hmapper : mapper.For pool m source target sourceShape targetShape)
  (hasks : ∀ next, (Form.collection mapper).Asks start.heap frame.source next →
    c.Settles pool mappings id start next)

include hmapper hasks

/-- One element settles, as the routine for it does. -/
theorem mapElement_settles {e : Value}
    (he : e ∈ (start.heap.elements? frame.source).getD [frame.source])
    (hl : c.Leads pool mappings start s) (hr : s.Knows r)
    (hv : c.source s.heap (sourceElement source sourceShape) e) :
    RunM.Settles (fun n => mapper.mapElement (Routine.run n) frame e) s := by
  have hfinite : start.heap.Finite p e := by
    cases hes : start.heap.elements? frame.source with
    | none =>
      rw [hes] at he
      obtain rfl := List.mem_singleton.mp he
      exact hsource
    | some es =>
      rw [hes] at he
      exact hsource.of_inside (Heap.inside_of_mem_elements? hes he)
  have hshape := hfinite.shape?_eq (hkept s hl)
  simp only [CollectionMapper.mapElement_eq]
  refine transfer_settles hc hnullable hcontains hl hr hid (hwithin 0).linkage
    mapper.transfer_ne_custom trivial fun S T reuse h => ?_
  obtain ⟨hu, rfl⟩ := sends_element hc hl.held hmapper hv h
  refine ⟨hasks _ (.element he (h.of_shape?_eq hshape.symm)), hu, ?_⟩
  exact .pure hc.values hl.held hc.values.target_null

variable {family : Family} {element : Option ShapeId}
  (hkind : targetShape.kind = .collection family element)

include hkind

/-- The elements settle one after the other. -/
theorem mapElements_settles {vs : List Value}
    (hes : vs ⊆ (start.heap.elements? frame.source).getD [frame.source])
    (hl : c.Leads pool mappings start s) (hr : s.Knows r)
    (hvs : ∀ v ∈ vs, c.source s.heap (sourceElement source sourceShape) v) :
    RunM.Settles (fun n => mapper.mapElements (Routine.run n) frame vs) s := by
  unfold CollectionMapper.mapElements
  induction vs generalizing s with
  | nil => exact .pure _
  | cons v vs ih =>
    simp only [List.mapM_cons]
    have hv := hvs v List.mem_cons_self
    refine .bind ?_ (fun n =>
      (mapElement_gives (hc.with _) (hwithin n) hm ht hmapper hkind hr hl.held hv).ensures) ?_
    · exact mapElement_settles hc hnullable hcontains hkept hid hwithin hm hs ht hsource hmapper
        hasks (hes List.mem_cons_self) hl hr hv
    · rintro w s₁ ⟨hl₁, -⟩
      refine .bind (p := fun _ _ => True) ?_ (fun n => .trivial _ s₁) fun ws s₂ _ => .pure _
      refine ih (fun _ h => hes (List.mem_cons_of_mem _ h)) (hc.values.leads_trans hl hl₁)
        (hl₁.knows r hr) fun v hv => ?_
      exact hc.values.source_later hl₁.later (hvs v (List.mem_cons_of_mem _ hv))

/-- Appending elements settles as converting them does. -/
theorem appendElements_settles (hfamily : family = .insertable) {a : Address} {vs : List Value}
    {before : Session} (hes : vs ⊆ (start.heap.elements? frame.source).getD [frame.source])
    (hbefore : c.Leads pool mappings start before) (hl : c.Leads pool mappings before s)
    (hr : s.Knows r) (hvs : ∀ v ∈ vs, c.source s.heap (sourceElement source sourceShape) v)
    (hb : c.building before.heap s.heap target a) :
    RunM.Settles (fun n => mapper.appendElements (Routine.run n) frame a vs) s := by
  unfold CollectionMapper.appendElements
  induction vs generalizing s with
  | nil => exact .pure _
  | cons v vs ih =>
    refine .bind ?_ (fun n => (appendElement_gives (hc.with _) (hwithin n) hm ht hmapper hkind
      hfamily hl hr hvs hb).ensures) ?_
    · refine .bind (p := fun _ _ => True) ?_ (fun n => .trivial _ s) fun w s' _ => .of_const trivial
      exact mapElement_settles hc hnullable hcontains hkept hid hwithin hm hs ht hsource hmapper
        hasks (hes List.mem_cons_self) (hc.values.leads_trans hbefore hl) hr
        (hvs v List.mem_cons_self)
    · rintro _ s₁ ⟨hl₁, hr₁, hb₁, hvs₁⟩
      exact ih (fun _ h => hes (List.mem_cons_of_mem _ h)) hl₁ hr₁ hvs₁ hb₁

omit hm hs hsource hasks hkind ht hid hkept in
/-- To find a container or to make one needs no other routine. -/
theorem container?_settles (hgeneric : mapper.kind = .genericInsertable) :
    RunM.Settles (fun n => mapper.container? (Routine.run n) frame) s := by
  obtain ⟨program, origin, hprogram, hrun, -⟩ := hmapper.construct hgeneric
  unfold CollectionMapper.container? CollectionMapper.newContainer?
  simp only [hprogram, hrun]
  refine .of_const ?_
  refine Ensures.of_eq (get_bind _ s) ?_
  split
  · exact trivial
  · have hmade : origin.run s =
        .ok (origin.make s.heap).1 { s with heap := (origin.make s.heap).2 } := rfl
    refine Ensures.of_eq ((bind_of_eq_ok hmade).trans (get_bind _ _)) ?_
    split <;> exact trivial

/-- A collection conversion settles once its elements do. -/
theorem mapper_settles (hl : c.Leads pool mappings start s) (hr : s.Knows r)
    (hv : c.source s.heap source frame.source)
    (hd : c.target s.heap target frame.destination) :
    RunM.Settles (fun n => mapper.run (Routine.run n) frame) s := by
  have hfamily := hmapper.family_eq hkind
  have hsame {s' : Session} (hl' : c.Leads pool mappings start s') :
      s'.heap.elements? frame.source = start.heap.elements? frame.source :=
    hsource.elements?_eq (hkept s' hl')
  have helements (s' : Session) : CollectionMapper.sourceElements frame.source s' =
      .ok ((s'.heap.elements? frame.source).getD [frame.source]) s' := rfl
  have hnew : RunM.Settles (fun n => do
      let items ← mapper.mapElements (Routine.run n) frame
        (← CollectionMapper.sourceElements frame.source)
      RunM.onHeap (Heap.alloc (.seq mapper.target items.toArray))) s := by
    refine .of_eq (fun n => bind_of_eq_ok (helements s)) ?_
    refine .bind (p := fun _ _ => True) ?_ (fun n => .trivial _ s) fun _ _ _ => .of_const trivial
    refine mapElements_settles hc hnullable hcontains hkept hid hwithin hm hs ht hsource hmapper
      hasks hkind ?_ hl hr (hc.collections.element hl.held.inv hs hv)
    rw [hsame hl]
    exact fun _ h => h
  unfold CollectionMapper.run
  split
  · exact .pure _
  · cases hk : mapper.kind with
    | array | typedList | untypedList => exact hnew
    | genericInsertable =>
      rw [hk] at hfamily
      obtain rfl : family = .insertable := hfamily
      refine .bind (container?_settles hc hnullable hcontains hwithin hmapper hk) (fun n =>
        (container?_gives (hc.with frame.state) ht hmapper hkind hk rfl hl.held hd).ensures) ?_
      rintro a? s₁ ⟨hl₁, hkeep, hknows, hb⟩
      have hl' := hc.values.leads_trans hl hl₁
      split
      · exact .pure _
      · rename_i a
        refine .of_eq (fun n => bind_of_eq_ok (helements s₁)) ?_
        refine .bind (p := fun _ _ => True) ?_ (fun n => .trivial _ s₁) fun _ _ _ => .pure _
        refine appendElements_settles hc hnullable hcontains hkept hid hwithin hm hs ht hsource
          hmapper hasks hkind rfl ?_ hl hl₁ (hknows r hr)
          (hc.collections.element hl₁.held.inv hs (hkeep _ _ hv)) (hb a rfl)
        rw [hsame hl']
        exact fun _ h => h

end

/-- A form settles if all that it asks for does. -/
theorem form_settles {form : Form} (hform : form.For pool m source target sourceShape targetShape)
    (hasks : ∀ next, form.Asks start.heap frame.source next →
      c.Settles pool mappings id start next) (hl : c.Leads pool mappings start s) (hr : s.Knows r)
    (hv : c.source s.heap source frame.source)
    (hd : c.target s.heap target frame.destination) :
    RunM.Settles (fun n => form.run (Routine.run n) frame) s := by
  cases hform with
  | @transfer t _ _ hcarries =>
    have hbetween : t.Between pool m.copyMode source target := ⟨_, _, _, _, hs, ht, hcarries⟩
    have hshape := hsource.shape?_eq (hkept s hl)
    refine transfer_settles hc hnullable hcontains hl hr hid (hwithin 0).linkage
      hbetween.ne_custom trivial fun S T reuse h => ⟨?_, ?_⟩
    · exact hasks _ (.transfer (h.of_shape?_eq hshape.symm))
    · exact sends_between hc hl.held hbetween hv (.pure hc.values hl.held hd) h
  | record _ hkind hform =>
    exact record_settles hc hnullable hcontains hkept hid hwithin hm hs ht hsource hform hasks hkind
      hl hr hv hd
  | collection hmapper =>
    obtain ⟨family, element, hkind⟩ :=
      CollectionKind.exists_collection_of_ofDescriptor? hmapper.kind
    exact mapper_settles hc hnullable hcontains hkept hid hwithin hm hs ht hsource hmapper hasks
      hkind hl hr hv hd
  | unresolved _ _ => exact .pure _

end

end

end Contract

end Reshape
