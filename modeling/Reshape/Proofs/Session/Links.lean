import Mathlib.Data.List.Nodup
import Reshape.Proofs.Session.Ledger

/-!
# Links and registries

A link notes where it has led to, beside the table of the registry that the routine comes from. The
two agree (`Session.Reachable.links_agree`). As long as the registry lives, to follow the link is
to ask the registry for the routine, whether the link has been followed before or not. Once the
registry is gone, what was noted is found only while the routine is held elsewhere.

The notes only grow (`Session.resolutions_prefix`), and so do the tables, in which each key stands
once. So a noted routine, which was in the table under the key of the link, is still the one there.
-/

namespace Reshape

namespace Session

variable {mappings : Mapping → Prop} {s s' : Session} {linkage : Linkage} {link : Link}
  {found : Routine}

/-! ## Notes only grow -/

/-- What is noted before stays noted, in front of what comes later. -/
def Noted (notes : List Resolution) (s : Session) : Prop := notes <+: s.resolutions

theorem Noted.resolution?_eq_some (h : Noted s.resolutions s')
    (hfound : s.resolution? linkage link = some found) :
    s'.resolution? linkage link = some found := by
  obtain ⟨more, hmore⟩ := h
  obtain ⟨note, hnote, hroutine⟩ := Option.map_eq_some_iff.mp hfound
  unfold resolution?
  rw [← hmore, List.find?_append, hnote, Option.some_or]
  exact congrArg some hroutine

theorem noted_noteResolution {notes : List Resolution} (linkage : Linkage) (link : Link)
    (routine : Routine) (h : Noted notes s) :
    Noted notes (s.noteResolution linkage link routine) := by
  unfold noteResolution
  split
  · exact h
  · exact h.trans (List.prefix_append _ _)

/-- To ask a registry for a routine leaves the notes as they are. -/
theorem resolutions_getOrCompile (registry : RegistryId) (source target : ShapeId)
    (mapping : Mapping) (s : Session) :
    Ensures (getOrCompile registry source target mapping) s
      (fun _ s' => s'.resolutions = s.resolutions) fun _ s' => s'.resolutions = s.resolutions := by
  let key : RoutineKey := ⟨source, target, mapping.id⟩
  cases hcached : s.cached? registry key with
  | some routine => exact .of_ok (getOrCompile_of_cached hcached) rfl
  | none =>
    refine .of_eq (getOrCompile_of_not_cached hcached) ?_
    unfold Ensures
    cases hbody : mapping.body s.pool key.source key.target with
    | error e => rw [compileRoutine_eq_error hbody]; exact rfl
    | ok body =>
      obtain ⟨routine, -, hrun⟩ := compileRoutine_eq_ok registry hbody
      rw [hrun]
      exact rfl

theorem resolutions_resolveDynamic (linkage : Linkage) (source target : ShapeId) (s : Session) :
    Ensures (resolveDynamic linkage source target) s
      (fun _ s' => s'.resolutions = s.resolutions) fun _ s' => s'.resolutions = s.resolutions := by
  have hnotes := resolutions_getOrCompile linkage.registry source target linkage.mapping s
  change Ensures (if s.registryAlive linkage.registry then
    (getOrCompile linkage.registry source target linkage.mapping).toRun
    else throw (.failed .registryDropped)) s _ _
  split
  · unfold Ensures CompileM.toRun at *
    cases hrun : getOrCompile linkage.registry source target linkage.mapping s with
    | ok r s' => rw [hrun] at hnotes; exact hnotes
    | error e s' => rw [hrun] at hnotes; exact hnotes
  · exact Ensures.throw rfl

/-- Only to follow a link notes anything, and only if it leads somewhere. -/
theorem resolutions_resolve (linkage : Linkage) (link : Link) (s : Session) :
    Ensures (resolve linkage link) s (fun _ s' => Noted s.resolutions s')
      fun _ s' => s'.resolutions = s.resolutions := by
  cases hlinked : s.linked? linkage link with
  | some routine => exact .of_ok (resolve_of_linked hlinked) List.prefix_rfl
  | none =>
    refine .of_eq (resolve_of_not_linked hlinked) (Ensures.bind
      ((resolutions_resolveDynamic linkage link.source link.target s).mono (fun r s' hs' => ?_)
        fun _ _ hs' => hs'))
    exact noted_noteResolution linkage link r (hs' ▸ List.prefix_rfl)

theorem noted_lasting (notes : List Resolution) : Lasting (Noted notes) where
  heap _ _ h := h
  calls _ _ h := h
  resolve linkage link s h := (resolutions_resolve linkage link s).mono (fun _ _ h' => h.trans h')
    fun _ s' h' => by
      unfold Noted
      rwa [h']
  resolveDynamic linkage source target s h :=
    (resolutions_resolveDynamic linkage source target s).mono
      (fun _ s' h' => by
        unfold Noted
        rwa [h'])
      fun _ s' h' => by
        unfold Noted
        rwa [h']

theorem noted_apply {notes : List Resolution} (h : Noted notes s) (step : Step) :
    Noted notes (step.apply s) := by
  have hlasting := noted_lasting notes
  cases step with
  | heap _ | calls _ | pool _ | hold _ | release _ | newRegistry | shareRegistry _
  | dropRegistry _ => exact h
  | getOrCompile registry source target mapping =>
    change Noted notes (if s.registryAlive registry then
      After (Session.getOrCompile registry source target mapping) s else s)
    have hsame : (After (Session.getOrCompile registry source target mapping) s).resolutions =
        s.resolutions := (resolutions_getOrCompile registry source target mapping s).after
    split
    · unfold Noted
      rwa [hsame]
    · exact h
  | resolve linkage link => exact (hlasting.resolve linkage link s h).after
  | run r depth source destination state =>
    exact (hlasting.run depth r source destination state s h).after
  | runProgram mapping program source destination state =>
    exact (runProgram_of_stable h (hlasting.stable (hlasting.run depthLimit) _)
      (fun _ _ h => h) program).after

/-- Whatever is done with a session, its notes stay in front of the later ones. -/
theorem resolutions_prefix (s : Session) (steps : List Step) :
    s.resolutions <+: (steps.foldl Step.apply s).resolutions := by
  have hall (s' : Session) (h : Noted s.resolutions s') :
      Noted s.resolutions (steps.foldl Step.apply s') := by
    induction steps generalizing s' with
    | nil => exact h
    | cons step steps ih => exact ih _ (noted_apply h step)
  exact hall s List.prefix_rfl

/-! ## Notes agree with tables -/

/-- Every reachable session has a history. -/
theorem Reachable.leadsTo (h : s.Reachable mappings) : ({} : Session).LeadsTo s := by
  induction h with
  | start => exact ⟨[], .refl⟩
  | withHeap _ heap ih => exact ih.apply (.heap heap)
  | withCalls _ calls ih => exact ih.apply (.calls calls)
  | withPool _ operation ih => exact ih.apply (.pool operation)
  | newRegistry _ ih => exact ih.apply .newRegistry
  | shareRegistry _ id ih => exact ih.apply (.shareRegistry id)
  | dropRegistry _ id ih => exact ih.apply (.dropRegistry id)
  | hold _ r ih => exact ih.apply (.hold r)
  | release _ r ih => exact ih.apply (.release r)
  | getOrCompile _ halive _ source target ih =>
    exact (ih.getOrCompile (exists_of_registryAlive halive) source target _).after
  | resolve _ _ link ih => exact ih.apply (.resolve _ link)
  | run _ _ depth source destination state ih =>
    exact ih.apply (.run _ depth source destination state)
  | runProgram _ _ program source destination state ih =>
    exact ih.apply (.runProgram _ program source destination state)

/-- A routine in the table of a registry is the one that is found under its key. -/
theorem cached?_of_mem_table {id : RegistryId} {r : Routine}
    (hnodup : ((s.table id).map Routine.key).Nodup) (hr : r ∈ s.table id) :
    s.cached? id r.key = some r := by
  rw [cached?_eq_find?]
  cases hfind : (s.table id).find? fun r' => r'.key = r.key with
  | none => exact absurd rfl (of_decide_eq_false (Bool.eq_false_iff.mpr
      (List.find?_eq_none.mp hfind r hr)))
  | some r' =>
    have hkey : r'.key = r.key := of_decide_eq_true (List.find?_some hfind :)
    have hmem := List.mem_of_find?_eq_some hfind
    rw [List.inj_on_of_nodup_map hnodup hmem hr hkey]

/-- Where the link of a routine has led to, the registry leads as well. -/
theorem Reachable.cached?_of_resolution? (h : s.Reachable mappings) {r : Routine} (hr : s.Knows r)
    (hfound : s.resolution? r.linkage link = some found) :
    s.cached? r.linkage.registry ⟨link.source, link.target, r.linkage.mapping.id⟩ = some found ∧
      found.linkage.registry = r.linkage.registry := by
  obtain ⟨owner, howned⟩ := h.coherent
  obtain ⟨cs, hhistory⟩ := h.leadsTo
  obtain ⟨-, howner, -⟩ := howned.madeIn hr
  obtain ⟨note, hnote, rfl⟩ := Option.map_eq_some_iff.mp hfound
  obtain ⟨hlinkage, hlink⟩ := Bool.and_eq_true_iff.mp (List.find?_some hnote :)
  obtain ⟨-, hknows, hanswers⟩ := howned.resolution note (List.mem_of_find?_eq_some hnote)
  rw [eq_of_beq hlinkage, howner, eq_of_beq hlink] at hanswers
  obtain ⟨i, kept, hkept, hmem⟩ := hknows
  obtain ⟨-, -, hregistry, -⟩ := howned.routine i kept hkept _ hmem
  obtain ⟨-, hnodup, -⟩ := hhistory.ledger r.linkage.registry
  rw [← hanswers.key]
  refine ⟨cached?_of_mem_table hnodup ?_, hanswers.registry⟩
  have hi : r.linkage.registry = ⟨i⟩ := hanswers.registry.symm.trans hregistry
  unfold table books registryWith?
  rw [hi, hkept]
  exact hmem

/-! ## Following links -/

/-- What a link leads to is what it has led to before, and stays so. -/
theorem noteResolution_of_resolution? (h : s.resolution? linkage link = some found) :
    s.noteResolution linkage link found = s :=
  if_pos (Option.isSome_iff_exists.mpr ⟨found, h⟩)

theorem resolution?_noteResolution (h : s.resolution? linkage link = none ∨
    s.resolution? linkage link = some found) :
    (s.noteResolution linkage link found).resolution? linkage link = some found := by
  rcases h with h | h
  · have hnot : s.isResolved linkage link = false := by
      unfold isResolved
      rw [h]
      rfl
    unfold noteResolution
    rw [hnot]
    have hnone := Option.map_eq_none_iff.mp h
    unfold resolution?
    change Option.map _ ((s.resolutions ++ _).find? _) = _
    rw [List.find?_append, hnone, Option.none_or]
    simp
  · rw [noteResolution_of_resolution? h]
    exact h

/-- While the registry lives, a link leads where the registry does. -/
theorem Reachable.resolve_eq_getOrCompile (h : s.Reachable mappings) {r : Routine} (hr : s.Knows r)
    (link : Link) (halive : s.registryAlive r.linkage.registry = true) :
    Session.resolve r.linkage link s =
      match Session.getOrCompile r.linkage.registry link.source link.target r.linkage.mapping s with
      | .ok found s' => .ok found (s'.noteResolution r.linkage link found)
      | .error e s' => .error (.failed (.compile e)) s' := by
  cases hresolution : s.resolution? r.linkage link with
  | some found =>
    obtain ⟨hcached, hregistry⟩ := h.cached?_of_resolution? hr hresolution
    have hlinked : s.linked? r.linkage link = some found := by
      refine Option.filter_eq_some_iff.mpr ⟨hresolution, ?_⟩
      rw [routineAlive, hregistry, halive, Bool.true_or]
    rw [resolve_of_linked hlinked, getOrCompile_of_cached hcached]
    dsimp only
    rw [noteResolution_of_resolution? hresolution]
  | none =>
    have hlinked : s.linked? r.linkage link = none := by
      rw [linked?, hresolution]
      rfl
    have hsearch : resolveDynamic r.linkage link.source link.target s =
        (Session.getOrCompile r.linkage.registry link.source link.target
          r.linkage.mapping).toRun s := by
      change (if s.registryAlive r.linkage.registry then _ else _ : RunM Routine) s = _
      rw [if_pos halive]
    rw [resolve_of_not_linked hlinked]
    simp only [bind, EStateM.bind, hsearch, CompileM.toRun]
    cases Session.getOrCompile r.linkage.registry link.source link.target r.linkage.mapping s <;>
      rfl

/-- Once the registry is gone, a link leads where it has led, if that is held elsewhere, and nowhere
if not. -/
theorem Reachable.resolve_of_dropped (h : s.Reachable mappings) {r : Routine} (hr : s.Knows r)
    (link : Link) (hgone : s.registryAlive r.linkage.registry = false) :
    Session.resolve r.linkage link s =
      match (s.resolution? r.linkage link).filter fun found => s.held.contains found.linkage.id with
      | some found => .ok found s
      | none => .error (.failed .registryDropped) s := by
  have hlinked : s.linked? r.linkage link =
      (s.resolution? r.linkage link).filter fun found => s.held.contains found.linkage.id := by
    unfold linked?
    cases hresolution : s.resolution? r.linkage link with
    | none => rfl
    | some found =>
      obtain ⟨-, hregistry⟩ := h.cached?_of_resolution? hr hresolution
      rw [Option.filter_some, Option.filter_some, routineAlive, hregistry, hgone, Bool.false_or]
  rw [← hlinked]
  cases hlast : s.linked? r.linkage link with
  | some found => exact resolve_of_linked hlast
  | none =>
    have hsearch : resolveDynamic r.linkage link.source link.target s =
        .error (.failed .registryDropped) s := by
      change (if s.registryAlive r.linkage.registry then _ else _ : RunM Routine) s = _
      rw [hgone]
      rfl
    rw [resolve_of_not_linked hlast]
    simp only [bind, EStateM.bind, hsearch]

/-- A link that is followed with success has led there. -/
theorem Reachable.resolution?_of_resolve (h : s.Reachable mappings) {r : Routine} (hr : s.Knows r)
    (hfound : Session.resolve r.linkage link s = .ok found s') :
    s'.resolution? r.linkage link = some found := by
  cases halive : s.registryAlive r.linkage.registry with
  | true =>
    rw [h.resolve_eq_getOrCompile hr link halive] at hfound
    have hnotes := resolutions_getOrCompile r.linkage.registry link.source link.target
      r.linkage.mapping s
    unfold Ensures at hnotes
    cases hrun : Session.getOrCompile r.linkage.registry link.source link.target
        r.linkage.mapping s with
    | error e s₁ =>
      rw [hrun] at hfound
      cases hfound
    | ok asked s₁ =>
      rw [hrun] at hfound hnotes
      cases hfound
      apply resolution?_noteResolution
      cases hresolution : s.resolution? r.linkage link with
      | none => exact .inl (by rw [resolution?, hnotes]; exact hresolution)
      | some known =>
        -- what was noted is in the table, so it is what the registry answers
        obtain ⟨hcached, -⟩ := h.cached?_of_resolution? hr hresolution
        cases (getOrCompile_of_cached hcached).symm.trans hrun
        exact .inr hresolution
  | false =>
    rw [h.resolve_of_dropped hr link halive] at hfound
    cases hheld : (s.resolution? r.linkage link).filter
        fun found => s.held.contains found.linkage.id with
    | none =>
      rw [hheld] at hfound
      cases hfound
    | some known =>
      rw [hheld] at hfound
      cases hfound
      exact (Option.filter_eq_some_iff.mp hheld).1

/-- In every session that can be had, and for every link of a routine that is known :

* while the registry of the routine lives, to follow the link is to ask the registry for the routine
  of its two shapes, with the same routine or the same error, and what comes of it is noted ;
* a link that has been followed with success leads there from then on, whatever else is done, and
  never counts as unresolved again ;
* to follow a link in vain changes nothing of what links have led to ;
* once the registry is gone, the link leads where it has led if that routine is held elsewhere, and
  otherwise the registry is reported as gone. Nothing is compiled either way, or changed at all. -/
theorem Reachable.links_agree (h : s.Reachable mappings) {r : Routine} (hr : s.Knows r)
    (link : Link) :
    (s.registryAlive r.linkage.registry = true → Session.resolve r.linkage link s =
      match Session.getOrCompile r.linkage.registry link.source link.target r.linkage.mapping s with
      | .ok found s' => .ok found (s'.noteResolution r.linkage link found)
      | .error e s' => .error (.failed (.compile e)) s') ∧
    (∀ found s', Session.resolve r.linkage link s = .ok found s' →
      s'.resolution? r.linkage link = some found) ∧
    (∀ found, s.resolution? r.linkage link = some found → ∀ steps : List Step,
      (steps.foldl Step.apply s).resolution? r.linkage link = some found) ∧
    (s.isResolved r.linkage link = true → ∀ steps : List Step,
      (steps.foldl Step.apply s).isResolved r.linkage link = true) ∧
    (∀ stop s', Session.resolve r.linkage link s = .error stop s' →
      s'.resolutions = s.resolutions) ∧
    (s.registryAlive r.linkage.registry = false → Session.resolve r.linkage link s =
      match (s.resolution? r.linkage link).filter fun found => s.held.contains found.linkage.id with
      | some found => .ok found s
      | none => .error (.failed .registryDropped) s) := by
  have hstays (found : Routine) (hfound : s.resolution? r.linkage link = some found)
      (steps : List Step) :
      (steps.foldl Step.apply s).resolution? r.linkage link = some found :=
    Noted.resolution?_eq_some (s.resolutions_prefix steps) hfound
  refine ⟨h.resolve_eq_getOrCompile hr link, fun found s' hfound => ?_, hstays,
    fun hresolved steps => ?_, fun stop s' hfailed => ?_, h.resolve_of_dropped hr link⟩
  · exact h.resolution?_of_resolve hr hfound
  · obtain ⟨found, hfound⟩ := Option.isSome_iff_exists.mp hresolved
    exact Option.isSome_iff_exists.mpr ⟨found, hstays found hfound steps⟩
  · have hnotes := resolutions_resolve r.linkage link s
    unfold Ensures at hnotes
    rw [hfailed] at hnotes
    exact hnotes

end Session

/-! ## A routine that is its own part -/

namespace Knotted

def node : Descriptor :=
  .ofRecord "Node" [⟨"value", ShapeId.int, {}⟩, ⟨"next", ⟨7⟩, {}⟩]

def operations : List Pool.Operation := [.register node]

def session : Session :=
  .compiling operations {} Mapping.initial ⟨7⟩ ⟨7⟩

def routine : Routine :=
  Session.compiled operations {} Mapping.initial ⟨7⟩ ⟨7⟩

/-- The link for the member of the same shape. -/
def link : Link := ⟨⟨0⟩, ⟨7⟩, ⟨7⟩⟩

/-- The link has led back to the routine, which is held when the registry goes. -/
def kept : Session :=
  ((After (Session.resolve routine.linkage link) session).hold routine).dropRegistry ⟨0⟩

theorem cached : session.cached? ⟨0⟩ ⟨⟨7⟩, ⟨7⟩, Mapping.initial.id⟩ = some routine :=
  Session.cached?_compiling operations {} Mapping.initial ⟨7⟩ ⟨7⟩ (by decide +kernel)

theorem reachable : session.Reachable (· = Mapping.initial) :=
  Session.reachable_compiling operations {} Mapping.initial ⟨7⟩ ⟨7⟩

theorem knows : session.Knows routine := by
  obtain ⟨owner, howned⟩ := reachable.coherent
  exact (howned.registry_of_cached? cached).1

theorem reachable_kept : kept.Reachable (· = Mapping.initial) :=
  ((reachable.resolve knows link).hold routine).dropRegistry ⟨0⟩

/-- A registry that is gone has not forgotten its routines. -/
theorem knows_kept : kept.Knows routine := by
  obtain ⟨owner, howned⟩ := reachable_kept.coherent
  obtain ⟨cs, hhistory⟩ := Session.leadsTo_foldl session
    [.resolve routine.linkage link, .hold routine, .dropRegistry ⟨0⟩]
  exact (howned.registry_of_cached? (hhistory.cached?_eq_some cached)).1

theorem registry_eq : routine.linkage.registry = ⟨0⟩ := by decide +kernel

/-- The registry has the routine that the link asks for. -/
theorem getOrCompile_eq : Session.getOrCompile routine.linkage.registry link.source link.target
    routine.linkage.mapping session = .ok routine session := by
  have hid : routine.linkage.mapping.id = Mapping.initial.id := by decide +kernel
  refine Session.getOrCompile_of_cached ?_
  rw [registry_eq, hid]
  exact cached

end Knotted

/-- The link leads back to the routine. Once the registry is gone it still does, as long as the
routine is held. -/
theorem Session.Reachable.links_agree_knotted :
    (∃ s', Session.resolve Knotted.routine.linkage Knotted.link Knotted.session =
      .ok Knotted.routine s') ∧
    Knotted.kept.registryAlive Knotted.routine.linkage.registry = false ∧
    Session.resolve Knotted.routine.linkage Knotted.link Knotted.kept =
      .ok Knotted.routine Knotted.kept ∧
    Session.resolve Knotted.routine.linkage Knotted.link (Knotted.kept.release Knotted.routine) =
      .error (.failed .registryDropped) (Knotted.kept.release Knotted.routine) := by
  have halive : Knotted.session.registryAlive Knotted.routine.linkage.registry = true := by
    rw [Knotted.registry_eq]
    decide +kernel
  have hgone : Knotted.kept.registryAlive Knotted.routine.linkage.registry = false := by
    rw [Knotted.registry_eq]
    decide +kernel
  obtain ⟨hasks, hleads, -⟩ :=
    Session.Reachable.links_agree Knotted.reachable Knotted.knows Knotted.link
  have hfollowed := hasks halive
  rw [Knotted.getOrCompile_eq] at hfollowed
  have hnoted : Knotted.kept.resolution? Knotted.routine.linkage Knotted.link =
      some Knotted.routine := by
    have hled := hleads _ _ hfollowed
    unfold Knotted.kept After
    rw [hfollowed]
    exact hled
  have hreleased : (Knotted.kept.release Knotted.routine).resolution? Knotted.routine.linkage
      Knotted.link = some Knotted.routine := hnoted
  obtain ⟨-, -, -, -, -, hheld⟩ :=
    Session.Reachable.links_agree Knotted.reachable_kept Knotted.knows_kept Knotted.link
  obtain ⟨-, -, -, -, -, hlost⟩ := Session.Reachable.links_agree
    (Knotted.reachable_kept.release Knotted.routine) Knotted.knows_kept Knotted.link
  refine ⟨⟨_, hfollowed⟩, hgone, (hheld hgone).trans ?_, (hlost hgone).trans ?_⟩
  · have hmem : Knotted.kept.held.contains Knotted.routine.linkage.id = true := by decide +kernel
    rw [hnoted, Option.filter_some, if_pos hmem]
  · have hmem : (Knotted.kept.release Knotted.routine).held.contains Knotted.routine.linkage.id =
        false := by decide +kernel
    rw [hreleased, Option.filter_some, if_neg (Bool.eq_false_iff.mp hmem)]

end Reshape
