import Reshape.Proofs.Routine.Compiled
import Reshape.Proofs.Session.Attained
import Reshape.Proofs.Session.Live

/-!
# Requests for routines

A value that goes through a routine asks for it by two shapes. Which ones these are is said by the
transfer and by the shape of the value (`Transfer.Asks`), and whatever the way in which the routine
is looked for, it is found if it has a body (`Session.Asks.opens`). So runs that ask for routines of
one body end alike (`Session.Asks.attained`), and a routine that does nothing but ask for another
one can be left out (`Session.Asks.step`).
-/

namespace Reshape

/-- Values of the shape `own` go through the routine for two shapes, into what is there already
where `reuse` is set, and are stored in place where `inline` is set. -/
inductive Transfer.Asks (own : ShapeId) : Transfer → ShapeId → ShapeId → Bool → Bool → Prop
  | linked (link : Link) (reuse inline : Bool) :
    Asks own (.linked link reuse inline) link.source link.target reuse inline
  | dynamic (target : Option ShapeId) (reuse inline : Bool) :
    Asks own (.dynamic target reuse inline) own (target.getD own) reuse inline

/-- In the session, the computation looks for the routine for two shapes under the mapping, in a
registry that lives. -/
def Session.Asks (mappings : Mapping → Prop) (mapping : Mapping) (s : Session)
    (source target : ShapeId) (x : RunM Routine) : Prop :=
  ∃ owner linkage, s.Owned mappings owner ∧ linkage.mapping = mapping ∧
    s.registryAlive linkage.registry = true ∧
    s.Searches mappings owner linkage source target x

/-- What is found in a registry that lives is live. -/
theorem Session.Finds.live {mappings : Mapping → Prop} {owner : Nat → Linkage} {s s' : Session}
    {linkage : Linkage} {source target : ShapeId} {r : Routine}
    (h : s.Finds mappings owner linkage source target r s')
    (halive : s.registryAlive linkage.registry = true) :
    s.FindsLive mappings linkage.mapping.id source target r s' := by
  refine ⟨.of_evolves h.evolves h.heap, h.heap, ⟨h.knows, ?_, ?_⟩, ?_, ?_⟩
  · rw [h.evolves.alive, h.answers.registry]
    exact halive
  · rw [h.answers.key]
  · rw [h.answers.key]
  · rw [h.answers.key]

section

variable {mappings : Mapping → Prop} {mapping : Mapping} {pool : Pool} {start : Heap}
  {s t : Session} {r : Routine} {source target source' target' own : ShapeId}
  {x y : RunM Routine} (hallows : mappings mapping)
  (hunique : ∀ m m', mappings m → mappings m' → m.id = m'.id → m = m')

/-! ## Routines that ask -/

section

variable (hs : s.Holds mappings pool start) (hr : r.Live mapping.id s)

include hallows hunique hs hr

theorem Routine.Live.mapping_eq : r.linkage.mapping = mapping := by
  obtain ⟨_, -, -, -, hmapping, hid, -⟩ := hr.exists_owner hs
  exact hunique _ _ hmapping hallows hid

/-- A routine that is there already need not be looked for. -/
theorem Routine.Live.asks_pure :
    s.Asks mappings mapping r.key.source r.key.target (pure r) := by
  obtain ⟨owner, howned, -, -, -, -, hmade⟩ := hr.exists_owner hs
  have heq := hr.mapping_eq hallows hunique hs
  refine ⟨owner, r.linkage, howned, heq, hr.alive, ⟨.refl howned, rfl, hr.knows, ?_, rfl⟩, rfl⟩
  rw [← hmade.mapping]

theorem Routine.Live.asks_resolve (link : Link) :
    s.Asks mappings mapping link.source link.target (Session.resolve r.linkage link) := by
  obtain ⟨owner, howned, hlt, howner, -, -, -⟩ := hr.exists_owner hs
  exact ⟨owner, r.linkage, howned, hr.mapping_eq hallows hunique hs, hr.alive,
    Session.resolve_searches howned hlt howner link⟩

theorem Routine.Live.asks_resolveDynamic (source target : ShapeId) :
    s.Asks mappings mapping source target (Session.resolveDynamic r.linkage source target) := by
  obtain ⟨owner, howned, -, -, hmapping, -, -⟩ := hr.exists_owner hs
  exact ⟨owner, r.linkage, howned, hr.mapping_eq hallows hunique hs, hr.alive,
    Session.resolveDynamic_searches howned hmapping source target⟩

/-- A transfer asks for the routine that is said of it, and runs what it finds. -/
theorem Transfer.run_asks {transfer : Transfer} {reuse inline : Bool}
    (h : transfer.Asks own source target reuse inline) {frame : Frame}
    (hlinkage : frame.linkage = r.linkage) {v : Value} (hown : s.heap.shape? v = some own)
    (d : Value) : ∃ x, s.Asks mappings mapping source target x ∧ ∀ invoke : Invoke,
      transfer.run invoke frame (return v) (return d) s = (placed inline <$> (x >>= fun r =>
        invoke r v (if reuse then d else .null) frame.state)) s := by
  have hreused : reused reuse (return d) = (return if reuse then d else .null : RunM Value) := by
    cases reuse <;> rfl
  cases h with
  | linked link _ _ =>
    refine ⟨_, hr.asks_resolve hallows hunique hs link, fun invoke => ?_⟩
    have hnull : ¬v.isNull = true := by
      intro hnull
      rw [Value.isNull_iff.mp hnull] at hown
      cases hown
    simp only [Transfer.run, byLink, pure_bind, hreused, if_neg hnull, hlinkage]
  | dynamic target _ _ =>
    refine ⟨_, hr.asks_resolveDynamic hallows hunique hs _ (target.getD _), fun invoke => ?_⟩
    simp only [Transfer.run, byShape, pure_bind, hreused, hlinkage, map_eq_pure_bind, bind_assoc]
    refine (get_bind _ s).trans ?_
    rw [hown]
    dsimp only
    rw [bind_assoc]

end

/-! ## What is asked for -/

namespace Session.Asks

include hallows hunique

/-- A routine that has a body is found. -/
theorem opens (hs : s.Holds mappings pool start) (hx : s.Asks mappings mapping source target x)
    {body : Body} (hbody : mapping.body pool source target = .ok body) :
    Succeeds x s fun r s' => s.Precedes mappings s' ∧ s.Same s' ∧ r.Live mapping.id s' ∧
      r.body = body := by
  obtain ⟨owner, linkage, howned, rfl, halive, hsearches⟩ := hx
  unfold Searches Ensures at hsearches
  cases hxs : x s with
  | error stop s' =>
    rw [hxs] at hsearches
    obtain ⟨e, -, he⟩ := hsearches.2.2.exists_error halive
    rw [hs.pool_eq, hbody] at he
    cases he
  | ok r s' =>
    rw [hxs] at hsearches
    obtain ⟨hfinds, hcalls⟩ := hsearches
    obtain ⟨-, hr⟩ := hfinds.body hunique hallows
    rw [hs.pool_eq, hbody] at hr
    obtain ⟨hl, -, hlive, -⟩ := hfinds.live halive
    exact ⟨r, s', hxs, hl, ⟨hfinds.heap, hcalls⟩, hlive, (Except.ok.inj hr).symm⟩

/-- To run a routine that has been found takes some depth. -/
theorem run_zero (hs : s.Holds mappings pool start)
    (hx : s.Asks mappings mapping source target x)
    (hbody : ∃ body, mapping.body pool source target = .ok body) (v d state : Value) :
    ∃ s', (x >>= fun r => r.run 0 v d state) s = .error .tooDeep s' := by
  obtain ⟨body, hbody⟩ := hbody
  obtain ⟨r, s', hxs, -⟩ := hx.opens hallows hunique hs hbody
  exact ⟨s', bind_of_eq_ok hxs⟩

/-- Runs of routines of one body end alike, whatever their depth. -/
theorem attained (hpool : t.pool = s.pool) (hsame : s.Same t)
    (hx : s.Asks mappings mapping source target x)
    (hy : t.Asks mappings mapping source' target' y)
    (hbody : mapping.body s.pool source' target' = mapping.body s.pool source target)
    (depth : Nat) (v d state : Value) :
    Attained Session.Same (x >>= fun r => r.run depth v d state)
      (fun n => y >>= fun r => r.run n v d state) s t := by
  obtain ⟨owner, linkage, -, rfl, halive, hsearches⟩ := hx
  obtain ⟨owner', linkage', -, heq, halive', hsearches'⟩ := hy
  exact .of_run (hsearches.alike hunique (Routine.run_peers hunique depth) hpool hsame hallows heq
    halive halive' hbody hsearches' v d state)

/-- A routine that only asks for another one is left out. -/
theorem step (hs : s.Holds mappings pool start) (hx : s.Asks mappings mapping source target x)
    {transfer : Transfer} {count : Nat} (hproper : transfer.Proper)
    (hbody : mapping.body pool source target = .ok (.program
      ⟨.returns (transfer.code (.argument .source) (.argument .destination)), count⟩))
    {reuse : Bool} {v : Value} (hown : s.heap.shape? v = some own)
    (hasks : transfer.Asks own source' target' reuse false) (d state : Value) :
    ∃ y s', s.Precedes mappings s' ∧ s.Same s' ∧ s'.Asks mappings mapping source' target' y ∧
      ∀ n, (x >>= fun r => r.run (n + 1) v d state) s =
        (y >>= fun r => r.run n v (if reuse then d else .null) state) s' := by
  obtain ⟨r, s', hxs, hl, hsame, hr, hrbody⟩ := hx.opens hallows hunique hs hbody
  have hown' : s'.heap.shape? v = some own := by rw [hsame.heap, hown]
  let frame : Frame := ⟨v, d, state, r.linkage⟩
  have hlinkage : frame.linkage = r.linkage := rfl
  obtain ⟨y, hy, hrun⟩ :=
    Transfer.run_asks hallows hunique (hs.precedes hl) hr hasks hlinkage hown' d
  refine ⟨y, s', hl, hsame, hy, fun n => ?_⟩
  rw [bind_of_eq_ok hxs, Routine.run_succ, hrbody, Body.run, Transfer.run_code hproper]
  exact (hrun _).trans (congrFun (id_map _) s')

end Session.Asks

end

end Reshape
