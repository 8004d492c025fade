import Reshape.Proofs.Session.Reachable

/-!
# What registries keep

How a session came about (`Session.History`) is told by the compilations on the way : between two of
them, no registry keeps other routines or counts other compilations (`Session.Quiet`). A routine is
compiled if its key is missing, so tables only grow (`Session.History.table_prefix`), and the
compilations that have not failed are the keys of the table, each of them once
(`Session.History.ledger`).

Every use of a session has a history (`Session.leadsTo_foldl`). Runs compile wherever a link is
followed for the first time or a value has a shape that is new, in routines within each other, and
may fail anywhere ; that they keep a property takes no more than that finding routines keeps it
(`Session.Lasting.run`).
-/

namespace Reshape

/-! ## Tables -/

namespace Session

variable {s s' : Session} {id registry : RegistryId}

/-- The routines that a registry keeps, and the number of compilations that it has counted. A
registry that is not made yet has neither. -/
def books (s : Session) (id : RegistryId) : List Routine × Nat :=
  ((s.registryWith? id).map fun r => (r.routines, r.compiles)).getD ([], 0)

/-- The routines that a registry keeps. -/
def table (s : Session) (id : RegistryId) : List Routine := (s.books id).1

/-- The number of compilations for a registry, failed ones included. -/
def compileCount (s : Session) (id : RegistryId) : Nat := (s.books id).2

theorem cached?_eq_find? (s : Session) (id : RegistryId) (key : RoutineKey) :
    s.cached? id key = (s.table id).find? fun r => r.key = key := by
  unfold cached? table books
  cases s.registryWith? id with
  | none => rfl
  | some registry => rfl

theorem books_modifyRegistry (f : Registry → Registry) (i : RegistryId) :
    (s.modifyRegistry id f).books i = if id = i then
      ((s.registryWith? i).map fun r => ((f r).routines, (f r).compiles)).getD ([], 0)
      else s.books i := by
  unfold books registryWith?
  rw [getElem?_registries_modifyRegistry]
  by_cases hid : id = i
  · subst hid
    rw [if_pos rfl, if_pos rfl, Option.map_map]
    rfl
  · have hindex : id.index ≠ i.index := fun h => hid (congrArg RegistryId.mk h)
    rw [if_neg hid, if_neg hindex]

theorem not_mem_keys_of_cached?_eq_none {key : RoutineKey} (h : s.cached? id key = none) :
    key ∉ (s.table id).map Routine.key := by
  rw [cached?_eq_find?, List.find?_eq_none] at h
  intro hmem
  obtain ⟨r, hr, hkey⟩ := List.mem_map.mp hmem
  exact h r hr (decide_eq_true hkey)

/-- No registry keeps other routines, or has counted other compilations. -/
def Quiet (s s' : Session) : Prop := s'.books = s.books

theorem Quiet.of_registries (h : s'.registries = s.registries) : s.Quiet s' := by
  funext i
  rw [books, books, registryWith?, registryWith?, h]

/-- A change of the owners of a registry. -/
theorem Quiet.modifyRegistry {f : Registry → Registry}
    (hroutines : ∀ registry, (f registry).routines = registry.routines)
    (hcompiles : ∀ registry, (f registry).compiles = registry.compiles) :
    s.Quiet (s.modifyRegistry id f) := by
  funext i
  rw [books_modifyRegistry]
  split
  · simp only [hroutines, hcompiles]
    rfl
  · rfl

/-- A new registry is empty. -/
theorem Quiet.newRegistry (s : Session) : s.Quiet s.newRegistry.2 := by
  funext i
  change (((s.registries ++ [({} : Registry)])[i.index]?).map _).getD _ = _
  unfold books registryWith?
  rw [List.getElem?_append]
  split
  · rfl
  · rename_i hge
    rw [List.getElem?_eq_none (Nat.le_of_not_lt hge)]
    cases hnew : ([({} : Registry)])[i.index - s.registries.length]? with
    | none => rfl
    | some registry =>
      obtain rfl := List.mem_singleton.mp (List.mem_of_getElem? hnew)
      rfl

/-! ## Compilations -/

section

variable (hregistry : ∃ known, s.registryWith? registry = some known)

include hregistry

theorem books_counting (i : RegistryId) : (s.counting registry).books i =
    (s.table i, s.compileCount i + if registry = i then 1 else 0) := by
  obtain ⟨known, hknown⟩ := hregistry
  rw [counting, books_modifyRegistry]
  split
  · rename_i heq
    subst heq
    rw [table, compileCount, books, hknown]
    rfl
  · rfl

theorem books_keeping {r : Routine} (hr : r.linkage.registry = registry) (i : RegistryId) :
    (s.keeping r).books i = (s.table i ++ if registry = i then [r] else [], s.compileCount i) := by
  obtain ⟨known, hknown⟩ := hregistry
  subst hr
  rw [keeping, books_modifyRegistry]
  split
  · rename_i heq
    subst heq
    change (Option.map _ (s.registryWith? r.linkage.registry)).getD _ = _
    rw [table, compileCount, books, hknown]
    rfl
  · rw [List.append_nil]
    rfl

end

end Session

/-- A compilation for a registry, and the pool that it has had to do with. -/
structure Compilation where
  registry : RegistryId
  key : RoutineKey
  mapping : Mapping
  pool : Pool

/-- There is no body for the key. -/
def Compilation.fails (c : Compilation) : Bool :=
  !(c.mapping.body c.pool c.key.source c.key.target).isOk

namespace Session

variable {s s' : Session} {registry : RegistryId} {key : RoutineKey} {mapping : Mapping}

/-- What a compilation does to the registries : it is counted, and if it has not failed, the routine
comes at the end of the table. -/
theorem compileRoutine_books (hregistry : ∃ known, s.registryWith? registry = some known) :
    Ensures (compileRoutine registry key mapping) s
      (fun r s' => (Compilation.mk registry key mapping s.pool).fails = false ∧ r.key = key ∧
        ∀ i, s'.books i = (s.table i ++ if registry = i then [r] else [],
          s.compileCount i + if registry = i then 1 else 0))
      fun _ s' => (Compilation.mk registry key mapping s.pool).fails = true ∧
        ∀ i, s'.books i = (s.table i, s.compileCount i + if registry = i then 1 else 0) := by
  unfold Ensures Compilation.fails
  cases hbody : mapping.body s.pool key.source key.target with
  | error e =>
    rw [compileRoutine_eq_error hbody]
    exact ⟨rfl, books_counting hregistry⟩
  | ok body =>
    obtain ⟨r, hr, hrun⟩ := compileRoutine_eq_ok registry hbody
    rw [hrun]
    have hcounted : ∃ known, (s.counting registry).registryWith? registry = some known := by
      obtain ⟨known, hknown⟩ := hregistry
      refine ⟨{ known with compiles := known.compiles + 1 }, ?_⟩
      rw [registryWith?, counting, getElem?_registries_modifyRegistry, if_pos rfl]
      exact congrArg (Option.map _) hknown
    refine ⟨rfl, by rw [hr], fun i => ?_⟩
    have hbooks := books_counting hregistry i
    rw [books_keeping hcounted (by rw [hr]), table, compileCount, hbooks]

/-! ## Histories -/

/-- The session comes of `s₀` by these compilations, in this order. A key is compiled that its
registry does not have. -/
inductive History (s₀ : Session) : List Compilation → Session → Prop
  | refl : History s₀ [] s₀
  | quiet {cs s s'} (h : History s₀ cs s) (hquiet : s.Quiet s') : History s₀ cs s'
  | compile {cs s} (h : History s₀ cs s) {registry : RegistryId} {source target : ShapeId}
    {mapping : Mapping} (hregistry : ∃ known, s.registryWith? registry = some known)
    (hmissing : s.cached? registry ⟨source, target, mapping.id⟩ = none) :
    History s₀ (cs ++ [⟨registry, ⟨source, target, mapping.id⟩, mapping, s.pool⟩])
      (After (compileRoutine registry ⟨source, target, mapping.id⟩ mapping) s)

/-- What the compilation does to the registries : its own counts it, and keeps a routine for its key
if there is one. -/
def Records (c : Compilation) (s s' : Session) : Prop :=
  ∃ made : List Routine, made.map Routine.key = (if c.fails then [] else [c.key]) ∧
    ∀ i, s'.books i = (s.table i ++ if c.registry = i then made else [],
      s.compileCount i + if c.registry = i then 1 else 0)

theorem records_compileRoutine (hregistry : ∃ known, s.registryWith? registry = some known) :
    Records ⟨registry, key, mapping, s.pool⟩ s (After (compileRoutine registry key mapping) s) := by
  refine Ensures.after ((compileRoutine_books hregistry).mono ?_ ?_)
  · rintro r s' ⟨hfails, hkey, hbooks⟩
    refine ⟨[r], ?_, hbooks⟩
    rw [hfails, ← hkey]
    rfl
  · rintro e s' ⟨hfails, hbooks⟩
    refine ⟨[], by rw [hfails]; rfl, fun i => ?_⟩
    rw [hbooks, ite_self, List.append_nil]

namespace History

variable {s₀ : Session} {cs cs' : List Compilation}

theorem trans (h : s₀.History cs s) (h' : s.History cs' s') : s₀.History (cs ++ cs') s' := by
  induction h' with
  | refl =>
    rw [List.append_nil]
    exact h
  | quiet _ hquiet ih => exact ih.quiet hquiet
  | compile _ hregistry hmissing ih =>
    rw [← List.append_assoc]
    exact ih.compile hregistry hmissing

/-- Nothing is taken from a table. -/
theorem table_prefix (h : s₀.History cs s) (i : RegistryId) : s₀.table i <+: s.table i := by
  induction h with
  | refl => exact List.prefix_rfl
  | @quiet cs s s' _ hquiet ih =>
    rw [show s'.table i = s.table i from congrArg Prod.fst (congrFun hquiet i)]
    exact ih
  | @compile cs s _ registry source target mapping hregistry _ ih =>
    obtain ⟨made, -, hbooks⟩ : Records ⟨_, ⟨source, target, mapping.id⟩, mapping, _⟩ s _ :=
      records_compileRoutine hregistry
    have htable := congrArg Prod.fst (hbooks i)
    exact ih.trans ⟨_, htable.symm⟩

/-- A key that is bound stays bound to its routine. -/
theorem cached?_eq_some (h : s₀.History cs s) {key : RoutineKey} {r : Routine}
    (hcached : s₀.cached? registry key = some r) : s.cached? registry key = some r := by
  rw [cached?_eq_find?] at hcached ⊢
  obtain ⟨more, hmore⟩ := h.table_prefix registry
  rw [← hmore, List.find?_append, hcached, Option.some_or]

/-- A history that starts with nothing says what all registries keep : the keys that were compiled
and have not failed, in this order and each of them once. -/
theorem ledger (h : History {} cs s) (i : RegistryId) :
    (s.table i).map Routine.key =
        (cs.filter fun c => c.registry = i ∧ c.fails = false).map Compilation.key ∧
      ((s.table i).map Routine.key).Nodup ∧
      s.compileCount i = cs.countP fun c => c.registry = i := by
  induction h with
  | refl => exact ⟨rfl, List.nodup_nil, rfl⟩
  | @quiet cs s s' _ hquiet ih =>
    have hbooks : s'.books i = s.books i := congrFun hquiet i
    rw [table, compileCount, hbooks]
    exact ih
  | @compile cs s _ registry source target mapping hregistry hmissing ih =>
    let key : RoutineKey := ⟨source, target, mapping.id⟩
    let c : Compilation := ⟨registry, key, mapping, s.pool⟩
    obtain ⟨made, hmade, hbooks⟩ : Records c s _ := records_compileRoutine hregistry
    obtain ⟨hkeys, hnodup, hcount⟩ := ih
    have htable := congrArg Prod.fst (hbooks i)
    have hcompiles := congrArg Prod.snd (hbooks i)
    by_cases hi : registry = i
    · subst hi
      have htable' : (After (compileRoutine registry key mapping) s).table registry =
          s.table registry ++ made := by rw [table, htable, if_pos rfl]
      rw [htable', List.map_append, hmade, hkeys, List.filter_append, List.map_append,
        List.countP_append, compileCount, hcompiles, hcount, List.countP_singleton]
      have hkept : (([c].filter fun c => c.registry = registry ∧ c.fails = false).map
          Compilation.key) = if c.fails then [] else [key] := by
        cases hfails : c.fails <;> simp [List.filter, hfails, c]
      refine ⟨by rw [hkept], ?_, by simp [c]⟩
      rw [← hkeys]
      split
      · rwa [List.append_nil]
      · refine List.nodup_append.mpr ⟨hnodup, List.pairwise_singleton _ _, ?_⟩
        rintro _ hmem _ hsingle rfl
        rw [List.mem_singleton.mp hsingle] at hmem
        exact not_mem_keys_of_cached?_eq_none hmissing hmem
    · have hother : (After (compileRoutine registry key mapping) s).table i = s.table i := by
        rw [table, htable, if_neg hi, List.append_nil]
      rw [hother, List.filter_append, List.countP_append, compileCount, hcompiles, hcount,
        List.countP_singleton]
      have hkept : ([c].filter fun c => c.registry = i ∧ c.fails = false) = [] := by
        simp [List.filter, c, hi]
      refine ⟨by rw [hkept, List.append_nil, hkeys], hnodup, by simp [c, hi]⟩

end History

end Session

/-! ## Runs -/

/-- A property that does not depend on the heap and the record of calls, and that finding routines
keeps. -/
structure Session.Lasting (p : Session → Prop) : Prop where
  heap : ∀ s heap, p s → p { s with heap := heap }
  calls : ∀ s calls, p s → p { s with calls := calls }
  resolve : ∀ linkage link, RunM.Keeps p (Session.resolve linkage link)
  resolveDynamic : ∀ linkage source target,
    RunM.Keeps p (Session.resolveDynamic linkage source target)

namespace Session.Lasting

variable {p : Session → Prop} (h : Session.Lasting p)

include h

theorem stable {invoke : Invoke} (hinvoke : ∀ r v d state, RunM.Keeps p (invoke r v d state))
    (frame : Frame) : Session.Stable p invoke frame :=
  ⟨h.heap, h.calls, fun _ _ _ => .bind (h.resolve _ _) fun _ => hinvoke _ _ _ _,
    fun _ _ _ _ => .bind (h.resolveDynamic _ _ _) fun _ => hinvoke _ _ _ _⟩

/-- Runs keep it, whatever their depth. -/
theorem run (depth : Nat) (r : Routine) (source destination state : Value) :
    RunM.Keeps p (r.run depth source destination state) := by
  induction depth generalizing r source destination state with
  | zero => exact .throw _
  | succ depth ih =>
    have hstable := h.stable ih ⟨source, destination, state, r.linkage⟩
    unfold Routine.run
    dsimp only
    split
    · exact hstable.runProgram _
    · exact hstable.runMapper _
    · exact .pure _

end Session.Lasting

namespace Session

variable {s₀ s s' : Session}

/-- The session comes of `s₀` by some compilations. -/
def LeadsTo (s₀ s : Session) : Prop := ∃ cs, s₀.History cs s

namespace LeadsTo

theorem quiet (h : s₀.LeadsTo s) (hquiet : s.Quiet s') : s₀.LeadsTo s' := by
  obtain ⟨cs, h⟩ := h
  exact ⟨cs, h.quiet hquiet⟩

/-- Asking a registry for a routine leads to later states of it only. -/
theorem getOrCompile (h : s₀.LeadsTo s) {registry : RegistryId}
    (hregistry : ∃ known, s.registryWith? registry = some known) (source target : ShapeId)
    (mapping : Mapping) :
    Ensures (Session.getOrCompile registry source target mapping) s (fun _ => s₀.LeadsTo)
      fun _ => s₀.LeadsTo := by
  cases hcached : s.cached? registry ⟨source, target, mapping.id⟩ with
  | some routine => exact .of_ok (getOrCompile_of_cached hcached) h
  | none =>
    refine .of_eq (getOrCompile_of_not_cached hcached) ?_
    obtain ⟨cs, h⟩ := h
    have hcompile : s₀.LeadsTo _ := ⟨_, h.compile hregistry hcached⟩
    unfold Ensures
    unfold After at hcompile
    dsimp only
    cases hrun : compileRoutine registry ⟨source, target, mapping.id⟩ mapping s with
    | ok r s' => rw [hrun] at hcompile; exact hcompile
    | error e s' => rw [hrun] at hcompile; exact hcompile

theorem resolveDynamic (linkage : Linkage) (source target : ShapeId) :
    RunM.Keeps s₀.LeadsTo (Session.resolveDynamic linkage source target) := by
  intro s h
  change Ensures (if s.registryAlive linkage.registry then
    (Session.getOrCompile linkage.registry source target linkage.mapping).toRun
    else throw (.failed .registryDropped)) s _ _
  split
  · rename_i halive
    have hfound := h.getOrCompile (exists_of_registryAlive halive) source target linkage.mapping
    unfold Ensures CompileM.toRun at *
    cases hrun : Session.getOrCompile linkage.registry source target linkage.mapping s with
    | ok r s' => rw [hrun] at hfound; exact hfound
    | error e s' => rw [hrun] at hfound; exact hfound
  · exact Ensures.throw h

theorem quiet_noteResolution (linkage : Linkage) (link : Link) (routine : Routine) (s : Session) :
    s.Quiet (s.noteResolution linkage link routine) := by
  unfold noteResolution
  split
  · exact .of_registries rfl
  · exact .of_registries rfl

theorem resolve (linkage : Linkage) (link : Link) :
    RunM.Keeps s₀.LeadsTo (Session.resolve linkage link) := by
  intro s h
  cases hlinked : s.linked? linkage link with
  | some routine => exact .of_ok (resolve_of_linked hlinked) h
  | none =>
    exact .of_eq (resolve_of_not_linked hlinked) (Ensures.bind
      ((resolveDynamic linkage link.source link.target s h).mono
        (fun r s' h' => h'.quiet (quiet_noteResolution ..)) fun _ _ h' => h'))

theorem lasting (s₀ : Session) : Lasting s₀.LeadsTo where
  heap _ _ h := h.quiet (.of_registries rfl)
  calls _ _ h := h.quiet (.of_registries rfl)
  resolve := resolve
  resolveDynamic := resolveDynamic

/-- The registry of a program that belongs to no routine is one more. -/
theorem runProgram (mapping : Mapping) (program : Program) (source destination state : Value) :
    RunM.Keeps s₀.LeadsTo (Session.runProgram mapping program source destination state) :=
  fun s h => runProgram_of_stable ((h.quiet (.newRegistry s)).quiet (.of_registries rfl))
    ((lasting s₀).stable ((lasting s₀).run depthLimit) _)
    (fun _ _ h => h.quiet (.modifyRegistry (fun _ => rfl) fun _ => rfl)) program

end LeadsTo

/-! ## Steps -/

/-- What may be done with a session. To look a routine up is no step, as it changes nothing. -/
inductive Step where
  /-- Values are made and changed. -/
  | heap (heap : Heap)
  /-- The record of calls is cleared. -/
  | calls (calls : List ConverterCall)
  | pool (operation : Pool.Operation)
  | newRegistry
  | shareRegistry (id : RegistryId)
  | dropRegistry (id : RegistryId)
  | hold (r : Routine)
  | release (r : Routine)
  | getOrCompile (registry : RegistryId) (source target : ShapeId) (mapping : Mapping)
  /-- A link is followed. -/
  | resolve (linkage : Linkage) (link : Link)
  | run (r : Routine) (depth : Nat) (source destination state : Value)
  | runProgram (mapping : Mapping) (program : Program) (source destination state : Value)

/-- The session after a step, whether it has failed or not. Of a registry without owners nothing can
be asked. -/
def Step.apply (s : Session) : Step → Session
  | .heap values => { s with heap := values }
  | .calls record => { s with calls := record }
  | .pool operation => { s with pool := operation.apply s.pool }
  | .newRegistry => s.newRegistry.2
  | .shareRegistry id => s.shareRegistry id
  | .dropRegistry id => s.dropRegistry id
  | .hold r => s.hold r
  | .release r => s.release r
  | .getOrCompile registry source target mapping =>
    if s.registryAlive registry then After (Session.getOrCompile registry source target mapping) s
    else s
  | .resolve linkage link => After (Session.resolve linkage link) s
  | .run r depth source destination state => After (r.run depth source destination state) s
  | .runProgram mapping program source destination state =>
    After (Session.runProgram mapping program source destination state) s

theorem LeadsTo.apply (h : s₀.LeadsTo s) (step : Step) : s₀.LeadsTo (step.apply s) := by
  cases step with
  | heap _ | calls _ | pool _ | hold _ | release _ => exact h.quiet (.of_registries rfl)
  | newRegistry => exact h.quiet (.newRegistry s)
  | shareRegistry _ | dropRegistry _ => exact h.quiet (.modifyRegistry (fun _ => rfl) fun _ => rfl)
  | getOrCompile registry source target mapping =>
    change s₀.LeadsTo (if s.registryAlive registry then
      After (Session.getOrCompile registry source target mapping) s else s)
    split
    · rename_i halive
      exact (h.getOrCompile (exists_of_registryAlive halive) source target mapping).after
    · exact h
  | resolve linkage link => exact (LeadsTo.resolve linkage link s h).after
  | run r depth source destination state =>
    exact ((LeadsTo.lasting s₀).run depth r source destination state s h).after
  | runProgram mapping program source destination state =>
    exact (LeadsTo.runProgram mapping program source destination state s h).after

/-- Every use of a session has a history. -/
theorem leadsTo_foldl (s : Session) (steps : List Step) :
    s.LeadsTo (steps.foldl Step.apply s) := by
  have hall (s' : Session) (h : s.LeadsTo s') : s.LeadsTo (steps.foldl Step.apply s') := by
    induction steps generalizing s' with
    | nil => exact h
    | cons step steps ih => exact ih _ (h.apply step)
  exact hall s ⟨[], .refl⟩

/-! ## The invariant -/

/-- Two requests for one key, and one for a shape that was never declared. -/
example : let s := [Step.newRegistry, .getOrCompile ⟨0⟩ ShapeId.int ShapeId.str Mapping.initial,
      .getOrCompile ⟨0⟩ ShapeId.int ShapeId.str Mapping.initial,
      .getOrCompile ⟨0⟩ ShapeId.int ⟨99⟩ Mapping.initial].foldl Step.apply {}
    (s.table ⟨0⟩).length = 1 ∧ s.compileCount ⟨0⟩ = 2 :=
  ⟨rfl, rfl⟩

end Session

end Reshape
