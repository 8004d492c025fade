import Reshape.Proofs.Routine.Request

/-!
# Runs without end

A body repeats on a value (`Body.Repeats`) if the first thing that it does with the value is to look
for the routine that it is the body of, and to run it on the value. Such a run ends at no depth
(`Routine.endless_of_repeats`). A transfer repeats if it asks for its own two shapes, and so does a
collection whose only element is the value.

`Circle` is a pool with lists of themselves, in which four values, finite as they are, are converted
without end.
-/

namespace Reshape

/-- However deep the routine is run, this is not enough. -/
def Routine.Endless (r : Routine) (v : Value) (s : Session) : Prop :=
  ∀ depth state, ∃ s', r.run depth v .null state s = .error .tooDeep s'

/-- From sessions with this heap, the body runs the routine for the two shapes on the value before
it does anything else. -/
def Body.Repeats (mappings : Mapping → Prop) (mapping : Mapping) (pool : Pool) (heap : Heap)
    (source target : ShapeId) (v : Value) (body : Body) : Prop :=
  ∀ (s : Session) (r : Routine) (state : Value), s.Holds mappings pool heap → s.heap = heap →
    r.Live mapping.id s → ∃ x, s.Asks mappings mapping source target x ∧ ∀ invoke : Invoke,
      ∃ f : Value → RunM Value, body.run invoke ⟨v, .null, state, r.linkage⟩ s =
        ((x >>= fun r' => invoke r' v .null state) >>= f) s

/-- A member that is there, and goes through a routine into one that is there. -/
theorem RecordForm.fill_of_linked {form : RecordForm} {s : Session} {source record v d : Value}
    {pair : MemberPair} (hv : RunM.readMember source form.source pair.source s = .ok v s)
    (hnull : v.isNull = false)
    (hd : RunM.readMember record form.target pair.destination s = .ok d s) (invoke : Invoke)
    (frame : Frame) (link : Link) :
    form.fill invoke frame source record ⟨pair, .linked link true false⟩ s =
      ((Session.resolve frame.linkage link >>= fun r => invoke r v d frame.state) >>= fun w =>
        RunM.onHeap (Heap.writeMember record pair.destination w)) s := by
  have hlink : Transfer.byLink invoke frame link
      (RunM.readMember source form.source pair.source)
      (RunM.readMember record form.target pair.destination) s =
      (Session.resolve frame.linkage link >>= fun r => invoke r v d frame.state) s := by
    unfold Transfer.byLink
    rw [bind_of_eq_ok hv, hnull]
    exact bind_of_eq_ok hd
  have hplaced : Transfer.placed false = id := rfl
  unfold fill
  simp only [Transfer.run, hplaced, id_map]
  exact bind_of_eq hlink _

/-- A list of one element is made by one transfer. -/
theorem CollectionMapper.run_of_single {mapper : CollectionMapper}
    (hkind : mapper.kind ≠ .genericInsertable) {invoke : Invoke} {frame : Frame} {s : Session}
    {e : Value} (hnull : frame.source.isNull = false)
    (hes : (s.heap.elements? frame.source).getD [frame.source] = [e]) :
    mapper.run invoke frame s = (mapper.mapElement invoke frame e >>= fun w =>
      RunM.onHeap (Heap.alloc (.seq mapper.target #[w]))) s := by
  have hsource : frame.source ≠ .null := by
    rw [Ne, ← Value.isNull_iff, hnull]
    exact Bool.false_ne_true
  rw [mapper.run_of_whole hkind hsource, hes]
  unfold mapElements
  simp only [List.mapM_cons, List.mapM_nil, pure_bind, bind_assoc]

section

variable {mappings : Mapping → Prop} {mapping : Mapping} {pool : Pool} {heap : Heap} {s : Session}
  {r : Routine} {source target own : ShapeId} {v : Value} {body : Body}
  (hallows : mappings mapping)
  (hunique : ∀ m m', mappings m → mappings m' → m.id = m'.id → m = m')

include hallows hunique

/-! ## Bodies that repeat -/

/-- A transfer for its own two shapes repeats. -/
theorem Transfer.repeats {t : Transfer} {reuse inline : Bool}
    (h : t.Asks own source target reuse inline) (hproper : t.Proper)
    (hown : heap.shape? v = some own) (count : Nat) :
    (Body.program ⟨.returns (t.code (.argument .source) (.argument .destination)),
      count⟩).Repeats mappings mapping pool heap source target v := by
  intro s r state hs hheap hr
  let frame : Frame := ⟨v, .null, state, r.linkage⟩
  have hlinkage : frame.linkage = r.linkage := rfl
  obtain ⟨x, hx, hrun⟩ := Transfer.run_asks hallows hunique hs hr h hlinkage (hheap ▸ hown) .null
  refine ⟨x, hx, fun invoke => ⟨fun w => return placed inline w, ?_⟩⟩
  rw [Body.run, Transfer.run_code hproper]
  refine (hrun invoke).trans ?_
  rw [ite_self, map_eq_pure_bind]

/-- So does a collection of which the value is the only element, if it takes its elements through
the routine for its own two shapes. -/
theorem CollectionMapper.repeats {mapper : CollectionMapper} {inline : Bool}
    (hkind : mapper.kind ≠ .genericInsertable)
    (h : mapper.transfer.Asks own source target false inline) (hown : heap.shape? v = some own)
    (hes : (heap.elements? v).getD [v] = [v]) :
    (Body.collection mapper).Repeats mappings mapping pool heap source target v := by
  intro s r state hs hheap hr
  let frame : Frame := ⟨v, .null, state, r.linkage⟩
  have hlinkage : frame.linkage = r.linkage := rfl
  obtain ⟨x, hx, hrun⟩ := Transfer.run_asks hallows hunique hs hr h hlinkage (hheap ▸ hown) .null
  refine ⟨x, hx, fun invoke => ⟨fun w =>
    RunM.onHeap (Heap.alloc (.seq mapper.target #[Transfer.placed inline w])), ?_⟩⟩
  have hnull : v.isNull = false := by
    cases v with
    | null => cases hown
    | _ => rfl
  have hsingle : mapper.run invoke frame s = _ := run_of_single hkind hnull (hheap ▸ hes)
  have helement : mapper.mapElement invoke frame v s =
      ((x >>= fun r' => invoke r' v .null state) >>= fun w =>
        return Transfer.placed inline w) s := by
    rw [mapElement_eq, ← map_eq_pure_bind]
    exact hrun invoke
  refine (hsingle.trans (bind_of_eq helement _)).trans ?_
  simp only [bind_assoc, pure_bind]

/-! ## Runs of bodies that repeat -/

variable (hbody : mapping.body pool source target = .ok body)
  (hrepeats : body.Repeats mappings mapping pool heap source target v)

include hbody hrepeats

/-- Whatever the way in which the routine is looked for, to run it takes more depth. -/
theorem Session.Asks.run_tooDeep {x : RunM Routine} (hs : s.Holds mappings pool heap)
    (hheap : s.heap = heap) (hx : s.Asks mappings mapping source target x) (state : Value)
    (depth : Nat) : ∃ s', (x >>= fun r => r.run depth v .null state) s = .error .tooDeep s' := by
  induction depth generalizing s x with
  | zero => exact hx.run_zero hallows hunique hs ⟨body, hbody⟩ v .null state
  | succ depth ih =>
    obtain ⟨r, s₁, hxs, hl, hsame, hr, hrbody⟩ := hx.opens hallows hunique hs hbody
    have hheap₁ : s₁.heap = heap := hsame.heap.trans hheap
    obtain ⟨y, hy, hrun⟩ := hrepeats s₁ r state (hs.precedes hl) hheap₁ hr
    obtain ⟨f, hf⟩ := hrun (Routine.run depth)
    obtain ⟨s', hdeep⟩ := ih (hs.precedes hl) hheap₁ hy
    refine ⟨s', (bind_of_eq_ok hxs).trans ?_⟩
    rw [Routine.run_succ, hrbody, hf]
    exact bind_of_eq_error hdeep

theorem Routine.endless_of_repeats (hs : s.Holds mappings pool heap) (hheap : s.heap = heap)
    (hr : r.Live mapping.id s) (hkey : r.key = ⟨source, target, mapping.id⟩) : r.Endless v s := by
  intro depth state
  have hx := hr.asks_pure hallows hunique hs
  rw [hkey] at hx
  exact hx.run_tooDeep hallows hunique hbody hrepeats hs hheap state depth

end

/-! ## Circles of shapes -/

namespace Circle

/-- `L` are the lists of themselves. A bag takes anything, and records of `S` and `T` hold bags and
lists. -/
def operations : List Pool.Operation :=
  [.declare "L", .define ⟨7⟩ (.ofCollection "L" .list (some ⟨7⟩)), .nullable ShapeId.any,
    .insertable "bag" none,
    .register (.ofRecord "S" [⟨"a", ⟨9⟩, {}⟩, ⟨"b", ShapeId.untypedList, {}⟩]),
    .register (.ofRecord "T" [⟨"x", ⟨9⟩, {}⟩, ⟨"y", ⟨7⟩, {}⟩]), .arrayOf ShapeId.str]

def pool : Pool :=
  [⟨"L", some (.ofCollection "L" .list (some ⟨7⟩))⟩,
    ⟨"any?", some (.ofNullable "any?" ShapeId.any)⟩,
    ⟨"bag", some (.ofCollection "bag" .insertable none)⟩,
    ⟨"S", some (.ofRecord "S" [⟨"a", ⟨9⟩, {}⟩, ⟨"b", ShapeId.untypedList, {}⟩])⟩,
    ⟨"T", some (.ofRecord "T" [⟨"x", ⟨9⟩, {}⟩, ⟨"y", ⟨7⟩, {}⟩])⟩,
    ⟨"[str]", some (.ofCollection "[str]" .array (some ShapeId.str))⟩].foldl Pool.push Pool.initial

theorem pool_eq : operations.foldl Pool.Operation.apply Pool.initial = pool := by decide +kernel

section

variable (heap : Heap) (mapping : Mapping) (source target : ShapeId)

/-- The session keeps the routine for two shapes. -/
def session : Session :=
  .compiling operations heap mapping source target

def routine : Routine :=
  Session.compiled operations heap mapping source target

theorem session_eq : (session heap mapping source target).pool = pool ∧
    (session heap mapping source target).heap = heap := by
  obtain ⟨hpool, hheap⟩ := Session.pool_and_heap_compiling operations heap mapping source target
  exact ⟨hpool.trans pool_eq, hheap⟩

/-- The shapes compile, so that the routine is in a registry that is still there. -/
def Kept : Prop :=
  ((session heap mapping source target).cached? ⟨0⟩ ⟨source, target, mapping.id⟩).isSome = true ∧
    (session heap mapping source target).registryAlive ⟨0⟩ = true

instance : Decidable (Kept heap mapping source target) :=
  inferInstanceAs (Decidable (_ ∧ _))

variable {heap mapping source target} (hkept : Kept heap mapping source target)

include hkept

theorem live : (routine heap mapping source target).Live mapping.id
      (session heap mapping source target) ∧
    (routine heap mapping source target).key = ⟨source, target, mapping.id⟩ := by
  obtain ⟨owner, howned⟩ :=
    (Session.reachable_compiling operations heap mapping source target).coherent
  obtain ⟨hknows, hkey, hregistry⟩ := howned.registry_of_cached?
    (Session.cached?_compiling operations heap mapping source target hkept.1)
  refine ⟨⟨hknows, ?_, ?_⟩, hkey⟩
  · exact hregistry.symm ▸ hkept.2
  · rw [routine, hkey]

/-- What is endless in all sessions of the pool and the heap is so in this one. -/
theorem endless {v : Value} (h : ∀ (mappings : Mapping → Prop) (s : Session) (r : Routine),
    mappings mapping → (∀ m m', mappings m → mappings m' → m.id = m'.id → m = m') →
    s.Holds mappings pool heap → s.heap = heap → r.Live mapping.id s →
    r.key = ⟨source, target, mapping.id⟩ → r.Endless v s) :
    (routine heap mapping source target).Endless v (session heap mapping source target) := by
  obtain ⟨hpool, hheap⟩ := session_eq heap mapping source target
  obtain ⟨hlive, hkey⟩ := live hkept
  have hcoherent := (Session.reachable_compiling operations heap mapping source target).coherent
  have hholds : (session heap mapping source target).Holds (· = mapping) pool heap :=
    ⟨hcoherent, hpool, by rw [hheap]; exact .refl _⟩
  exact h (· = mapping) _ _ rfl (fun m m' h h' _ => h.trans h'.symm) hholds hheap hlive hkey

end

/-! ### One turn after the other -/

/-- The object says that it is of the shape. -/
def object (shape : ShapeId) : Heap where
  instances := #[.object shape #[]]

/-- A number becomes a list of lists. -/
theorem endless_number :
    (routine {} .initial ShapeId.int ⟨7⟩).Endless (.int 5)
      (session {} .initial ShapeId.int ⟨7⟩) :=
  endless (by decide +kernel) fun _ _ _ hallows hunique =>
    Routine.endless_of_repeats hallows hunique rfl <|
      CollectionMapper.repeats hallows hunique (by decide) (.linked _ _ _) rfl rfl

/-- An object that says it is a list is copied. -/
theorem endless_list :
    (routine (object ShapeId.untypedList) .initial ShapeId.untypedList
      ShapeId.untypedList).Endless (.ref ⟨0⟩)
      (session (object ShapeId.untypedList) .initial ShapeId.untypedList ShapeId.untypedList) :=
  endless (by decide +kernel) fun _ _ _ hallows hunique =>
    Routine.endless_of_repeats hallows hunique rfl <|
      CollectionMapper.repeats hallows hunique (by decide) (.dynamic _ _ _) rfl rfl

/-- An object that says it may be anything is copied. -/
theorem endless_any :
    (routine (object ⟨8⟩) .initial ⟨8⟩ ⟨8⟩).Endless (.ref ⟨0⟩)
      (session (object ⟨8⟩) .initial ⟨8⟩ ⟨8⟩) :=
  endless (by decide +kernel) fun _ _ _ hallows hunique =>
    Routine.endless_of_repeats hallows hunique rfl <|
      Transfer.repeats hallows hunique (.dynamic none false false) nofun rfl 0

/-! ### A bag in itself -/

/-- It writes the bag of a record of `T` twice. -/
def twice : Mapping where
  id := ⟨"twice"⟩
  copyMode := .shallow
  rules := .fixed [⟨0, 0⟩, ⟨1, 0⟩, ⟨0, 1⟩]

def toBag : Link := ⟨⟨0⟩, ShapeId.untypedList, ⟨9⟩⟩

def toList : Link := ⟨⟨1⟩, ⟨9⟩, ⟨7⟩⟩

/-- How a record of `T` is filled. -/
def form : RecordForm where
  source := ⟨10⟩
  target := ⟨11⟩
  origin := .template ⟨⟨11⟩, .object [.null, .null]⟩
  members := [⟨⟨0, 0⟩, .same⟩, ⟨⟨1, 0⟩, .linked toBag true false⟩,
    ⟨⟨0, 1⟩, .linked toList true false⟩]
  boxed := false

/-- A record of `S`, with an empty bag and a list that the bag is in too. -/
def record : Heap where
  instances := #[.seq ⟨9⟩ #[], .seq ShapeId.untypedList #[.ref ⟨0⟩],
    .object ⟨10⟩ #[.ref ⟨0⟩, .ref ⟨1⟩]]

/-- A record of `T` has been made of it, -/
def made : Heap where
  instances := record.instances.push (.object ⟨11⟩ #[.null, .null])

/-- and has been given the bag, -/
def shared : Heap where
  instances := record.instances.push (.object ⟨11⟩ #[.ref ⟨0⟩, .null])

/-- into which the bag itself has been put. -/
def knotted : Heap where
  instances := shared.instances.set! 0 (.seq ⟨9⟩ #[.ref ⟨0⟩])

theorem body_twice : twice.body pool ⟨10⟩ ⟨11⟩ =
    .ok (.program ⟨form.code .null .null, form.origin.localCount⟩) := rfl

/-- The record of `T` is made, and is given the bag that the record of `S` has. -/
theorem form_run_eq (s : Session) (invoke : Invoke) (state : Value) (linkage : Linkage) :
    form.run invoke ⟨.ref ⟨2⟩, .null, state, linkage⟩ { s with heap := record } =
      ((form.fill invoke ⟨.ref ⟨2⟩, .null, state, linkage⟩ (.ref ⟨2⟩) (.ref ⟨3⟩)
        ⟨⟨1, 0⟩, .linked toBag true false⟩ >>= fun w =>
        form.fill invoke ⟨.ref ⟨2⟩, .null, state, linkage⟩ (.ref ⟨2⟩) w
          ⟨⟨0, 1⟩, .linked toList true false⟩) >>= form.result) { s with heap := shared } := by
  have hmade : form.destination ⟨.ref ⟨2⟩, .null, state, linkage⟩ { s with heap := record } =
      .ok (.ref ⟨3⟩) { s with heap := made } := rfl
  have hshared : form.fill invoke ⟨.ref ⟨2⟩, .null, state, linkage⟩ (.ref ⟨2⟩) (.ref ⟨3⟩)
      ⟨⟨0, 0⟩, .same⟩ { s with heap := made } = .ok (.ref ⟨3⟩) { s with heap := shared } := rfl
  refine (bind_of_eq_ok hmade).trans ?_
  change (form.fillAll _ _ _ _ _ >>= _) _ = _
  unfold RecordForm.fillAll form
  simp only [List.foldlM_cons, List.foldlM_nil, bind_assoc, bind_pure]
  refine (bind_of_eq_ok hshared).trans ?_
  rfl

section

variable {mappings : Mapping → Prop} (hallows : mappings twice)
  (hunique : ∀ m m', mappings m → mappings m' → m.id = m'.id → m = m') {s : Session} {r : Routine}
  {start : Heap} (hs : s.Holds mappings pool start) (hr : r.Live twice.id s) (state : Value)

include hallows hunique hs hr

/-- What is in the list is put into the bag : the bag itself. -/
theorem fill_toBag (depth : Nat) :
    (∃ s', form.fill (Routine.run depth) ⟨.ref ⟨2⟩, .null, state, r.linkage⟩ (.ref ⟨2⟩) (.ref ⟨3⟩)
      ⟨⟨1, 0⟩, .linked toBag true false⟩ { s with heap := shared } = .error .tooDeep s') ∨
    ∃ s', s'.Holds mappings pool shared ∧ r.Live twice.id s' ∧
      form.fill (Routine.run depth) ⟨.ref ⟨2⟩, .null, state, r.linkage⟩ (.ref ⟨2⟩) (.ref ⟨3⟩)
        ⟨⟨1, 0⟩, .linked toBag true false⟩ { s with heap := shared } =
          .ok (.ref ⟨3⟩) { s' with heap := knotted } := by
  have ht := hs.withHeap shared
  have hrt := hr.withHeap shared
  have hx := hrt.asks_resolve hallows hunique ht toBag
  have hbody : twice.body pool toBag.source toBag.target = .ok (.collection
    ⟨.genericInsertable, ⟨9⟩, .verbatim, false, some ⟨.returns (.newInstance ⟨⟨9⟩, .seq⟩), 0⟩⟩) :=
    rfl
  have hfill (invoke : Invoke) : form.fill invoke ⟨.ref ⟨2⟩, .null, state, r.linkage⟩ (.ref ⟨2⟩)
      (.ref ⟨3⟩) ⟨⟨1, 0⟩, .linked toBag true false⟩ { s with heap := shared } =
      ((Session.resolve r.linkage toBag >>= fun r' => invoke r' (.ref ⟨1⟩) (.ref ⟨0⟩) state) >>=
        fun w => RunM.onHeap (Heap.writeMember (.ref ⟨3⟩) 0 w)) { s with heap := shared } :=
    RecordForm.fill_of_linked rfl rfl rfl invoke _ toBag
  rw [hfill]
  cases depth with
  | zero =>
    obtain ⟨s', hdeep⟩ := hx.run_zero hallows hunique ht ⟨_, hbody⟩ (.ref ⟨1⟩) (.ref ⟨0⟩) state
    exact Or.inl ⟨s', bind_of_eq_error hdeep⟩
  | succ depth =>
    obtain ⟨r', s', hxs, hl, hsame, -, hrbody⟩ := hx.opens hallows hunique ht hbody
    have heq : s' = { s' with heap := shared } := by
      rw [← show s'.heap = shared from hsame.heap]
    refine Or.inr ⟨s', ht.precedes hl, hrt.precedes hl, ?_⟩
    have hrun : (Session.resolve r.linkage toBag >>= fun r' =>
        r'.run (depth + 1) (.ref ⟨1⟩) (.ref ⟨0⟩) state) { s with heap := shared } =
        .ok (.ref ⟨0⟩) { s' with heap := knotted } := by
      refine (bind_of_eq_ok hxs).trans ?_
      rw [Routine.run_succ, hrbody, heq]
      rfl
    exact bind_of_eq_ok hrun

/-- The bag is to become a list of lists, and so is what is in it. -/
theorem fill_toList (depth : Nat) :
    ∃ s', form.fill (Routine.run depth) ⟨.ref ⟨2⟩, .null, state, r.linkage⟩ (.ref ⟨2⟩) (.ref ⟨3⟩)
      ⟨⟨0, 1⟩, .linked toList true false⟩ { s with heap := knotted } = .error .tooDeep s' := by
  have ht := hs.withHeap knotted
  have hx := (hr.withHeap knotted).asks_resolve hallows hunique ht toList
  have hbody : twice.body pool toList.source toList.target = .ok (.collection
    ⟨.typedList, ⟨7⟩, .dynamic (some ⟨7⟩), false, none⟩) := rfl
  have hrepeats : (Body.collection ⟨.typedList, ⟨7⟩, .dynamic (some ⟨7⟩), false, none⟩).Repeats
      mappings twice pool knotted toList.source toList.target (.ref ⟨0⟩) :=
    CollectionMapper.repeats hallows hunique (by decide) (.dynamic _ _ _) rfl rfl
  obtain ⟨s', hdeep⟩ := hx.run_tooDeep hallows hunique hbody hrepeats ht rfl state depth
  refine ⟨s', (RecordForm.fill_of_linked rfl rfl rfl (Routine.run depth) _ toList).trans ?_⟩
  exact bind_of_eq_error hdeep

/-- The record is converted without end. -/
theorem endless_twice (hheap : s.heap = record) (hkey : r.key = ⟨⟨10⟩, ⟨11⟩, twice.id⟩) :
    r.Endless (.ref ⟨2⟩) s := by
  intro depth state
  have hx := hr.asks_pure hallows hunique hs
  rw [hkey] at hx
  obtain ⟨r', s', hxs, -, -, -, hrbody⟩ := hx.opens hallows hunique hs body_twice
  cases hxs
  cases depth with
  | zero => exact ⟨s, rfl⟩
  | succ depth =>
    have hproper : ∀ m ∈ form.members, m.transfer.Proper := by
      simp [form, Transfer.Proper]
    have heq : s = { s with heap := record } := by
      rw [← hheap]
    rw [Routine.run_succ, hrbody, Body.run, RecordForm.run_code form hproper, heq, form_run_eq]
    rcases fill_toBag hallows hunique hs hr state depth with ⟨s', hdeep⟩ | ⟨s', hs', hr', hfill⟩
    · exact ⟨s', bind_of_eq_error (bind_of_eq_error hdeep)⟩
    · obtain ⟨s'', hdeep⟩ := fill_toList hallows hunique hs' hr' state depth
      exact ⟨s'', bind_of_eq_error ((bind_of_eq_ok hfill).trans hdeep)⟩

end

theorem endless_record :
    (routine record twice ⟨10⟩ ⟨11⟩).Endless (.ref ⟨2⟩) (session record twice ⟨10⟩ ⟨11⟩) :=
  endless (by decide +kernel) fun _ _ _ hallows hunique hs hheap hr hkey =>
    endless_twice hallows hunique hs hr hheap hkey

end Circle

end Reshape
