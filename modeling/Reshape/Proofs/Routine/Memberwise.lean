import Reshape.Proofs.Routine.Compilable
import Reshape.Proofs.Routine.Imaging
import Reshape.Proofs.Session.Reachable
import Reshape.Proofs.Value.Conformance
import Reshape.Routine.Depth

/-!
# Members on their own

The code of a record converts its members in place : primitives without a routine, and other
members by routines for the shapes below the nullable ones, into what stands in the member already.
A member that is converted on its own goes through the routine for the shapes of the two members,
with nothing supplied (`Session.Alone`). Both lead to the same image
(`Mapping.memberImage_eq_alone`), and so the record that comes of a conversion holds what its
members become on their own (`Session.Reachable.run_memberwise`).
-/

namespace Reshape

/-! ## Routines that there are -/

namespace Mapping

variable {mapping : Mapping} {pool : Pool} {heap : Heap} {source target below below' : ShapeId}
  {known known' : Descriptor} (hconverters : mapping.converters = [])
  (hb : pool.Below source below known) (hb' : pool.Below target below' known')

include hconverters hb hb'

theorem plan_eq_generatedPlan :
    mapping.plan pool source target = mapping.generatedPlan pool below below' := by
  unfold Mapping.plan converterProgram
  simp only [converterFor_eq_none hconverters, Option.map_none, hb.strip, hb'.strip,
    Pool.orCompileError, bind, Except.bind]

/-- Nullable shapes make no difference to what routines there are. -/
theorem offers_below : mapping.offers pool source target = mapping.offers pool below below' := by
  unfold offers body
  rw [plan_eq_generatedPlan hconverters hb hb', plan_eq_generatedPlan hconverters hb.self hb'.self]

omit hconverters in
/-- Nor to what they make of a value. -/
theorem image_below (depth : Nat) (v : Value) : mapping.image pool heap depth source target v =
    mapping.image pool heap depth below below' v := by
  cases depth with
  | zero => rfl
  | succ depth => rw [image_succ hb hb', image_succ hb.self hb'.self]

/-- There is a routine that answers an expression. -/
theorem offers_of_expr {e : Expr}
    (hplan : mapping.generatedPlan pool below below' = .ok (.program (.ofExpr e)))
    (hcheck : e.check [] [] = .ok []) (hready : ∃ r, e.ready pool mapping 0 = .ok r) :
    mapping.offers pool source target = .ok () := by
  obtain ⟨⟨body, n⟩, hbody⟩ := Program.exists_ready_ofExpr hcheck hready
  have hbody' : mapping.body pool source target = .ok body :=
    Except.bind_eq_ok_iff.mpr ⟨_, (plan_eq_generatedPlan hconverters hb hb').trans hplan,
      Except.map_eq_ok_iff.mpr ⟨(body, n), hbody, rfl⟩⟩
  unfold offers
  rw [hbody']

/-- There is a routine into the shape `any`. -/
theorem offers_into_any (hdeep : mapping.copyMode = .deep) (hany : known'.kind = .any) :
    mapping.offers pool source target = .ok () := by
  have hplan : mapping.generatedPlan pool below below' =
      .ok (.program (.ofExpr (.invoke below below (.argument .source) .null))) := by
    unfold generatedPlan
    simp only [hb.descriptor, hb'.descriptor, Pool.orCompileError, bind, Except.bind]
    rw [if_neg (by simp [Descriptor.isCollection, hany]), hany]
    simp only [anyProgram, hdeep]
    rfl
  refine offers_of_expr hconverters hb hb' hplan rfl ?_
  have hsent : (Expr.sent below below false false (.argument .source)
      (.argument .destination)).Readies pool mapping _ :=
    Expr.readies_sent false false (fun _ => rfl) fun _ => rfl
  obtain ⟨code, n, hready, -⟩ := hsent 0
  exact ⟨_, hready⟩

/-- There is a routine between primitives that convert into each other. -/
theorem offers_primitive {a b : Primitive} (ha : known.kind = .primitive a)
    (hkind : known'.kind = .primitive b) (h : a = b ∨ a.canConvert b = true) :
    mapping.offers pool source target = .ok () := by
  have hcollection : ¬known'.isCollection = true := by simp [Descriptor.isCollection, hkind]
  have hplan (plan : Except CompileError RoutinePlan)
      (hplan : (if a = b then return .program (.ofExpr (.argument .source))
        else if a.canConvert b then
          return .program (.ofExpr (.convert (.primitive a b) (.argument .source)))
        else throw (noConversion pool below below')) = plan) :
      mapping.generatedPlan pool below below' = plan := by
    unfold generatedPlan
    simp only [hb.descriptor, hb'.descriptor, Pool.orCompileError, bind, Except.bind]
    rw [if_neg hcollection, ha, hkind]
    exact hplan
  by_cases hab : a = b
  · exact offers_of_expr hconverters hb hb' (hplan _ (if_pos hab)) rfl ⟨_, rfl⟩
  · refine offers_of_expr (e := .convert (.primitive a b) (.argument .source)) hconverters hb hb'
      (hplan _ ?_) rfl ⟨_, rfl⟩
    rw [if_neg hab, if_pos (h.resolve_left hab)]
    rfl

end Mapping

/-! ## A member on its own -/

/-- The shape that a value of a place is converted from : its own, if the place takes values of all
shapes. Null is not converted. -/
def Pool.convertedFrom? (pool : Pool) (heap : Heap) (source : ShapeId) (v : Value) :
    Option ShapeId :=
  if v.isNull then none
  else (pool.below? source).bind fun below =>
    if below.2.kind = .any then heap.shape? v else some source

/-- What the routine for a place makes of a value of another place, on its own. -/
def Mapping.alone (mapping : Mapping) (pool : Pool) (heap : Heap) (depth : Nat)
    (source target : ShapeId) (v : Value) : Except Stop Tree :=
  match pool.convertedFrom? heap source v with
  | none => .ok .null
  | some own => do
    mapping.offers pool own target
    mapping.image pool heap depth own target v

section

variable {mappings : Mapping → Prop} {mapping : Mapping} {pool : Pool} {start : Heap}
  {typed : Address → ShapeId → Prop} (hc : Imager mappings mapping pool typed start)
  {source target : ShapeId} {v : Value}

theorem Mapping.across_null (inner : Image) (source : ShapeId) (sourceKind : Kind)
    (target : ShapeId) (targetKind : Kind) :
    mapping.across pool start inner source sourceKind target targetKind .null = .ok .null := by
  have hprimitive (a b : Primitive) : mapping.across pool start inner source (.primitive a) target
      (.primitive b) .null = .ok .null := by
    rw [across]
    split
    · rfl
    · cases b <;> rfl
  cases sourceKind <;> cases targetKind <;> first | exact hprimitive _ _ | rfl

theorem Mapping.throughLink_of_ne_null (inner : Image) (hnull : v ≠ .null) :
    mapping.throughLink pool inner source target v = (do
      mapping.offers pool source target
      inner source target v) :=
  if_neg (by simpa using hnull)

theorem Mapping.throughShape_of_shape? {own : ShapeId} (inner : Image)
    (hown : start.shape? v = some own) (place : Option ShapeId) :
    mapping.throughShape pool start inner place v = (do
      mapping.offers pool own (place.getD own)
      inner own (place.getD own) v) := by
  rw [throughShape, hown]

variable {below below' : ShapeId} {known known' : Descriptor} (hb : pool.Below source below known)

include hb

theorem Pool.convertedFrom?_of_ne_null (hnull : v ≠ .null) : pool.convertedFrom? start source v =
    if known.kind = .any then start.shape? v else some source := by
  rw [Pool.convertedFrom?, if_neg (by simpa using hnull), Pool.below?_eq_some_iff.mpr hb]
  rfl

variable (hconverters : mapping.converters = []) (hb' : pool.Below target below' known')

include hconverters hb'

/-- Values of a place of one shape are converted from the shape below. -/
theorem Mapping.alone_eq_below (hany : known.kind ≠ .any) (hnull : v ≠ .null) (depth : Nat) :
    mapping.alone pool start depth source target v = (do
      mapping.offers pool below below'
      mapping.image pool start depth below below' v) := by
  rw [alone, Pool.convertedFrom?_of_ne_null hb hnull, if_neg hany,
    ← offers_below hconverters hb hb', ← image_below hb hb']

/-- Values of a place of all shapes are converted from their own. -/
theorem Mapping.alone_eq_own (hany : known.kind = .any) (hnull : v ≠ .null) {own : ShapeId}
    {ownShape : Descriptor} (hown : start.shape? v = some own) (hbown : pool.Below own own ownShape)
    (depth : Nat) : mapping.alone pool start depth source target v = (do
      mapping.offers pool own below'
      mapping.image pool start depth own below' v) := by
  rw [alone, Pool.convertedFrom?_of_ne_null hb hnull, if_pos hany, hown]
  dsimp only
  rw [offers_below hconverters hbown hb', image_below hbown hb']

omit hb hconverters hb'

include hc

/-- What becomes of a member in its place becomes of it on its own, with one more routine at
most. -/
theorem Mapping.memberImage_eq_alone (hbetween : ∃ t, Transfer.Between pool .deep source target t)
    (hv : v.Fits pool typed source) (depth : Nat) : ∃ more, depth ≤ more ∧
      mapping.memberImage pool start (mapping.image pool start depth) source target v =
        mapping.alone pool start more source target v := by
  obtain ⟨t, below, known, below', known', hb, hb', hcarries⟩ := hbetween
  have hconverters := hc.converters
  unfold memberImage
  rw [Pool.below?_eq_some_iff.mpr hb, Pool.below?_eq_some_iff.mpr hb']
  dsimp only
  by_cases hnull : v = .null
  · subst hnull
    exact ⟨depth, Nat.le_refl _, across_null _ _ _ _ _⟩
  obtain ⟨own, ownShape, hown, hbown, hany'', -⟩ := hv.exists_own hc.typedBy hc.grows hnull
  -- The image leaves out the routine for the whole member where the code does without it.
  cases hcarries with
  | primitive hsource htarget =>
    refine ⟨depth + 1, Nat.le_succ depth, ?_⟩
    rw [alone_eq_below hb hconverters hb' (by simp [hsource]) hnull,
      offers_primitive hconverters hb.self hb'.self hsource htarget (Or.inl rfl),
      image_succ hb.self hb'.self, formImage, htarget, hsource]
    rfl
  | convert hsource htarget _ hcan =>
    refine ⟨depth + 1, Nat.le_succ depth, ?_⟩
    rw [alone_eq_below hb hconverters hb' (by simp [hsource]) hnull,
      offers_primitive hconverters hb.self hb'.self hsource htarget (Or.inr hcan),
      image_succ hb.self hb'.self, formImage, htarget, hsource]
    rfl
  | shared hmode _ _ => cases hmode
  | linked hsource hany hprimitive =>
    have hany' : known.kind ≠ .any := fun hany => hsource (hc.any _ _ hb.descriptor hany)
    refine ⟨depth, Nat.le_refl _, ?_⟩
    rw [alone_eq_below hb hconverters hb' hany' hnull, across_linked hany' hany hprimitive,
      throughLink_of_ne_null _ hnull]
  | dynamic hsource hany =>
    refine ⟨depth, Nat.le_refl _, ?_⟩
    rw [alone_eq_own hb hconverters hb' hsource hnull hown hbown, hsource, across_of_any hany,
      throughShape_of_shape? _ hown]
    rfl
  | copied hsource hany =>
    have hany' : known.kind ≠ .any := fun hany => hsource (hc.any _ _ hb.descriptor hany)
    refine ⟨depth + 1, Nat.le_succ depth, ?_⟩
    rw [alone_eq_below hb hconverters hb' hany' hnull,
      offers_into_any hconverters hb.self hb'.self hc.deep hany,
      image_succ hb.self hb'.self, formImage, hany, across_into_any hany']
    rfl
  | copiedByShape hsource hany =>
    subst hsource
    have hany' : known.kind = .any := hb.kind_eq_any hc.grows
    refine ⟨depth + 1, Nat.le_succ depth, ?_⟩
    rw [alone_eq_own hb hconverters hb' hany' hnull hown hbown,
      offers_into_any hconverters hbown hb'.self hc.deep hany,
      image_succ hbown hb'.self, formImage, hany, hany']
    dsimp only [bind, Except.bind]
    rw [across_into_any hany'', throughLink_of_ne_null _ hnull]
    exact throughShape_of_shape? _ hown none

end

/-- What comes of a value of a place that is converted on its own into another one, by the routine
that the registry has or makes, with nothing supplied : the tree that the result shows, made of new
instances, or the error. -/
inductive Session.Alone (s : Session) (registry : RegistryId) (mapping : Mapping) (state : Value)
    (source target : ShapeId) (v : Value) : Except ConversionError Tree → Prop
  | null (hv : v = .null) : Alone s registry mapping state source target v (.ok .null)
  | refused {own : ShapeId} {e : CompileError} {s' : Session}
    (hown : s.pool.convertedFrom? s.heap source v = some own)
    (hcompile : Session.getOrCompile registry own target mapping s = .error e s') :
    Alone s registry mapping state source target v (.error (.compile e))
  | converted {own : ShapeId} {r : Routine} {s' s'' : Session} {depth : Nat} {w : Value} {t : Tree}
    (hown : s.pool.convertedFrom? s.heap source v = some own)
    (hcompile : Session.getOrCompile registry own target mapping s = .ok r s')
    (hrun : r.run depth v .null state s' = .ok w s'') (ht : s''.heap.Shows s.heap.size w t) :
    Alone s registry mapping state source target v (.ok t)
  | failed {own : ShapeId} {r : Routine} {s' s'' : Session} {depth : Nat} {e : ConversionError}
    (hown : s.pool.convertedFrom? s.heap source v = some own)
    (hcompile : Session.getOrCompile registry own target mapping s = .ok r s')
    (hrun : r.run depth v .null state s' = .error (.failed e) s'') :
    Alone s registry mapping state source target v (.error e)

section

variable {mappings : Mapping → Prop} {mapping : Mapping} {s : Session}
  {typed : Address → ShapeId → Prop} (hc : Imager mappings mapping s.pool typed s.heap)
  (hcoherent : s.Coherent mappings) {registry : RegistryId}
  (halive : s.registryAlive registry = true) {state : Value} {source target own : ShapeId}
  {v : Value} (hv : v.Fits s.pool typed source)

include hc hv

theorem Imager.fits_convertedFrom (hown : s.pool.convertedFrom? s.heap source v = some own) :
    v.Fits s.pool typed own := by
  unfold Pool.convertedFrom? at hown
  split at hown
  · cases hown
  · obtain ⟨below, -, hown⟩ := Option.bind_eq_some_iff.mp hown
    split at hown
    · exact hc.typedBy.fits_own hc.grows hv hown
    · cases hown
      exact hv

include hcoherent halive

/-- A routine that is had or made for the conversion ends as the image says. -/
theorem Imager.compiled_ends (hown : s.pool.convertedFrom? s.heap source v = some own)
    {r : Routine} {s' : Session}
    (hcompile : Session.getOrCompile registry own target mapping s = .ok r s') :
    mapping.offers s.pool own target = .ok () ∧ s'.heap = s.heap ∧ ∀ depth,
      RunM.Ends (r.run depth v .null state) s' (mapping.image s.pool s.heap depth own target v)
        (Imaged mappings s') := by
  obtain ⟨owner, howned⟩ := hcoherent
  let linkage : Linkage := ⟨⟨0⟩, registry, mapping⟩
  have hfinds : Ensures (Session.getOrCompile linkage.registry own target linkage.mapping) s _ _ :=
    Session.getOrCompile_finds howned own target hc.allows (Session.exists_of_registryAlive halive)
  have hfinds := hfinds.of_run hcompile
  obtain ⟨owner', -, howned'⟩ := hfinds.evolves.owned
  have hholds : s'.Holds mappings s.pool s.heap :=
    ⟨⟨owner', howned'⟩, hfinds.evolves.pool, hfinds.heap ▸ .refl _⟩
  have hkey : r.key = ⟨own, target, mapping.id⟩ := hfinds.answers.key
  have hlive : r.Live mapping.id s' := by
    refine ⟨hfinds.knows, ?_, by rw [hkey]⟩
    rw [hfinds.evolves.alive, hfinds.answers.registry]
    exact halive
  refine ⟨?_, hfinds.heap, fun depth => ?_⟩
  · unfold Mapping.offers
    rw [show mapping.body s.pool own target = .ok r.body from
      (hfinds.body hc.unique hc.allows).2]
  · have hends := Routine.run_images hc state depth s' r v .null hholds hlive
      (hkey ▸ hc.fits_convertedFrom hv hown) (.null _)
    rwa [hkey] at hends

/-- From some depth on, what comes of a value on its own is its image. -/
theorem Session.Alone.exists_depth {outcome : Except ConversionError Tree}
    (h : s.Alone registry mapping state source target v outcome) : ∃ n, ∀ depth, n ≤ depth →
      mapping.alone s.pool s.heap depth source target v = outcome.mapError .failed := by
  have halone {own : ShapeId} (hown : s.pool.convertedFrom? s.heap source v = some own)
      (depth : Nat) : mapping.alone s.pool s.heap depth source target v = (do
        mapping.offers s.pool own target
        mapping.image s.pool s.heap depth own target v) := by
    rw [Mapping.alone, hown]
  cases h with
  | null hv =>
    subst hv
    exact ⟨0, fun depth _ => rfl⟩
  | @refused own _ _ hown hcompile =>
    have hrefuses := getOrCompile_refuses registry own target mapping s
    unfold Ensures at hrefuses
    rw [hcompile] at hrefuses
    refine ⟨0, fun depth _ => ?_⟩
    rw [halone hown, Mapping.offers, hrefuses.2]
    rfl
  | @converted _ r s' s'' depth w t hown hcompile hrun ht =>
    obtain ⟨hoffers, hheap, hends⟩ := hc.compiled_ends hcoherent halive hv hown hcompile
    refine ⟨depth, fun more hle => ?_⟩
    have hmore : r.run more v .null state s' = .ok w s'' := by
      rw [Routine.run_of_le hle fun s' => by simp [hrun], hrun]
    obtain ⟨t', himage, -, ht'⟩ := (hends more).exists_of_ok hmore
    rw [halone hown, hoffers, ht.unique ht']
    exact himage
  | @failed _ r s' s'' depth e hown hcompile hrun =>
    obtain ⟨hoffers, hheap, hends⟩ := hc.compiled_ends hcoherent halive hv hown hcompile
    refine ⟨depth, fun more hle => ?_⟩
    have hmore : r.run more v .null state s' = .error (.failed e) s'' := by
      rw [Routine.run_of_le hle fun s' => by simp [hrun], hrun]
    rw [halone hown, hoffers]
    exact (hends more).eq_of_error hmore

/-- Whatever a routine answers for a value on its own shows a tree, so that `Session.Alone` leaves
no answer out. -/
theorem Session.exists_alone_of_run (hown : s.pool.convertedFrom? s.heap source v = some own)
    {r : Routine} {s' s'' : Session} {depth : Nat} {w : Value}
    (hcompile : Session.getOrCompile registry own target mapping s = .ok r s')
    (hrun : r.run depth v .null state s' = .ok w s'') : ∃ t, s''.heap.Shows s.heap.size w t ∧
      s.Alone registry mapping state source target v (.ok t) := by
  obtain ⟨-, hheap, hends⟩ := hc.compiled_ends hcoherent halive hv hown hcompile
  obtain ⟨t, -, -, ht⟩ := (hends depth).exists_of_ok hrun
  rw [hheap] at ht
  exact ⟨t, ht, .converted hown hcompile hrun ht⟩

end

/-! ## Records member by member -/

/-- A record with the members of the pairs filled one after the other. -/
def Tree.fillAll (made : MemberPair → Tree) (pairs : List MemberPair) (ts : List Tree) :
    List Tree :=
  pairs.foldl (fun ts pair => ts.set pair.destination (made pair)) ts

section

variable {made : MemberPair → Tree} {pairs : List MemberPair} {ts : List Tree}

theorem Tree.getElem?_fillAll_of_forall_ne {i : Nat} (h : ∀ pair ∈ pairs, i ≠ pair.destination) :
    (fillAll made pairs ts)[i]? = ts[i]? := by
  induction pairs generalizing ts with
  | nil => rfl
  | cons pair pairs ih =>
    refine (ih fun pair hpair => h pair (List.mem_cons_of_mem _ hpair)).trans ?_
    exact List.getElem?_set_ne (h pair List.mem_cons_self).symm

/-- Members that are filled once each hold what they are filled with. -/
theorem Tree.getElem?_fillAll (hnodup : (pairs.map MemberPair.destination).Nodup)
    {pair : MemberPair} (hpair : pair ∈ pairs) (hlt : pair.destination < ts.length) :
    (fillAll made pairs ts)[pair.destination]? = some (made pair) := by
  induction pairs generalizing ts with
  | nil => cases hpair
  | cons first pairs ih =>
    rw [List.map_cons, List.nodup_cons] at hnodup
    change (fillAll made pairs (ts.set first.destination (made first)))[pair.destination]? = _
    rcases List.mem_cons.mp hpair with rfl | hpair
    · have hne : ∀ other ∈ pairs, pair.destination ≠ other.destination :=
        fun other hother heq => hnodup.1 (heq ▸ List.mem_map_of_mem hother)
      rw [getElem?_fillAll_of_forall_ne hne]
      exact List.getElem?_set_self hlt
    · exact ih hnodup.2 hpair (by rwa [List.length_set])

/-- If each pair fills its member, whatever the record holds, the record ends up filled by all of
them. -/
theorem Tree.foldlM_fill {f : Tree → MemberPair → Except Stop Tree}
    (h : ∀ pair ∈ pairs, ∀ record : Tree,
      f record pair = .ok (record.set pair.destination (made pair)))
    (inPlace : Bool) (shape : ShapeId) :
    pairs.foldlM f (.record inPlace shape ts) =
      .ok (.record inPlace shape (fillAll made pairs ts)) := by
  induction pairs generalizing ts with
  | nil => rfl
  | cons pair pairs ih =>
    rw [List.foldlM_cons, h pair List.mem_cons_self, Tree.set_record]
    exact ih fun pair hpair => h pair (List.mem_cons_of_mem _ hpair)

end

/-- What comes of the member of the value that a pair takes, converted on its own. -/
def Session.PairAlone (s : Session) (registry : RegistryId) (mapping : Mapping) (state : Value)
    (source target : Descriptor) (v : Value) (pair : MemberPair)
    (outcome : Except ConversionError Tree) : Prop :=
  ∃ m m', source.members[pair.source]? = some m ∧ target.members[pair.destination]? = some m' ∧
    s.Alone registry mapping state m.shape m'.shape ((s.heap.member? v pair.source).getD .null)
      outcome

/-- The value is a new record of the shape, in a box if it is held in place. The members of the
pairs show what was made of them, and the other members hold their zero values. -/
structure Session.Assembles (s : Session) (shape : ShapeId) (known : Descriptor)
    (pairs : List MemberPair) (made : MemberPair → Tree) (w : Value) (s' : Session) : Prop where
  kept : s.heap.Kept s'.heap
  boxed : known.valueType = true →
    ∃ token fields, w = .boxed token (.struct shape fields) ∧ fields.length = known.members.length
  object : known.valueType = false → ∃ a fields, w = .ref a ∧ s.heap.size ≤ a.index ∧
    s'.heap.get? a = some (.object shape fields) ∧ fields.size = known.members.length
  paired : ∀ pair ∈ pairs, ∃ u, s'.heap.member? w pair.destination = some u ∧
    s'.heap.Shows s.heap.size u (made pair)
  unpaired : ∀ (i : Nat) (m : Member), known.members[i]? = some m →
    (∀ pair ∈ pairs, i ≠ pair.destination) →
      ∃ zero, s.pool.zeroValue m.shape = .ok zero ∧ s'.heap.member? w i = some zero

/-- A finished record is assembled from the trees that it shows. -/
theorem Finished.assembles {s s' : Session} {shape : ShapeId} {known : Descriptor}
    {pairs : List MemberPair} {made : MemberPair → Tree} {w : Value} {ts : List Tree}
    (h : Finished s.pool s.heap s'.heap shape known
      (fun i => ∀ pair ∈ pairs, i ≠ pair.destination) w ts)
    (hk : s.heap.Kept s'.heap) (hpairs : ∀ pair ∈ pairs, pair.destination < known.members.length)
    (hts : ∀ pair ∈ pairs, ts[pair.destination]? = some (made pair)) :
    s.Assembles shape known pairs made w s' := by
  obtain ⟨record, fields, bound, hfilled, hboxed, hplain⟩ := h.record
  have hdraft := hfilled.draft
  have hmember (i : Nat) : s'.heap.member? w i = fields[i]? := by
    refine Eq.trans ?_ (hdraft.target.2 i)
    cases htype : known.valueType with
    | true =>
      obtain ⟨token, rfl⟩ := hboxed htype
      rfl
    | false => rw [hplain htype]
  refine ⟨hk, fun htype => ?_, fun htype => ?_, fun pair hpair => ?_, fun i m hm hi => ?_⟩
  · obtain ⟨token, rfl⟩ := hboxed htype
    rw [htype] at hdraft
    cases hdraft
    exact ⟨token, fields, rfl, hfilled.length⟩
  · obtain rfl := hplain htype
    rw [htype] at hdraft
    cases hdraft with
    | object hbound ha => exact ⟨_, _, rfl, hbound, ha, hfilled.length⟩
  · have hlt : pair.destination < fields.length := hfilled.length ▸ hpairs pair hpair
    have hu := List.getElem?_eq_getElem hlt
    refine ⟨_, (hmember _).trans hu, ?_⟩
    exact (hfilled.shows.each _ _ _ hu (hts pair hpair)).mono hdraft.le_bound fun _ _ _ h => h
  · have hlt : i < fields.length := hfilled.length ▸ (List.getElem?_eq_some_iff.mp hm).1
    have hu := List.getElem?_eq_getElem hlt
    exact ⟨_, hfilled.blank i _ m hi hu hm, (hmember i).trans hu⟩

section

variable {mappings : Mapping → Prop} {mapping : Mapping} {s : Session}
  {typed : Address → ShapeId → Prop}

/-- A record other than null shows its shape, boxed or not. -/
theorem Value.Fits.shape?_of_record {pool : Pool} {heap : Heap} (ht : heap.TypedBy pool typed)
    {shape : ShapeId} {known : Descriptor} (hb : pool.Below shape shape known)
    (hkind : known.kind = .record) {v : Value} (hv : v.Fits pool typed shape) (hnull : v ≠ .null) :
    heap.shape? v = some shape := by
  have hany : known.kind ≠ .any := by simp [hkind]
  induction hv with
  | null => exact absurd rfl hnull
  | primitive _ hp =>
    obtain ⟨_, _, hb', hcase⟩ := hp
    obtain ⟨rfl, rfl⟩ := hb.unique hb'
    simp [hkind] at hcase
  | struct hp _ _ _ _ _ => exact congrArg some (hp.eq hb hany)
  | boxed hcontent _ ih => exact ih hb (by rintro rfl; exact hcontent)
  | ref ha hp =>
    obtain ⟨i, hi, rfl, -⟩ := ht _ _ ha
    exact (congrArg (Option.map Instance.shape) hi).trans (congrArg some (hp.eq hb hany))

variable (hc : Imager mappings mapping s.pool typed s.heap) (hcoherent : s.Coherent mappings)
  {registry : RegistryId} (halive : s.registryAlive registry = true) {S : ShapeId}
  {source target : Descriptor} (hb : s.pool.Below S S source) (hkind : source.kind = .record)
  {v : Value} (hv : v.Fits s.pool typed S) (hnull : v ≠ .null) {state : Value}

include hc hcoherent halive hb hkind hv hnull

/-- From some depth on, what comes of a pair on its own is what its member is filled with. -/
theorem Session.PairAlone.exists_depth {pair : MemberPair} {outcome : Except ConversionError Tree}
    (h : s.PairAlone registry mapping state source target v pair outcome)
    (hbetween : ∃ m : MemberTransfer, m.pair = pair ∧ m.For s.pool .deep source target) :
    ∃ n, ∀ depth, n ≤ depth → ∀ record : Tree,
      mapping.fillImage s.pool s.heap (mapping.image s.pool s.heap depth) S source target v record
        pair = record.set pair.destination <$> outcome.mapError .failed := by
  obtain ⟨m, m', hm, hm', halone⟩ := h
  obtain ⟨transfer, rfl, member, member', hmember, hmember', hbetween⟩ := hbetween
  obtain rfl := Option.some.inj (hm.symm.trans hmember)
  obtain rfl := Option.some.inj (hm'.symm.trans hmember')
  have hshape : s.heap.shape? v.unboxed = some S := by
    rw [Heap.shape?_unboxed]
    exact hv.shape?_of_record hc.typedBy hb hkind hnull
  have hread : s.heap.memberAs v.unboxed S transfer.pair.source =
      .ok ((s.heap.member? v transfer.pair.source).getD .null) := by
    rw [Heap.memberAs, hshape]
    dsimp only
    rw [if_pos rfl, Heap.member?_unboxed]
  have hfits := hc.typedBy.fits_memberAs hv.unboxed hb.descriptor hm hread
  obtain ⟨n, hn⟩ := halone.exists_depth hc hcoherent halive hfits
  refine ⟨n, fun depth hdepth record => ?_⟩
  obtain ⟨more, hmore, himage⟩ := Mapping.memberImage_eq_alone hc ⟨_, hbetween⟩ hfits depth
  rw [Mapping.fillImage, hm, hm']
  dsimp only
  rw [hread]
  change (mapping.memberImage _ _ _ _ _ _ >>= fun t => _) = _
  rw [himage, hn more (Nat.le_trans hdepth hmore)]
  rfl

/-- From some depth on, pairs that convert on their own are filled in one after the other. -/
theorem Session.PairAlone.exists_depth_fill {made : MemberPair → Tree} {pairs : List MemberPair}
    (hpairs : ∀ pair ∈ pairs,
      s.PairAlone registry mapping state source target v pair (.ok (made pair)))
    (hbetween : ∀ pair ∈ pairs,
      ∃ m : MemberTransfer, m.pair = pair ∧ m.For s.pool .deep source target) :
    ∃ n, ∀ depth, n ≤ depth → ∀ (inPlace : Bool) (shape : ShapeId) (ts : List Tree),
      pairs.foldlM (mapping.fillImage s.pool s.heap (mapping.image s.pool s.heap depth) S source
        target v) (.record inPlace shape ts) =
          .ok (.record inPlace shape (Tree.fillAll made pairs ts)) := by
  obtain ⟨n, hn⟩ := Reshape.exists_depth pairs fun pair hpair =>
    (hpairs pair hpair).exists_depth hc hcoherent halive hb hkind hv hnull (hbetween pair hpair)
  exact ⟨n, fun depth hdepth inPlace shape ts => Tree.foldlM_fill (hn depth hdepth) inPlace shape⟩

end

/-- A routine between two records runs the form of a record. -/
theorem Routine.Live.exists_recordForm {mappings : Mapping → Prop} {mapping : Mapping} {s : Session}
    {typed : Address → ShapeId → Prop} (hc : Imager mappings mapping s.pool typed s.heap)
    (hs : s.Holds mappings s.pool s.heap) {r : Routine} (hr : r.Live mapping.id s)
    {source target : Descriptor} (hb : s.pool.Below r.key.source r.key.source source)
    (hb' : s.pool.Below r.key.target r.key.target target) (hkind : source.kind = .record)
    (hkind' : target.kind = .record) :
    ∃ form : RecordForm, form.For s.pool mapping r.key.source r.key.target source target ∧
      ∀ depth v d state, r.run (depth + 1) v d state =
        form.run (Routine.run depth) ⟨v, d, state, r.linkage⟩ := by
  obtain ⟨_, -, -, -, hmapping, hid, hmade⟩ := hr.exists_owner hs
  have hbody := hmade.body
  rw [hc.unique _ _ hmapping hc.allows hid] at hbody
  obtain ⟨below, known, below', known', hbelow, hbelow', form, hrun, hform⟩ :=
    Mapping.exists_form hc.grows hc.converters hbody
  obtain ⟨rfl, rfl⟩ := hb.unique hbelow
  obtain ⟨rfl, rfl⟩ := hb'.unique hbelow'
  obtain ⟨form', rfl, hform'⟩ := hform.exists_record hkind hkind'
  exact ⟨form', hform', fun depth v d state =>
    (Routine.run_succ depth r v d state).trans (hrun _ _)⟩

section

variable {mappings : Mapping → Prop} {mapping : Mapping} {s : Session}
  (h : s.Reachable mappings) {typed : Address → ShapeId → Prop}
  (hc : Imager mappings mapping s.pool typed s.heap) {registry : RegistryId}
  (halive : s.registryAlive registry = true) {S T : ShapeId} {r : Routine}
  (hcached : s.cached? registry ⟨S, T, mapping.id⟩ = some r) {source target : Descriptor}
  (hsource : s.pool.descriptor S = .ok source) (htarget : s.pool.descriptor T = .ok target)
  (hkind : source.kind = .record) (hkind' : target.kind = .record)
  (hconstructible : target.valueType = true ∨ target.defaultConstructor = true) {v : Value}
  (hv : v.Fits s.pool typed S) (hnull : v ≠ .null) (state : Value)

include h hc halive hcached hsource htarget hkind hkind' hconstructible hv hnull

/-- A routine between two records that a registry keeps fills in the pairs one after the other, and
finishes the record. -/
theorem Session.Reachable.record_ends :
    (∀ pair ∈ mapping.rules.existing source target,
      ∃ m : MemberTransfer, m.pair = pair ∧ m.For s.pool .deep source target) ∧
    ∀ depth, RunM.Ends (r.run (depth + 1) v .null state) s
      ((mapping.rules.existing source target).foldlM (mapping.fillImage s.pool s.heap
        (mapping.image s.pool s.heap depth) S source target v) (s.pool.blank T target))
      fun t w s' => s.Precedes mappings s' ∧ ∃ ts, t = .record target.valueType T ts ∧
        Finished s.pool s.heap s'.heap T target
          (fun i => ∀ pair ∈ mapping.rules.existing source target, i ≠ pair.destination) w ts := by
  have hcoherent := h.coherent
  obtain ⟨owner, howned⟩ := h.coherent
  obtain ⟨hknows, hkey, hregistry⟩ := howned.registry_of_cached? hcached
  have hs : s.Holds mappings s.pool s.heap := ⟨hcoherent, rfl, .refl _⟩
  have hr : r.Live mapping.id s := ⟨hknows, hregistry ▸ halive, by rw [hkey]⟩
  have hb : s.pool.Below S S source := .of_descriptor hsource (by simp [hkind])
  have hb' : s.pool.Below T T target := .of_descriptor htarget (by simp [hkind'])
  obtain ⟨form, hform, hrun⟩ :=
    hr.exists_recordForm hc hs (by rwa [hkey]) (by rwa [hkey]) hkind hkind'
  rw [hkey] at hform
  have hmade : ¬(target.valueType = false ∧ target.defaultConstructor = false) := by
    rintro ⟨htype, hconstructor⟩
    simp [htype, hconstructor] at hconstructible
  refine ⟨fun pair hpair => ?_, fun depth => ?_⟩
  · rw [← hform.pairs] at hpair
    obtain ⟨m, hm, rfl⟩ := List.mem_map.mp hpair
    exact ⟨m, rfl, hc.deep ▸ hform.members m hm⟩
  · let frame : Frame := ⟨v, .null, state, r.linkage⟩
    rw [hrun]
    exact RecordForm.For.finishes hc hs hr (show frame.linkage = r.linkage from rfl)
      (Routine.run_images hc state depth) hb hform hb' hkind' hv (.null T) hnull hmade

/-- A record is converted member by member : if all pairs convert on their own, the routine makes a
new record of what they become, and else it ends with the error of the first pair that does not. -/
theorem Session.Reachable.run_memberwise :
    (∀ made : MemberPair → Tree,
      (∀ pair ∈ mapping.rules.existing source target,
        s.PairAlone registry mapping state source target v pair (.ok (made pair))) →
      ∃ n, ∀ depth, n ≤ depth → Succeeds (r.run depth v .null state) s
        (s.Assembles T target (mapping.rules.existing source target) made)) ∧
    ∀ (made : MemberPair → Tree) (before after : List MemberPair) (pair : MemberPair)
      (e : ConversionError), mapping.rules.existing source target = before ++ pair :: after →
      (∀ pair ∈ before,
        s.PairAlone registry mapping state source target v pair (.ok (made pair))) →
      s.PairAlone registry mapping state source target v pair (.error e) →
      ∃ n, ∀ depth, n ≤ depth → ∃ s', r.run depth v .null state s = .error (.failed e) s' := by
  have hcoherent := h.coherent
  have hb : s.pool.Below S S source := .of_descriptor hsource (by simp [hkind])
  obtain ⟨hbetween, hends⟩ := record_ends h hc halive hcached hsource htarget hkind hkind'
    hconstructible hv hnull state
  constructor
  · intro made hpairs
    obtain ⟨n, hn⟩ := Session.PairAlone.exists_depth_fill hc hcoherent halive hb hkind hv hnull
      hpairs hbetween
    refine ⟨n + 1, fun depth hdepth => ?_⟩
    obtain ⟨depth, rfl⟩ := Nat.exists_eq_add_of_le' (Nat.le_trans (Nat.le_add_left 1 n) hdepth)
    have hend := hends depth
    rw [Pool.blank, hn depth (Nat.le_of_succ_le_succ hdepth)] at hend
    refine Succeeds.mono hend ?_
    rintro w s' ⟨hl, ts, heq, hfinished⟩
    obtain rfl := Tree.record_inj heq
    have hlt : ∀ pair ∈ mapping.rules.existing source target,
        pair.destination < target.members.length :=
      fun pair hpair => (of_decide_eq_true (List.mem_filter.mp hpair).2).2
    have hnodup : ((mapping.rules.existing source target).map MemberPair.destination).Nodup :=
      (hc.once source target).sublist (List.filter_sublist.map _)
    refine hfinished.assembles hl.kept hlt fun pair hpair => ?_
    exact Tree.getElem?_fillAll hnodup hpair (by simpa using hlt pair hpair)
  · intro made before after pair e hsplit hbefore hpair
    rw [hsplit] at hbetween
    obtain ⟨n, hn⟩ := Session.PairAlone.exists_depth_fill hc hcoherent halive hb hkind hv hnull
      hbefore fun other hother => hbetween other (List.mem_append_left _ hother)
    obtain ⟨n', hn'⟩ := hpair.exists_depth hc hcoherent halive hb hkind hv hnull
      (hbetween pair (List.mem_append_right _ List.mem_cons_self))
    refine ⟨max n n' + 1, fun depth hdepth => ?_⟩
    obtain ⟨depth, rfl⟩ := Nat.exists_eq_add_of_le' (Nat.le_trans (Nat.le_add_left 1 _) hdepth)
    have hdepth' := Nat.le_of_succ_le_succ hdepth
    have hend := hends depth
    rw [Pool.blank, hsplit, List.foldlM_append,
      hn depth (Nat.le_trans (Nat.le_max_left n n') hdepth')] at hend
    change RunM.Ends _ _ (List.foldlM _ _ (pair :: after)) _ at hend
    rw [List.foldlM_cons, hn' depth (Nat.le_trans (Nat.le_max_right n n') hdepth')] at hend
    exact hend

end

/-! ## A message that is tallied -/

namespace Tally

def message : Descriptor :=
  .ofRecord "Message" [⟨"count", ShapeId.str, {}⟩, ⟨"rest", ShapeId.any, {}⟩]

/-- It is held in place, and has a member that no message has. -/
def tally : Descriptor :=
  .ofRecord "Tally" [⟨"count", ShapeId.int, {}⟩, ⟨"rest", ShapeId.any, {}⟩,
    ⟨"total", ShapeId.int, {}⟩] true

def operations : List Pool.Operation := [.register message, .register tally]

def pool : Pool :=
  (Pool.initial.push ⟨"Message", some message⟩).push ⟨"Tally", some tally⟩

/-- A message of a number and a list, and one of a word and null. -/
def heap : Heap where
  instances := #[.object ⟨7⟩ #[.str ⟨0⟩ "7", .ref ⟨1⟩], .seq ShapeId.untypedList #[.int 1],
    .object ⟨7⟩ #[.str ⟨1⟩ "x", .null]]
  tokens := 2

def session : Session :=
  .compiling operations heap Mapping.initial ⟨7⟩ ⟨8⟩

def routine : Routine :=
  Session.compiled operations heap Mapping.initial ⟨7⟩ ⟨8⟩

/-- What becomes of the members of the first message. -/
def made (pair : MemberPair) : Tree :=
  match pair.source with
  | 0 => .int 7
  | _ => .seq ShapeId.untypedList [.int 1]

theorem pool_eq : session.pool = pool := by
  have hpool : operations.foldl Pool.Operation.apply Pool.initial = pool := by decide +kernel
  exact (Session.pool_and_heap_compiling operations heap Mapping.initial ⟨7⟩ ⟨8⟩).1.trans hpool

theorem heap_eq : session.heap = heap :=
  (Session.pool_and_heap_compiling operations heap Mapping.initial ⟨7⟩ ⟨8⟩).2

theorem reachable : session.Reachable (· = Mapping.initial) :=
  Session.reachable_compiling operations heap Mapping.initial ⟨7⟩ ⟨8⟩

theorem typedBy : heap.TypedBy pool heap.shapes :=
  Heap.typedBy_shapes (by decide +kernel)

theorem imager :
    Imager (· = Mapping.initial) Mapping.initial session.pool heap.shapes session.heap where
  grows := reachable.growsTo
  any id known hknown := by
    rw [pool_eq] at hknown
    exact Pool.of_slots (p := fun id known => known.kind = .any → id = ShapeId.any)
      (by decide +kernel) hknown
  typedBy := by
    rw [pool_eq, heap_eq]
    exact typedBy
  allows := rfl
  unique m m' h h' _ := h.trans h'.symm
  deep := rfl
  converters := rfl
  once := NameRules.nodup_pairs {}

theorem fits {n : Nat} {i : Instance} (hi : heap.get? ⟨n⟩ = some i) (hshape : i.shape = ⟨7⟩) :
    (Value.ref ⟨n⟩).Fits session.pool heap.shapes ⟨7⟩ := by
  rw [pool_eq]
  exact .ref ⟨i, hi, hshape⟩ ⟨_, _, ⟨rfl, rfl⟩, Or.inr rfl⟩

end Tally

/-- The text becomes an integer, and the list is copied. -/
theorem Session.Reachable.run_memberwise_tally :
    (∃ n, ∀ depth, n ≤ depth → Succeeds (Tally.routine.run depth (.ref ⟨0⟩) .null .null)
      Tally.session (Tally.session.Assembles ⟨8⟩ Tally.tally [⟨0, 0⟩, ⟨1, 1⟩] Tally.made)) ∧
    ∃ n, ∀ depth, n ≤ depth → ∃ s', Tally.routine.run depth (.ref ⟨2⟩) .null .null Tally.session =
      .error (.failed (.primitive ⟨"\"x\"", .int⟩)) s' := by
  have hcached : Tally.session.cached? ⟨0⟩ ⟨⟨7⟩, ⟨8⟩, Mapping.initial.id⟩ = some Tally.routine :=
    rfl
  have hmessage : Tally.session.pool.descriptor ⟨7⟩ = .ok Tally.message := by
    rw [Tally.pool_eq]
    rfl
  have htally : Tally.session.pool.descriptor ⟨8⟩ = .ok Tally.tally := by
    rw [Tally.pool_eq]
    rfl
  have hpairs : Mapping.initial.rules.existing Tally.message Tally.tally = [⟨0, 0⟩, ⟨1, 1⟩] := rfl
  constructor
  · have hrun := (Session.Reachable.run_memberwise Tally.reachable Tally.imager rfl hcached hmessage
      htally rfl rfl (Or.inl rfl) (Tally.fits (n := 0) rfl rfl) nofun .null).1 Tally.made
    rw [hpairs] at hrun
    refine hrun fun pair hpair => ?_
    simp only [List.mem_cons, List.not_mem_nil, or_false] at hpair
    rcases hpair with rfl | rfl
    · exact ⟨_, _, rfl, rfl, .converted rfl rfl (show Routine.run 1 _ _ _ _ _ = _ from rfl) .int⟩
    · refine ⟨_, _, rfl, rfl, .converted rfl rfl (show Routine.run 3 _ _ _ _ _ = _ from rfl) ?_⟩
      refine .seq (a := ⟨3⟩) (Nat.le_refl 3) rfl rfl fun i w t hw ht => ?_
      match i with
      | 0 =>
        cases hw
        cases ht
        exact .int
      | i + 1 => cases hw
  · have hrun := (Session.Reachable.run_memberwise Tally.reachable Tally.imager rfl hcached hmessage
      htally rfl rfl (Or.inl rfl) (Tally.fits (n := 2) rfl rfl) nofun .null).2
    refine hrun Tally.made [] [⟨1, 1⟩] ⟨0, 0⟩ _ hpairs nofun ?_
    exact ⟨_, _, rfl, rfl, .failed rfl rfl (show Routine.run 1 _ _ _ _ _ = _ from rfl)⟩

end Reshape
