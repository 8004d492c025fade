import Reshape.Proofs.Routine.Contract
import Reshape.Proofs.Routine.Image
import Reshape.Proofs.Session.Live
import Reshape.Proofs.Value.Draft

/-!
# Runs and images

Under a deep mapping without converters, a routine that is run on a value of its source shape, with
nothing supplied for the result, ends as the image of the value says : with the error that is the
image, or with a value made of new instances that shows it (`Routine.run_images`). So what comes of
a value does not depend on when the routine is run, on what other routines there are, or on what has
been made in the meantime.

`RunM.Ends` says that a computation ends as an outcome says ; its laws take the two apart together.
A place that is about to be filled is vacant (`Pool.Vacant`) : it is null or holds its zero value,
which is filled as a new one would be.
-/

set_option linter.unusedSectionVars false

namespace Reshape

/-! ## Outcomes -/

/-- The computation ends as the outcome says : with the stop, or with a value that `ok` relates to
the value there. -/
def RunM.Ends {α β : Type} (x : RunM α) (s : Session) (outcome : Except Stop β)
    (ok : β → α → Session → Prop) : Prop :=
  match outcome with
  | .ok b => Succeeds x s (ok b)
  | .error stop => ∃ s', x s = .error stop s'

namespace RunM.Ends

variable {α β γ δ : Type} {x : RunM α} {s s' : Session} {o : Except Stop β}
  {p p' : β → α → Session → Prop} {q : γ → δ → Session → Prop}

theorem pure {a : α} {b : β} (h : p b a s) : Ends (Pure.pure a) s (.ok b) p :=
  Succeeds.pure h

theorem of_eq {y : RunM α} (hxy : x s = y s') (h : Ends y s' o p) : Ends x s o p := by
  cases o with
  | ok b => exact Succeeds.of_eq hxy h
  | error stop => exact h.imp fun _ hy => hxy.trans hy

theorem mono (h : Ends x s o p)
    (hp : ∀ b a s', o = .ok b → p b a s' → p' b a s') : Ends x s o p' := by
  cases o with
  | ok b => exact Succeeds.mono h fun a s' => hp b a s' rfl
  | error stop => exact h

theorem bind {f : α → RunM δ} {g : β → Except Stop γ} (h : Ends x s o p)
    (hf : ∀ b a s', o = .ok b → p b a s' → Ends (f a) s' (g b) q) :
    Ends (x >>= f) s (o >>= g) q := by
  cases o with
  | ok b =>
    obtain ⟨a, s', hx, ha⟩ := h
    have hrest := hf b a s' rfl ha
    change Ends (x >>= f) s (g b) q
    have hbind : (x >>= f) s = f a s' := by
      change EStateM.bind x f s = _
      unfold EStateM.bind
      rw [hx]
    unfold Ends Succeeds at *
    rw [hbind]
    exact hrest
  | error stop =>
    obtain ⟨s', hx⟩ := h
    refine ⟨s', ?_⟩
    change EStateM.bind x f s = _
    unfold EStateM.bind
    rw [hx]

/-- A step that only looks, or does what it does whatever comes of the rest. -/
theorem bind_ok {f : α → RunM δ} {a : α} {o : Except Stop γ} (hx : x s = .ok a s')
    (h : Ends (f a) s' o q) : Ends (x >>= f) s o q :=
  bind (o := .ok ()) (p := fun _ a' s'' => a' = a ∧ s'' = s') (g := fun _ => o)
    ⟨a, s', hx, rfl, rfl⟩ (by
      rintro _ _ _ - ⟨rfl, rfl⟩
      exact h)

theorem map {f : α → δ} {g : β → γ} (h : Ends x s o p)
    (hf : ∀ b a s', p b a s' → q (g b) (f a) s') : Ends (f <$> x) s (g <$> o) q := by
  rw [map_eq_pure_bind, map_eq_pure_bind]
  exact bind h fun b a s' _ ha => pure (hf b a s' ha)

/-- A step that comes last and does not fail. -/
theorem bind_right {f : α → RunM δ} {q : β → δ → Session → Prop} (h : Ends x s o p)
    (hf : ∀ b a s', p b a s' → Succeeds (f a) s' (q b)) : Ends (x >>= f) s o q := by
  have := bind (g := Except.ok) (q := q) h fun b a s' _ ha => hf b a s' ha
  rwa [show o >>= Except.ok = o from bind_pure o] at this

/-- What is made of the outcome alone. -/
theorem image {g : β → γ} {q : γ → α → Session → Prop} (h : Ends x s o p)
    (hp : ∀ b a s', p b a s' → q (g b) a s') : Ends x s (g <$> o) q := by
  have hmap := map (f := id) (g := g) (q := q) h hp
  rwa [id_map] at hmap

theorem exists_of_ok {a : α} (h : Ends x s o p) (hx : x s = .ok a s') :
    ∃ b, o = .ok b ∧ p b a s' := by
  cases o with
  | ok b =>
    obtain ⟨a', s'', hx', ha⟩ := h
    cases hx.symm.trans hx'
    exact ⟨b, rfl, ha⟩
  | error stop =>
    obtain ⟨s'', hx'⟩ := h
    cases hx.symm.trans hx'

theorem eq_of_error {stop : Stop} (h : Ends x s o p) (hx : x s = .error stop s') :
    o = .error stop := by
  cases o with
  | ok b =>
    obtain ⟨a', s'', hx', ha⟩ := h
    cases hx.symm.trans hx'
  | error stop' =>
    obtain ⟨s'', hx'⟩ := h
    cases hx.symm.trans hx'
    rfl

end RunM.Ends

/-! ## What is read -/

/-- A primitive, boxed or not, converts the same in all heaps, but for tokens. -/
theorem Heap.convert_eq {q : Primitive} {v : Value}
    (hv : v = .null ∨ v.IsPrimitive q ∨ ∃ token content, v = .boxed token content ∧
      content.IsPrimitive q) (p : Primitive) (heap heap' : Heap) :
    (heap.convert v p).1.map Value.tree = (heap'.convert v p).1.map Value.tree := by
  have htext : heap.text v.unboxed = heap'.text v.unboxed := by
    rcases hv with rfl | hv | ⟨token, content, rfl, hv⟩
    · rfl
    · cases v <;> first | rfl | (cases q <;> exact hv.elim)
    · cases content <;> first | rfl | (cases q <;> exact hv.elim)
  unfold convert
  split
  · rfl
  · rfl
  · split
    · rfl
    · rw [htext]
  · split
    · rfl
    · rw [htext]

section

variable {pool : Pool} {typed : Address → ShapeId → Prop} {start heap : Heap} {v : Value}
  {place below : ShapeId} {known : Descriptor}

theorem Value.Fits.typed_of_bare {a : Address} (hv : v.Fits pool typed place)
    (ha : v.bare = .ref a) : ∃ own, typed a own := by
  induction hv with
  | null => cases ha
  | @primitive p v _ hv _ => cases p <;> cases v <;> first | exact hv.elim | cases ha
  | struct _ _ _ _ _ _ => cases ha
  | boxed _ _ ih => exact ih ha
  | ref h _ =>
    cases ha
    exact ⟨_, h⟩

variable (ht : start.TypedBy pool typed) (hv : v.Fits pool typed place) (hk : start.Kept heap)

include ht hv hk

/-- A value shows what it showed at the start. -/
theorem Heap.Kept.shape?_and_member?_eq :
    heap.shape? v = start.shape? v ∧ ∀ i, heap.member? v i = start.member? v i := by
  refine Heap.shape?_and_member?_eq fun a ha => ?_
  obtain ⟨own, hown⟩ := hv.typed_of_bare ha
  obtain ⟨i, hi, -⟩ := ht a own hown
  rw [hi, hk a i hi]

theorem Heap.Kept.memberAs_eq (shape : ShapeId) (i : Nat) :
    heap.memberAs v shape i = start.memberAs v shape i := by
  obtain ⟨hshape, hmember⟩ := Heap.Kept.shape?_and_member?_eq ht hv hk
  rw [memberAs, memberAs, hshape, hmember]

omit hk in
theorem Heap.TypedBy.fits_memberAs (hs : pool.descriptor below = .ok known) {i : Nat} {m : Member}
    (hm : known.members[i]? = some m) {u : Value} (hu : start.memberAs v below i = .ok u) :
    u.Fits pool typed m.shape := by
  unfold memberAs at hu
  cases hshape : start.shape? v with
  | none =>
    rw [hshape] at hu
    cases hu
    exact .null
  | some found =>
    rw [hshape] at hu
    dsimp only at hu
    split at hu
    · rename_i heq
      cases hu
      exact ht.fits_member hs hm hv (heq ▸ hshape)
    · cases hu

/-- The elements are those of the start, those that a stream reads too. -/
theorem Heap.Kept.elements?_eq : heap.elements? v = start.elements? v := by
  cases v with
  | ref a =>
    obtain ⟨own, hown⟩ := hv.typed_of_bare rfl
    obtain ⟨i, hi, -, hfits⟩ := ht a own hown
    rw [elements?_ref, elements?_ref, hi, hk a i hi]
    cases hfits with
    | live _ _ hsource _ =>
      dsimp only
      rw [streamItems_sequence, streamItems_sequence, hsource, hk _ _ hsource]
    | object _ _ _ _ _ | seq _ _ _ | items _ _ _ => rfl
  | _ => rfl

omit hk in
/-- A value other than null has a shape of its own, which is not of the kind `any`. -/
theorem Value.Fits.exists_own (hpool : Pool.initial.GrowsTo pool) (hnull : v ≠ .null) :
    ∃ own known, start.shape? v = some own ∧ pool.Below own own known ∧ known.kind ≠ .any ∧
      v.Fits pool typed own := by
  have hself : ∃ own known, start.shape? v = some own ∧ pool.Below own own known ∧
      known.kind ≠ .any := by
    induction hv with
    | null => exact absurd rfl hnull
    | @primitive p v _ hv _ =>
      refine ⟨p.shape, _, ?_, .of_primitive hpool p, nofun⟩
      cases p <;> cases v <;> first | rfl | exact hv.elim
    | struct _ hs hkind _ _ _ =>
      exact ⟨_, _, rfl, .of_descriptor hs (by simp [hkind]), by simp [hkind]⟩
    | boxed hc _ ih =>
      exact ih (by rintro rfl; exact hc)
    | ref ha _ =>
      obtain ⟨i, hi, rfl, -⟩ := ht _ _ ha
      obtain ⟨known, hs, hcase⟩ := ht.descriptor ha
      refine ⟨_, known, congrArg (Option.map Instance.shape) hi, .of_descriptor hs ?_, ?_⟩
      · rcases hcase with hkind | ⟨_, _, hkind⟩ <;> simp [hkind]
      · rcases hcase with hkind | ⟨_, _, hkind⟩ <;> simp [hkind]
  obtain ⟨own, known, hown, hb, hany⟩ := hself
  exact ⟨own, known, hown, hb, hany, ht.fits_own hpool hv hown⟩

end

/-! ## Vacant places -/

section

variable {pool : Pool} {place below : ShapeId} {known : Descriptor} {v d : Value}

/-- What may stand in a place of the shape before anything is written to it. -/
def Pool.Vacant (pool : Pool) (place : ShapeId) (d : Value) : Prop :=
  d = .null ∨ pool.zeroValue place = .ok d

namespace Pool.Vacant

theorem null (place : ShapeId) : pool.Vacant place .null :=
  Or.inl rfl

/-- A nullable place starts as null. -/
theorem of_below (hb : pool.Below place below known) (h : pool.Vacant place d) :
    pool.Vacant below d := by
  rcases h with rfl | h
  · exact null below
  · have hstrip := hb.strip
    unfold stripNullable at hstrip
    rw [stripNullableWithin] at hstrip
    cases hplace : pool.descriptor place with
    | error e =>
      rw [hplace] at hstrip
      cases hstrip
    | ok known' =>
      rw [hplace] at hstrip
      cases hkind : known'.kind with
      | nullable _ =>
        exact Or.inl (zeroValue_eq_null hplace (by simp [hkind]) (by simp [hkind]) h)
      | _ =>
        simp only [hkind] at hstrip
        cases hstrip
        exact Or.inr h

/-- A place that is not held in place, and takes no primitives, starts as null. -/
theorem eq_null (hid : pool.descriptor place = .ok known)
    (hkind : known.kind = .record → known.valueType = false)
    (hprimitive : ∀ p, known.kind ≠ .primitive p) (h : pool.Vacant place d) : d = .null :=
  h.elim id (zeroValue_eq_null hid hkind hprimitive)

end Pool.Vacant

end

/-! ## What images are made with -/

/-- A deep mapping without converters that fills each member once, a pool in which `any` is the only
shape of its kind, and a heap whose typed addresses hold what their shapes say. -/
structure Imager (mappings : Mapping → Prop) (mapping : Mapping) (pool : Pool)
    (typed : Address → ShapeId → Prop) (start : Heap) : Prop where
  grows : Pool.initial.GrowsTo pool
  any : ∀ id known, pool.descriptor id = .ok known → known.kind = .any → id = ShapeId.any
  typedBy : start.TypedBy pool typed
  allows : mappings mapping
  unique : ∀ m m', mappings m → mappings m' → m.id = m'.id → m = m'
  deep : mapping.copyMode = .deep
  converters : mapping.converters = []
  once : ∀ source target, ((mapping.rules.pairs source target).map MemberPair.destination).Nodup

/-- The value shows the tree, made of instances that the first session does not have, and the second
session comes of the first. -/
def Imaged (mappings : Mapping → Prop) (s : Session) (t : Tree) (w : Value) (s' : Session) : Prop :=
  s.Precedes mappings s' ∧ s'.heap.Shows s.heap.size w t

/-- Run to the depth, routines end as images say. -/
def ImagesWithin (mappings : Mapping → Prop) (mapping : Mapping) (pool : Pool)
    (typed : Address → ShapeId → Prop) (start : Heap) (state : Value) (depth : Nat) : Prop :=
  ∀ (s : Session) (r : Routine) (v d : Value), s.Holds mappings pool start → r.Live mapping.id s →
    v.Fits pool typed r.key.source → pool.Vacant r.key.target d →
    RunM.Ends (r.run depth v d state) s
      (mapping.image pool start depth r.key.source r.key.target v) (Imaged mappings s)

section

variable {mappings : Mapping → Prop} {mapping : Mapping} {pool : Pool} {start : Heap}
  {s s' : Session} {t : Tree} {w : Value}

/-- What refers to nothing shows its own tree. -/
theorem Imaged.self (h : s.Coherent mappings) (hw : w.Within fun _ => False) :
    Imaged mappings s w.tree w s :=
  ⟨.refl h, Heap.Shows.tree s.heap s.heap.size w hw⟩

theorem Imaged.null (h : s.Coherent mappings) : Imaged mappings s .null .null s :=
  ⟨.refl h, .null⟩

/-- What is stored in place shows the same. -/
theorem Imaged.placed_ends {x : RunM Value} {outcome : Except Stop Tree} (inline : Bool)
    (h : RunM.Ends x s outcome (Imaged mappings s)) :
    RunM.Ends (Transfer.placed inline <$> x) s outcome (Imaged mappings s) := by
  have hmap := RunM.Ends.map (f := Transfer.placed inline) (g := id) (q := Imaged mappings s) h
    fun t w s' hw => by
      refine ⟨hw.1, ?_⟩
      cases inline with
      | false => exact hw.2
      | true => exact hw.2.unboxed
  rwa [id_map] at hmap

/-- What is made once something else has been done. -/
theorem Imaged.after {s₁ : Session} (hl : s.Precedes mappings s₁) (h : Imaged mappings s₁ t w s') :
    Imaged mappings s t w s' :=
  ⟨hl.trans h.1, h.2.mono hl.kept.size_le fun _ _ _ h => h⟩

/-- A change of tokens alone. -/
theorem Imaged.withTokens (h : Imaged mappings s t w s') {heap : Heap}
    (hheap : ∃ n, heap = { s'.heap with tokens := n }) :
    Imaged mappings s t w { s' with heap := heap } := by
  obtain ⟨n, rfl⟩ := hheap
  refine ⟨h.1.withHeap h.1.kept, Heap.Shows.mono (Nat.le_refl _) ?_ h.2⟩
  exact fun _ _ _ h => h

/-- A primitive is converted to the same in all heaps. -/
theorem RunM.convert_ends (h : s.Coherent mappings) {q : Primitive} {v : Value}
    (hv : v = .null ∨ v.IsPrimitive q ∨ ∃ token content, v = .boxed token content ∧
      content.IsPrimitive q) (p : Primitive) (start : Heap) :
    RunM.Ends (RunM.onHeapExcept .primitive (Heap.convert v p)) s
      (match (start.convert v p).1 with
        | .ok w => .ok w.tree
        | .error e => .error (.failed (.primitive e))) (Imaged mappings s) := by
  have hsame := Heap.convert_eq hv p s.heap start
  obtain ⟨htokens, hprimitive⟩ := Heap.convert_spec v p s.heap
  rcases hconvert : s.heap.convert v p with ⟨_ | w, heap⟩ <;>
    cases hstart : (start.convert v p).1 <;> rw [hconvert, hstart] at hsame
  case error.error e e' =>
    obtain rfl : e = e' := Except.error.inj hsame
    refine ⟨{ s with heap := heap }, ?_⟩
    unfold onHeapExcept
    rw [hconvert]
  case ok.ok w' =>
    have htree : w.tree = w'.tree := Except.ok.inj hsame
    rw [hconvert] at htokens hprimitive
    refine ⟨w, { s with heap := heap }, ?_, ?_⟩
    · unfold onHeapExcept
      rw [hconvert]
    · rw [← htree]
      refine (Imaged.self h ?_).withTokens htokens
      rcases hprimitive w rfl with rfl | hw
      · exact .null
      · exact hw.within
  all_goals cases hsame

variable {typed : Address → ShapeId → Prop} {r : Routine}
  (hc : Imager mappings mapping pool typed start) (hs : s.Holds mappings pool start)
  (hr : r.Live mapping.id s)

include hc hs hr

/-- A search for the routine for two shapes finds it, or ends with the reason why there is none. -/
theorem Routine.Live.search_ends {owner : Nat → Linkage} {source target : ShapeId}
    {x : RunM Routine} (hx : s.Searches mappings owner r.linkage source target x) :
    RunM.Ends x s (mapping.offers pool source target)
      fun _ => s.FindsLive mappings mapping.id source target := by
  obtain ⟨_, -, -, -, hmapping, hid, -⟩ := hr.exists_owner hs
  obtain rfl := hc.unique _ _ hmapping hc.allows hid
  unfold Session.Searches Ensures at hx
  unfold RunM.Ends Mapping.offers Succeeds
  rw [← hs.pool_eq]
  cases hxs : x s with
  | ok found s' =>
    rw [hxs] at hx
    rw [(hx.1.body hc.unique hmapping).2]
    exact ⟨found, s', rfl, hr.of_finds hs hx.1⟩
  | error stop s' =>
    rw [hxs] at hx
    obtain ⟨e, rfl, hbody⟩ := hx.2.2.exists_error hr.alive
    rw [hbody]
    exact ⟨s', rfl⟩

theorem Routine.Live.resolve_ends (link : Link) :
    RunM.Ends (Session.resolve r.linkage link) s (mapping.offers pool link.source link.target)
      fun _ => s.FindsLive mappings mapping.id link.source link.target := by
  obtain ⟨owner, howned, hlt, howner, -, -, -⟩ := hr.exists_owner hs
  exact hr.search_ends hc hs (Session.resolve_searches howned hlt howner link)

theorem Routine.Live.resolveDynamic_ends (source target : ShapeId) :
    RunM.Ends (Session.resolveDynamic r.linkage source target) s
      (mapping.offers pool source target)
      fun _ => s.FindsLive mappings mapping.id source target := by
  obtain ⟨owner, howned, -, -, hmapping, -, -⟩ := hr.exists_owner hs
  exact hr.search_ends hc hs (Session.resolveDynamic_searches howned hmapping source target)

/-! ## Transfers -/

variable {frame : Frame} (hlinkage : frame.linkage = r.linkage) {depth : Nat}
  (ih : ImagesWithin mappings mapping pool typed start frame.state depth)

include hlinkage ih

/-- A routine that is found ends as the image says. -/
theorem ImagesWithin.found {source target : ShapeId} {v d : Value} {found : Routine}
    (hfound : s.FindsLive mappings mapping.id source target found s')
    (hv : v.Fits pool typed source) (hd : pool.Vacant target d) :
    RunM.Ends (found.run depth v d frame.state) s'
      (mapping.image pool start depth source target v) (Imaged mappings s) := by
  obtain ⟨hl, -, hlive, hsource, htarget⟩ := hfound
  have hends := ih s' found v d (hs.precedes hl) hlive (hsource ▸ hv) (htarget ▸ hd)
  rw [hsource, htarget] at hends
  exact hends.mono fun _ _ _ _ h => h.after hl

/-- A link ends in the image that the routine for its two shapes has. -/
theorem Transfer.byLink_ends {link : Link} {value current : RunM Value} {v d : Value}
    (hvalue : value s = .ok v s) (hcurrent : current s = .ok d s)
    (hv : v.Fits pool typed link.source) (hd : pool.Vacant link.target d) :
    RunM.Ends (byLink (Routine.run depth) frame link value current) s
      (mapping.throughLink pool (mapping.image pool start depth) link.source link.target v)
      (Imaged mappings s) := by
  refine RunM.Ends.bind_ok hvalue ?_
  unfold Mapping.throughLink
  by_cases hnull : v = .null
  · subst hnull
    exact RunM.Ends.pure (Imaged.null hs.coherent)
  · rw [if_neg (by simpa using hnull), if_neg (by simpa using hnull)]
    refine RunM.Ends.bind_ok hcurrent ?_
    rw [hlinkage]
    exact RunM.Ends.bind (hr.resolve_ends hc hs link) fun _ found s' _ hfound =>
      ih.found hc hs hr hlinkage hfound hv hd

/-- A value sent on by its shape ends in the image for its own shape. -/
theorem Transfer.byShape_ends {place : ShapeId} {target : Option ShapeId}
    {value current : RunM Value} {v d : Value} (hvalue : value s = .ok v s)
    (hcurrent : current s = .ok d s) (hv : v.Fits pool typed place)
    (hd : ∀ own, pool.Vacant (target.getD own) d) :
    RunM.Ends (byShape (Routine.run depth) frame target value current) s
      (mapping.throughShape pool start (mapping.image pool start depth) target v)
      (Imaged mappings s) := by
  refine RunM.Ends.bind_ok hvalue (.of_eq (get_bind _ s) ?_)
  unfold Mapping.throughShape
  rw [(Heap.Kept.shape?_and_member?_eq hc.typedBy hv hs.kept).1]
  cases hshape : start.shape? v with
  | none =>
    exact RunM.Ends.pure (Imaged.null hs.coherent)
  | some own =>
    refine RunM.Ends.bind_ok hcurrent ?_
    rw [hlinkage]
    exact RunM.Ends.bind (hr.resolveDynamic_ends hc hs own (target.getD own))
      fun _ found s' _ hfound => ih.found hc hs hr hlinkage hfound
        (hc.typedBy.fits_own hc.grows hv hshape) (hd own)

/-- A transfer between two shapes that are not nullable ends as the image says. -/
theorem Transfer.Carries.ends {t : Transfer} {source target : ShapeId} {known known' : Descriptor}
    (ht : t.Carries .deep source target known.kind known'.kind)
    (hb : pool.Below source source known) {value current : RunM Value} {v d : Value}
    (hvalue : value s = .ok v s) (hcurrent : current s = .ok d s)
    (hv : v.Fits pool typed source) (hd : pool.Vacant target d) :
    RunM.Ends (t.run (Routine.run depth) frame value current) s
      (mapping.across pool start (mapping.image pool start depth) source known.kind target
        known'.kind v) (Imaged mappings s) := by
  have hreused (reuse : Bool) : ∃ d', Transfer.reused reuse current s = .ok d' s ∧
      pool.Vacant target d' := by
    cases reuse with
    | true => exact ⟨d, hcurrent, hd⟩
    | false => exact ⟨.null, rfl, .null target⟩
  have hsourceAny (hne : source ≠ ShapeId.any) : known.kind ≠ .any :=
    fun hany => hne (hc.any _ _ hb.descriptor hany)
  cases ht with
  | @primitive p hsource htarget =>
    rw [hsource, htarget, Mapping.across, if_pos rfl]
    refine ⟨v, s, hvalue, .self hs.coherent ?_⟩
    rcases hc.typedBy.primitive_cases hb hsource hv with rfl | hp | ⟨_, _, rfl, hp⟩
    · exact .null
    · exact hp.within
    · exact Value.Within.boxed.mpr hp.within
  | @convert a b hsource htarget hne _ =>
    rw [hsource, htarget, Mapping.across, if_neg hne]
    exact RunM.Ends.bind_ok hvalue
      (RunM.convert_ends hs.coherent (hc.typedBy.primitive_cases hb hsource hv) b start)
  | shared hmode _ _ => cases hmode
  | @linked _ reuse inline hsource hany hprimitive =>
    obtain ⟨d', hcurrent', hd'⟩ := hreused reuse
    rw [Mapping.across_linked (hsourceAny hsource) hany hprimitive]
    exact Imaged.placed_ends inline (byLink_ends hc hs hr hlinkage ih hvalue hcurrent' hv hd')
  | @dynamic reuse inline hsource hany =>
    obtain ⟨d', hcurrent', hd'⟩ := hreused reuse
    rw [hsource, Mapping.across_of_any hany]
    exact Imaged.placed_ends inline
      (byShape_ends hc hs hr hlinkage ih hvalue hcurrent' hv fun _ => hd')
  | @copied _ inline hsource hany =>
    rw [hany, Mapping.across_into_any (hsourceAny hsource)]
    exact Imaged.placed_ends inline (byLink_ends hc hs hr hlinkage ih hvalue rfl hv (.null source))
  | @copiedByShape inline hsource hany =>
    subst hsource
    rw [hb.kind_eq_any hc.grows, hany]
    exact Imaged.placed_ends inline
      (byShape_ends hc hs hr hlinkage ih hvalue rfl hv fun _ => .null _)

end

/-! ## Records that are filled -/

/-- What stops the value stops the transfer. -/
theorem Transfer.run_of_error {t : Transfer} {invoke : Invoke} {frame : Frame}
    {value current : RunM Value} {s s' : Session} {stop : Stop} (h : value s = .error stop s') :
    t.run invoke frame value current s = .error stop s' := by
  have hbind {α β : Type} {x : RunM α} (hx : x s = .error stop s') (f : α → RunM β) :
      (x >>= f) s = .error stop s' := by
    change EStateM.bind x f s = _
    unfold EStateM.bind
    rw [hx]
  cases t with
  | same => exact h
  | convert _ | custom _ => exact hbind h _
  | linked _ _ _ | dynamic _ _ _ =>
    exact (congrFun (map_eq_pure_bind _ _) s).trans (hbind (hbind h _) _)

/-- The record shows the trees, one for each member, and members that are left hold zero values. -/
structure Filled (pool : Pool) (first heap : Heap) (shape : ShapeId) (known : Descriptor)
    (left : Nat → Prop) (record : Value) (fields : List Value) (bound : Nat) (ts : List Tree) :
    Prop where
  draft : first.Draft heap shape known.valueType record fields bound
  shows : heap.ShowsAll bound fields ts
  length : fields.length = known.members.length
  blank : ∀ (i : Nat) (w : Value) (m : Member), left i → fields[i]? = some w →
    known.members[i]? = some m → pool.zeroValue m.shape = .ok w

namespace Filled

variable {pool : Pool} {first heap heap' : Heap} {shape : ShapeId} {known : Descriptor}
  {left : Nat → Prop} {record w : Value} {fields : List Value} {bound : Nat} {ts : List Tree}
  {t : Tree}

theorem later (h : Filled pool first heap shape known left record fields bound ts)
    (hk : heap.Kept heap') : Filled pool first heap' shape known left record fields bound ts :=
  ⟨h.draft.later hk, h.shows.mono (Nat.le_refl _) fun _ _ _ hi => hk _ _ hi, h.length, h.blank⟩

theorem imp {left' : Nat → Prop}
    (h : Filled pool first heap shape known left record fields bound ts)
    (hleft : ∀ i, left' i → left i) :
    Filled pool first heap shape known left' record fields bound ts :=
  ⟨h.draft, h.shows, h.length, fun i w m hi => h.blank i w m (hleft i hi)⟩

/-- One more member is written. -/
theorem write (h : Filled pool first heap shape known left record fields bound ts)
    (hw : heap.Shows bound w t) (i : Nat) :
    Filled pool first (heap.writeMember record i w).2 shape known (fun j => left j ∧ j ≠ i)
      (heap.writeMember record i w).1 (fields.set i w) bound (ts.set i t) := by
  obtain ⟨hdraft, hget, -⟩ := h.draft.write i w
  refine ⟨hdraft, (h.shows.set hw i).mono (Nat.le_refl _) hget,
    (List.length_set ..).trans h.length, fun j w' m hj hw' hm => ?_⟩
  rw [List.getElem?_set_ne hj.2.symm] at hw'
  exact h.blank j w' m hj.1 hw' hm

/-- Fields that hold the zero values of the members. -/
theorem start (hdraft : first.Draft heap shape known.valueType record fields bound)
    (hfields : known.members.mapM (fun m => pool.zeroValue m.shape) = .ok fields) :
    Filled pool first heap shape known (fun _ => True) record fields bound
      (known.members.map fun m => pool.zeroTree m.shape) := by
  obtain ⟨hlength, hwithin, -⟩ := Pool.of_mapM_zeroValue hfields
  have hzero := (Except.of_mapM_eq_ok hfields).2
  have htrees : Value.trees fields = known.members.map fun m => pool.zeroTree m.shape := by
    rw [Value.trees_eq_map]
    refine List.ext_getElem (by simp [hlength]) fun i hi hi' => ?_
    have hlt : i < fields.length := by simpa using hi
    have hlt' : i < known.members.length := hlength ▸ hlt
    rw [List.getElem_map, List.getElem_map, Pool.zeroTree, hzero i _ _
      (List.getElem?_eq_getElem hlt') (List.getElem?_eq_getElem hlt)]
  refine ⟨hdraft, htrees ▸ Heap.ShowsAll.trees heap bound fields fun w hw => hwithin w hw _,
    hlength, fun i w m _ hw hm => hzero i m w hm hw⟩

end Filled

/-- The value is a new record that shows the trees, in a box if it is held in place. Members that
are left hold zero values. -/
structure Finished (pool : Pool) (first heap : Heap) (shape : ShapeId) (known : Descriptor)
    (left : Nat → Prop) (w : Value) (ts : List Tree) : Prop where
  record : ∃ record fields bound, Filled pool first heap shape known left record fields bound ts ∧
    (known.valueType = true → ∃ token, w = .boxed token record) ∧
    (known.valueType = false → w = record)

theorem Finished.shows {pool : Pool} {first heap : Heap} {shape : ShapeId} {known : Descriptor}
    {left : Nat → Prop} {w : Value} {ts : List Tree}
    (h : Finished pool first heap shape known left w ts) :
    heap.Shows first.size w (.record known.valueType shape ts) := by
  obtain ⟨record, fields, bound, hfilled, hboxed, hplain⟩ := h.record
  have hshows := hfilled.draft.shows hfilled.shows
  cases htype : known.valueType with
  | true =>
    obtain ⟨token, rfl⟩ := hboxed htype
    exact .boxed (htype ▸ hshows)
  | false =>
    rw [hplain htype]
    exact htype ▸ hshows

/-- The members of a record are filled once each. -/
theorem RecordForm.For.nodup {mappings : Mapping → Prop} {mapping : Mapping} {pool : Pool}
    {start : Heap} {typed : Address → ShapeId → Prop} {source target : ShapeId}
    {sourceShape targetShape : Descriptor} {form : RecordForm}
    (hform : form.For pool mapping source target sourceShape targetShape)
    (hc : Imager mappings mapping pool typed start) :
    (form.members.map fun m => m.pair.destination).Nodup := by
  have hmap : (form.members.map fun m => m.pair.destination) =
      (mapping.rules.existing sourceShape targetShape).map MemberPair.destination := by
    rw [← hform.pairs, List.map_map]
    rfl
  rw [hmap]
  exact (hc.once sourceShape targetShape).sublist (List.filter_sublist.map _)

section

variable {mappings : Mapping → Prop} {mapping : Mapping} {pool : Pool} {start : Heap}
  {typed : Address → ShapeId → Prop} {first s : Session} {r : Routine}
  (hc : Imager mappings mapping pool typed start) (hs : first.Holds mappings pool start)
  (hr : r.Live mapping.id first) {frame : Frame} (hlinkage : frame.linkage = r.linkage)
  {depth : Nat} (ih : ImagesWithin mappings mapping pool typed start frame.state depth)
  {source target : ShapeId} {sourceShape targetShape : Descriptor}
  (hb : pool.Below source source sourceShape) (hb' : pool.Below target target targetShape)
  {form : RecordForm} (hform : form.For pool mapping source target sourceShape targetShape)

include hc hs hr hlinkage ih hb hform

/-- A member is converted into one that holds its zero value. -/
theorem RecordForm.transfer_ends {v record : Value} {fields : List Value} {bound : Nat}
    {ts : List Tree} {left : Nat → Prop} {m : MemberTransfer}
    (hm : m.For pool .deep sourceShape targetShape) {member member' : Member}
    (hmember : sourceShape.members[m.pair.source]? = some member)
    (hmember' : targetShape.members[m.pair.destination]? = some member')
    (hv : v.Fits pool typed source) (hl : first.Precedes mappings s)
    (h : Filled pool first.heap s.heap target targetShape left record fields bound ts)
    (hleft : left m.pair.destination) :
    RunM.Ends (m.transfer.run (Routine.run depth) frame
      (RunM.readMember v form.source m.pair.source)
      (RunM.readMember record form.target m.pair.destination)) s (do
        let u ← start.memberAs v source m.pair.source
        mapping.memberImage pool start (mapping.image pool start depth) member.shape
          member'.shape u) (Imaged mappings s) := by
  have hs₁ := hs.precedes hl
  obtain ⟨_, _, hm₁, hm₁', below, known, below', known', hbelow, hbelow', hcarries⟩ := hm
  obtain rfl := Option.some.inj (hmember.symm.trans hm₁)
  obtain rfl := Option.some.inj (hmember'.symm.trans hm₁')
  have hread : RunM.readMember v form.source m.pair.source s =
      (ofExcept (start.memberAs v source m.pair.source) : RunM Value) s := by
    rw [RunM.readMember_eq, hform.source_eq, Heap.Kept.memberAs_eq hc.typedBy hv hs₁.kept]
  obtain ⟨f, hf⟩ : ∃ f, fields[m.pair.destination]? = some f :=
    ⟨_, List.getElem?_eq_getElem (h.length ▸ (List.getElem?_eq_some_iff.mp hmember').1)⟩
  have hcurrent : RunM.readMember record form.target m.pair.destination s = .ok f s := by
    obtain ⟨hshape, hread⟩ := h.draft.target
    rw [hform.target_eq, RunM.readMember_eq_ok _ hshape, hread, hf]
    rfl
  have hvacant : pool.Vacant below' f :=
    .of_below hbelow' (Or.inr (h.blank _ f member' hleft hf hmember'))
  cases hu : start.memberAs v source m.pair.source with
  | error stop =>
    rw [hu] at hread
    exact ⟨s, Transfer.run_of_error hread⟩
  | ok u =>
    rw [hu] at hread
    have hfits := hc.typedBy.fits_memberAs hv hb.descriptor hmember hu
    change RunM.Ends _ s (mapping.memberImage _ _ _ _ _ u) _
    rw [Mapping.memberImage, Pool.below?_eq_some_iff.mpr hbelow,
      Pool.below?_eq_some_iff.mpr hbelow']
    exact hcarries.ends hc hs₁ (hr.precedes hl) hlinkage ih hbelow.self hread hcurrent
      ((Value.Fits.below_iff hbelow).mpr hfits) hvacant

/-- One more member is filled. -/
theorem RecordForm.fill_ends {v record : Value} {fields : List Value} {bound : Nat}
    {ts : List Tree} {left : Nat → Prop} {m : MemberTransfer} (hm : m ∈ form.members)
    (hv : v.Fits pool typed source) (hl : first.Precedes mappings s)
    (h : Filled pool first.heap s.heap target targetShape left record fields bound ts)
    (hleft : left m.pair.destination) :
    RunM.Ends (form.fill (Routine.run depth) frame v.unboxed record m) s
      (mapping.fillImage pool start (mapping.image pool start depth) source sourceShape targetShape
        v (.record targetShape.valueType target ts) m.pair)
      fun t record s' => first.Precedes mappings s' ∧ ∃ fields ts,
        t = .record targetShape.valueType target ts ∧
        Filled pool first.heap s'.heap target targetShape
          (fun i => left i ∧ i ≠ m.pair.destination) record fields bound ts := by
  obtain ⟨member, member', hmember, hmember', -⟩ := hform.members m hm
  have htransfer := transfer_ends hc hs hr hlinkage ih hb hform (hc.deep ▸ hform.members m hm)
    hmember hmember' hv.unboxed hl h hleft
  unfold RecordForm.fill Mapping.fillImage
  rw [hmember, hmember']
  dsimp only
  rw [← bind_assoc]
  refine RunM.Ends.bind htransfer ?_
  rintro t w s' - ⟨hl', hw⟩
  have h' := h.later hl'.kept
  have hw' : s'.heap.Shows bound w t := hw.mono (h.draft.bound_le hl.kept) fun _ _ _ h => h
  refine ⟨_, _, rfl, ?_, _, _, Tree.set_record .., h'.write hw' m.pair.destination⟩
  exact (hl.trans hl').withHeap
    ((h'.draft.write m.pair.destination w).2.2 (hl.kept.trans hl'.kept))

/-- All members that are left are filled. -/
theorem RecordForm.fillAll_ends {v record : Value} {fields : List Value} {bound : Nat}
    {ts : List Tree} {left : Nat → Prop} {members : List MemberTransfer}
    (hmembers : members ⊆ form.members)
    (hnodup : (members.map fun m => m.pair.destination).Nodup)
    (hv : v.Fits pool typed source) (hl : first.Precedes mappings s)
    (h : Filled pool first.heap s.heap target targetShape left record fields bound ts)
    (hleft : ∀ m ∈ members, left m.pair.destination) :
    RunM.Ends (form.fillAll (Routine.run depth) frame v.unboxed record members) s
      ((members.map MemberTransfer.pair).foldlM (mapping.fillImage pool start
        (mapping.image pool start depth) source sourceShape targetShape v)
        (.record targetShape.valueType target ts))
      fun t record s' => first.Precedes mappings s' ∧ ∃ fields ts,
        t = .record targetShape.valueType target ts ∧
        Filled pool first.heap s'.heap target targetShape
          (fun i => left i ∧ i ∉ members.map fun m => m.pair.destination) record fields bound
          ts := by
  induction members generalizing s record fields ts left with
  | nil =>
    refine RunM.Ends.pure ⟨hl, fields, ts, rfl, ?_⟩
    simpa using h
  | cons m members ih' =>
    have hfill : form.fillAll (Routine.run depth) frame v.unboxed record (m :: members) =
        (form.fill (Routine.run depth) frame v.unboxed record m >>= fun record =>
          form.fillAll (Routine.run depth) frame v.unboxed record members) :=
      List.foldlM_cons
    rw [List.map_cons, List.nodup_cons] at hnodup
    rw [hfill, List.map_cons, List.foldlM_cons]
    refine RunM.Ends.bind (fill_ends hc hs hr hlinkage ih hb hform (hmembers List.mem_cons_self) hv
      hl h (hleft m List.mem_cons_self)) ?_
    rintro _ record' s' - ⟨hl', fields', ts', rfl, h'⟩
    refine (ih' (fun _ hm => hmembers (List.mem_cons_of_mem _ hm)) hnodup.2 hl' h' ?_).mono ?_
    · intro m' hm'
      refine ⟨hleft m' (List.mem_cons_of_mem _ hm'), fun heq => hnodup.1 ?_⟩
      exact List.mem_map.mpr ⟨m', hm', heq⟩
    · rintro t record'' s'' - ⟨hl'', fields'', ts'', rfl, h''⟩
      refine ⟨hl'', fields'', ts'', rfl, ?_⟩
      simpa [and_assoc] using h''

omit hr hlinkage ih hb in
/-- The record that is supplied or made holds zero values. -/
theorem RecordForm.destination_ends (hb' : pool.Below target target targetShape)
    (hkind : targetShape.kind = .record)
    (hmade : ¬(targetShape.valueType = false ∧ targetShape.defaultConstructor = false))
    (hd : pool.Vacant target frame.destination) :
    Succeeds (form.destination frame) first fun record s' => first.Precedes mappings s' ∧
      ∃ fields bound, Filled pool first.heap s'.heap target targetShape (fun _ => True)
        record.unboxed fields bound (targetShape.members.map fun m => pool.zeroTree m.shape) := by
  have hrefl := Session.Precedes.refl hs.coherent
  have hstruct {zero : Value} (heap : Heap) (htype : targetShape.valueType = true)
      (hzero : pool.zeroValue target = .ok zero) : ∃ fields bound,
        Filled pool first.heap heap target targetShape (fun _ => True) zero.unboxed fields bound
          (targetShape.members.map fun m => pool.zeroTree m.shape) := by
    obtain ⟨fields, rfl, hfields⟩ := Pool.zeroValue_struct hb'.descriptor hkind htype hzero
    refine ⟨fields, first.heap.size, .start ?_ hfields⟩
    rw [htype]
    exact .struct
  unfold RecordForm.destination
  by_cases hnull : frame.destination = .null
  · rw [if_pos (by simpa using hnull)]
    have horigin := hform.origin
    generalize form.origin = origin at horigin
    cases horigin with
    | @zero zero htype hzero =>
      refine ⟨_, _, rfl, hrefl.withHeap (.box _ _), ?_⟩
      change ∃ fields bound, Filled _ _ (first.heap.box zero).2 _ _ _
        (first.heap.box zero).1.unboxed fields bound _
      rw [Heap.unboxed_box]
      exact hstruct _ htype hzero
    | absent htype hconstructor => exact absurd ⟨htype, hconstructor⟩ hmade
    | template htype hconstructor ht =>
      rcases Template.cases_of_ofShape hb'.descriptor htype hconstructor ht with
        ⟨fields, -, hfields, rfl⟩ | ⟨_, _, hkind', -⟩ | ⟨hkind', -⟩
      · refine ⟨_, _, rfl, hrefl.withHeap (.alloc _ _), fields, first.heap.size + 1,
          .start ?_ hfields⟩
        rw [htype]
        exact .object (Nat.le_refl _) (Heap.get?_alloc_size _ _)
      · cases hkind.symm.trans hkind'
      · exact absurd hkind hkind'
  · rw [if_neg (by simpa using hnull)]
    have hzero := hd.resolve_left hnull
    have htype : targetShape.valueType = true := by
      cases htype : targetShape.valueType with
      | true => rfl
      | false =>
        exact absurd (hd.eq_null hb'.descriptor (fun _ => htype) (by simp [hkind])) hnull
    exact Succeeds.pure ⟨hrefl, hstruct _ htype hzero⟩

/-- A record that holds zero values is filled and finished. -/
theorem RecordForm.convert_ends {v record : Value} {fields : List Value} {bound : Nat}
    {ts : List Tree} (hv : v.Fits pool typed source) (hl : first.Precedes mappings s)
    (h : Filled pool first.heap s.heap target targetShape (fun _ => True) record fields bound ts) :
    RunM.Ends (form.convert (Routine.run depth) frame v.unboxed record) s
      ((mapping.rules.existing sourceShape targetShape).foldlM (mapping.fillImage pool start
        (mapping.image pool start depth) source sourceShape targetShape v)
        (.record targetShape.valueType target ts))
      fun t w s' => first.Precedes mappings s' ∧ ∃ ts,
        t = .record targetShape.valueType target ts ∧
        Finished pool first.heap s'.heap target targetShape
          (fun i => ∀ pair ∈ mapping.rules.existing sourceShape targetShape, i ≠ pair.destination)
          w ts := by
  unfold RecordForm.convert
  rw [if_neg (by simpa using h.draft.ne_null), ← hform.pairs]
  refine RunM.Ends.bind_right (fillAll_ends hc hs hr hlinkage ih hb hform (fun _ hm => hm)
    (hform.nodup hc) hv hl h fun _ _ => trivial) ?_
  rintro t record' s' ⟨hl', fields', ts', rfl, h'⟩
  have hleft : ∀ i, (∀ pair ∈ form.members.map MemberTransfer.pair, i ≠ pair.destination) →
      True ∧ i ∉ form.members.map fun m => m.pair.destination := by
    refine fun i hi => ⟨trivial, fun hmem => ?_⟩
    obtain ⟨m, hm, heq⟩ := List.mem_map.mp hmem
    exact hi m.pair (List.mem_map_of_mem hm) heq.symm
  unfold RecordForm.result
  rw [hform.boxed]
  cases htype : targetShape.valueType with
  | true =>
    have hplain : targetShape.valueType = false → (s'.heap.box record').1 = record' :=
      fun h => nomatch htype.symm.trans h
    refine ⟨_, _, rfl, hl'.withHeap (hl'.kept.trans (.box _ _)), ts', rfl, record', fields', bound,
      (h'.imp hleft).later (.box _ _), fun _ => ?_, hplain⟩
    obtain ⟨fields, rfl⟩ : ∃ fields, record' = .struct target fields := by
      have hdraft := h'.draft
      rw [htype] at hdraft
      cases hdraft
      exact ⟨_, rfl⟩
    exact ⟨_, rfl⟩
  | false =>
    have hboxed : targetShape.valueType = true → ∃ token, record' = .boxed token record' :=
      fun h => nomatch htype.symm.trans h
    exact Succeeds.pure
      ⟨hl', ts', rfl, record', fields', bound, h'.imp hleft, hboxed, fun _ => rfl⟩

/-- A record that is made is filled and finished. -/
theorem RecordForm.For.finishes (hb' : pool.Below target target targetShape)
    (hkind : targetShape.kind = .record) (hv : frame.source.Fits pool typed source)
    (hd : pool.Vacant target frame.destination) (hnull : frame.source ≠ .null)
    (hmade : ¬(targetShape.valueType = false ∧ targetShape.defaultConstructor = false)) :
    RunM.Ends (form.run (Routine.run depth) frame) first
      ((mapping.rules.existing sourceShape targetShape).foldlM (mapping.fillImage pool start
        (mapping.image pool start depth) source sourceShape targetShape frame.source)
        (pool.blank target targetShape))
      fun t w s' => first.Precedes mappings s' ∧ ∃ ts,
        t = .record targetShape.valueType target ts ∧
        Finished pool first.heap s'.heap target targetShape
          (fun i => ∀ pair ∈ mapping.rules.existing sourceShape targetShape, i ≠ pair.destination)
          w ts := by
  unfold RecordForm.run
  rw [if_neg (by simpa using hnull)]
  obtain ⟨record, s₁, hrun, hl₁, fields, bound, hfilled⟩ :=
    destination_ends hc hs hform hb' hkind hmade hd
  exact RunM.Ends.bind_ok hrun (convert_ends hc hs hr hlinkage ih hb hform hv hl₁ hfilled)

/-- A record ends as the image says. -/
theorem RecordForm.For.ends (hb' : pool.Below target target targetShape)
    (hkind : targetShape.kind = .record) (hv : frame.source.Fits pool typed source)
    (hd : pool.Vacant target frame.destination) :
    RunM.Ends (form.run (Routine.run depth) frame) first
      (mapping.recordImage pool start (mapping.image pool start depth) source sourceShape target
        targetShape frame.source) (Imaged mappings first) := by
  unfold Mapping.recordImage
  by_cases hnull : frame.source = .null
  · rw [if_pos (by simpa using hnull), RecordForm.run, if_pos (by simpa using hnull)]
    exact RunM.Ends.pure (Imaged.null hs.coherent)
  rw [if_neg (by simpa using hnull)]
  split
  · rename_i hnone
    have hnull' : frame.destination = .null :=
      hd.eq_null hb'.descriptor (fun _ => hnone.1) (by simp [hkind])
    have horigin := hform.origin
    unfold RecordForm.run RecordForm.destination
    rw [if_neg (by simpa using hnull), if_pos (by simpa using hnull')]
    generalize form.origin = origin at horigin
    cases horigin with
    | zero htype _ => cases htype.symm.trans hnone.1
    | template _ hconstructor _ => cases hconstructor.symm.trans hnone.2
    | absent _ _ => exact RunM.Ends.pure (Imaged.null hs.coherent)
  · rename_i hmade
    refine (hform.finishes hc hs hr hlinkage ih hb hb' hkind hv hd hnull hmade).mono ?_
    rintro t w s' - ⟨hl, ts, rfl, hfinished⟩
    exact ⟨hl, hfinished.shows⟩

end

/-! ## Collections -/

/-- Elements of the shape go through routines, those for their declared shape or for their own. -/
def ElementRoute.From (element : ShapeId) : ElementRoute → Prop
  | .verbatim => False
  | .static source _ => source = element
  | .dynamic _ => True

/-- No element is taken over under a deep mapping. -/
theorem elementRoute_from (kind : CollectionKind) (source : ShapeId) (target : Option ShapeId) :
    (elementRoute kind .deep source target).From source := by
  have hsuits := elementRoute_suits kind .deep source target
  generalize elementRoute _ _ _ _ = route at hsuits
  cases route with
  | verbatim => cases hsuits.1
  | «static» _ _ => exact hsuits.1
  | dynamic _ => trivial

section

variable {mappings : Mapping → Prop} {mapping : Mapping} {pool : Pool} {start : Heap}
  {typed : Address → ShapeId → Prop} {first s : Session} {r : Routine}
  (hc : Imager mappings mapping pool typed start) (hs : first.Holds mappings pool start)
  (hr : r.Live mapping.id first) {frame : Frame} (hlinkage : frame.linkage = r.linkage)
  {depth : Nat} (ih : ImagesWithin mappings mapping pool typed start frame.state depth)
  {mapper : CollectionMapper} {route : ElementRoute} (hpath : route.Leads mapper.path)
  {element : ShapeId}

include hc hs hr hlinkage ih hpath

/-- An element ends in its image. -/
theorem CollectionMapper.mapElement_ends (hroute : route.From element) {v : Value}
    (hv : v.Fits pool typed element) :
    RunM.Ends (mapper.mapElement (Routine.run depth) frame v) first
      (mapping.elementImage pool start (mapping.image pool start depth) route v)
      (Imaged mappings first) := by
  rw [CollectionMapper.mapElement_eq, CollectionMapper.transfer]
  generalize mapper.path = path at hpath
  cases hpath with
  | verbatim => exact hroute.elim
  | static id =>
    obtain rfl := hroute
    exact Imaged.placed_ends _
      (Transfer.byLink_ends hc hs hr hlinkage ih rfl rfl hv (.null _))
  | dynamic target =>
    exact Imaged.placed_ends _
      (Transfer.byShape_ends hc hs hr hlinkage ih rfl rfl hv fun _ => .null _)

/-- The elements end in their images, one after the other, and later ones leave the earlier as they
are. -/
theorem CollectionMapper.mapElements_ends (hroute : route.From element) {vs : List Value}
    (hvs : ∀ v ∈ vs, v.Fits pool typed element) :
    RunM.Ends (mapper.mapElements (Routine.run depth) frame vs) first
      (vs.mapM (mapping.elementImage pool start (mapping.image pool start depth) route))
      fun ts ws s' => first.Precedes mappings s' ∧ s'.heap.ShowsAll first.heap.size ws ts := by
  unfold CollectionMapper.mapElements
  induction vs generalizing first with
  | nil => exact RunM.Ends.pure ⟨.refl hs.coherent, .nil⟩
  | cons v vs ih' =>
    rw [List.mapM_cons, List.mapM_cons]
    refine RunM.Ends.bind (mapElement_ends hc hs hr hlinkage ih hpath hroute
      (hvs v List.mem_cons_self)) ?_
    rintro t w s₁ - ⟨hl₁, hw⟩
    refine RunM.Ends.bind (ih' (hs.precedes hl₁) (hr.precedes hl₁)
      fun v hv => hvs v (List.mem_cons_of_mem _ hv)) ?_
    rintro ts ws s₂ - ⟨hl₂, hws⟩
    refine RunM.Ends.pure ⟨hl₁.trans hl₂, .cons ?_ ?_⟩
    · exact hw.mono (Nat.le_refl _) fun a i _ hi => hl₂.kept a i hi
    · exact hws.mono hl₁.kept.size_le fun _ _ _ h => h

/-- What elements become is appended to a new container. -/
theorem CollectionMapper.appendElements_ends (hroute : route.From element) {a : Address}
    {shape : ShapeId} {items : List Value} {done : List Tree} {vs : List Value}
    (hl : first.Precedes mappings s) (h : first.heap.Listed s.heap shape a items)
    (hdone : s.heap.ShowsAll (a.index + 1) items done)
    (hvs : ∀ v ∈ vs, v.Fits pool typed element) :
    RunM.Ends (mapper.appendElements (Routine.run depth) frame a vs) s
      (vs.mapM (mapping.elementImage pool start (mapping.image pool start depth) route))
      fun ts _ s' => first.Precedes mappings s' ∧ ∃ items,
        first.heap.Listed s'.heap shape a items ∧
        s'.heap.ShowsAll (a.index + 1) items (done ++ ts) := by
  unfold CollectionMapper.appendElements
  induction vs generalizing s items done with
  | nil => exact RunM.Ends.pure ⟨hl, items, h, (List.append_nil done).symm ▸ hdone⟩
  | cons v vs ih' =>
    have hone : RunM.Ends (mapper.appendElement (Routine.run depth) frame a v) s
        (mapping.elementImage pool start (mapping.image pool start depth) route v)
        fun t _ s' => first.Precedes mappings s' ∧ ∃ items,
          first.heap.Listed s'.heap shape a items ∧
          s'.heap.ShowsAll (a.index + 1) items (done ++ [t]) := by
      refine RunM.Ends.bind_right (mapElement_ends hc (hs.precedes hl) (hr.precedes hl) hlinkage ih
        hpath hroute (hvs v List.mem_cons_self)) ?_
      rintro t w s₁ ⟨hl₁, hw⟩
      have hall : s₁.heap.ShowsAll (a.index + 1) (items ++ [w]) (done ++ [t]) :=
        (hdone.mono (Nat.le_refl _) fun a i _ hi => hl₁.kept a i hi).append
          (.cons (hw.mono h.le_size fun _ _ _ h => h) .nil)
      obtain ⟨hlisted, hget, hkept⟩ := (h.later hl₁.kept).push w
      exact ⟨(), _, rfl, (hl.trans hl₁).withHeap (hkept (hl.trans hl₁).kept), _, hlisted,
        hall.mono (Nat.le_refl _) hget⟩
    rw [List.mapM_cons]
    refine RunM.Ends.bind hone ?_
    rintro t _ s₁ - ⟨hl₁, items₁, h₁, hdone₁⟩
    have hrest := ih' hl₁ h₁ hdone₁ fun v hv => hvs v (List.mem_cons_of_mem _ hv)
    refine RunM.Ends.image (g := (t :: ·)) hrest ?_
    rintro ts _ s₂ ⟨hl₂, items₂, h₂, hdone₂⟩
    exact ⟨hl₂, items₂, h₂, List.append_cons .. ▸ hdone₂⟩

omit hr hlinkage ih hpath in
theorem CollectionMapper.sourceElements_eq {v : Value} (hv : v.Fits pool typed element)
    (hl : first.Precedes mappings s) : CollectionMapper.sourceElements v s =
      .ok ((start.elements? v).getD [v]) s := by
  change EStateM.Result.ok ((s.heap.elements? v).getD [v]) s = _
  rw [Heap.Kept.elements?_eq hc.typedBy hv (hs.precedes hl).kept]

end

section

variable {mappings : Mapping → Prop} {mapping : Mapping} {pool : Pool} {start : Heap}
  {typed : Address → ShapeId → Prop} {first : Session} {r : Routine}
  (hc : Imager mappings mapping pool typed start) (hs : first.Holds mappings pool start)
  (hr : r.Live mapping.id first) {frame : Frame} (hlinkage : frame.linkage = r.linkage)
  {depth : Nat} (ih : ImagesWithin mappings mapping pool typed start frame.state depth)
  {source target : ShapeId} {sourceShape targetShape : Descriptor}
  (hb : pool.Below source source sourceShape) (hb' : pool.Below target target targetShape)

/-- A container is made new where nothing is supplied, if one can be made. -/
theorem CollectionMapper.For.container?_eq {mapper : CollectionMapper}
    (hmapper : mapper.For pool mapping source target sourceShape targetShape)
    (hgeneric : mapper.kind = .genericInsertable) (hb' : pool.Below target target targetShape)
    (hnull : frame.destination = .null) (invoke : Invoke) (s : Session) :
    mapper.container? invoke frame s =
      if targetShape.valueType = false ∧ targetShape.defaultConstructor = true then
        .ok (some ⟨s.heap.size⟩) { s with heap := (s.heap.alloc (.seq target #[])).2 }
      else .ok none s := by
  obtain ⟨family, element, hkind⟩ := CollectionKind.exists_collection_of_ofDescriptor? hmapper.kind
  obtain ⟨program, origin, hprogram, hrun, horigin⟩ := hmapper.construct hgeneric
  have hsequence : sequenceAt? s.heap mapper.target frame.destination = none := by
    rw [hnull]
    rfl
  split
  · rename_i hmade
    refine MakesEmpty.container?_eq_ok ⟨program, hprogram, fun invoke frame => ?_⟩ invoke hsequence
    rw [hrun, Origin.run, horigin.make_eq_alloc hb'.descriptor hmade.1 hmade.2 hkind]
  · rename_i hmade
    have hmake : origin.make s.heap = (.null, s.heap) := by
      cases horigin with
      | zero _ hzero =>
        obtain rfl :=
          Pool.zeroValue_eq_null hb'.descriptor (by simp [hkind]) (by simp [hkind]) hzero
        rfl
      | template htype hconstructor _ => exact absurd ⟨htype, hconstructor⟩ hmade
      | absent _ _ => rfl
    have hrun' : origin.run s = .ok .null s := by
      unfold Origin.run RunM.onHeap
      rw [hmake]
    have hnew : mapper.newContainer? invoke frame s = .ok none s := by
      unfold newContainer?
      rw [hprogram]
      dsimp only
      rw [hrun]
      change EStateM.bind origin.run _ s = _
      unfold EStateM.bind
      rw [hrun']
      rfl
    rw [container?_of_sequenceAt?_eq_none hsequence, hnew]

include hc hs hr hlinkage ih hb

/-- A container is made new of what the elements become. -/
theorem CollectionMapper.For.whole_ends {mapper : CollectionMapper}
    (hmapper : mapper.For pool mapping source target sourceShape targetShape)
    (hv : frame.source.Fits pool typed source) :
    RunM.Ends (do
      let items ← mapper.mapElements (Routine.run depth) frame (← sourceElements frame.source)
      RunM.onHeap (Heap.alloc (.seq mapper.target items.toArray))) first
      (.seq target <$> ((start.elements? frame.source).getD [frame.source]).mapM
        (mapping.elementImage pool start (mapping.image pool start depth)
          (elementRoute mapper.kind .deep (sourceElement source sourceShape)
            targetShape.element?))) (Imaged mappings first) := by
  have hpath := hmapper.path
  rw [hc.deep] at hpath
  refine RunM.Ends.bind_ok (sourceElements_eq hc hs hv (.refl hs.coherent)) (RunM.Ends.bind_right
    (RunM.Ends.image (g := Tree.seq target) (q := fun t ws s' => first.Precedes mappings s' ∧
      ∃ ts, t = .seq target ts ∧ s'.heap.ShowsAll first.heap.size ws ts)
      (mapElements_ends hc hs hr hlinkage ih hpath (elementRoute_from ..)
        (hc.typedBy.fits_element hb hv)) fun ts ws s' h => ⟨h.1, ts, rfl, h.2⟩) ?_)
  rintro t ws s₁ ⟨hl₁, ts, rfl, hws⟩
  refine ⟨_, _, rfl, hl₁.withHeap (hl₁.kept.trans (.alloc _ _)), ?_⟩
  rw [hmapper.target_eq]
  have hws' : (s₁.heap.alloc (.seq target ws.toArray)).2.ShowsAll first.heap.size ws ts :=
    hws.mono (Nat.le_refl _) fun a i _ hi => Heap.Kept.alloc s₁.heap _ a i hi
  exact .seq hl₁.kept.size_le (Heap.get?_alloc_size s₁.heap _) hws'.length hws'.each

/-- What the elements become is appended to a container that has been made new. -/
theorem CollectionMapper.For.filled_ends {mapper : CollectionMapper}
    (hmapper : mapper.For pool mapping source target sourceShape targetShape)
    (hv : frame.source.Fits pool typed source) :
    RunM.Ends (do
      mapper.appendElements (Routine.run depth) frame ⟨first.heap.size⟩
        (← sourceElements frame.source)
      return .ref ⟨first.heap.size⟩)
      { first with heap := (first.heap.alloc (.seq target #[])).2 }
      (.seq target <$> ((start.elements? frame.source).getD [frame.source]).mapM
        (mapping.elementImage pool start (mapping.image pool start depth)
          (elementRoute mapper.kind .deep (sourceElement source sourceShape)
            targetShape.element?))) (Imaged mappings first) := by
  have hpath := hmapper.path
  rw [hc.deep] at hpath
  have hl := (Session.Precedes.refl hs.coherent).withHeap (.alloc first.heap (.seq target #[]))
  refine RunM.Ends.bind_ok (sourceElements_eq hc hs hv hl) (RunM.Ends.bind_right
    (RunM.Ends.image (g := Tree.seq target) (q := fun t _ s' =>
      first.Precedes mappings s' ∧ s'.heap.Shows first.heap.size (.ref ⟨first.heap.size⟩) t)
      (appendElements_ends hc hs hr hlinkage ih hpath (elementRoute_from ..) hl
        (.new (.refl _) target) .nil (hc.typedBy.fits_element hb hv)) ?_) ?_)
  · rintro ts _ s' ⟨hl', items, hlisted, hitems⟩
    exact ⟨hl', hlisted.shows hitems⟩
  · rintro t _ s' ⟨hl', hshows⟩
    exact Succeeds.pure ⟨hl', hshows⟩

/-- A collection ends as the image says. -/
theorem CollectionMapper.For.ends {mapper : CollectionMapper}
    (hmapper : mapper.For pool mapping source target sourceShape targetShape)
    (hb' : pool.Below target target targetShape) (hv : frame.source.Fits pool typed source)
    (hd : pool.Vacant target frame.destination) :
    RunM.Ends (mapper.run (Routine.run depth) frame) first
      (mapping.collectionImage pool start (mapping.image pool start depth) source sourceShape target
        targetShape frame.source) (Imaged mappings first) := by
  obtain ⟨family, element, hkind⟩ := CollectionKind.exists_collection_of_ofDescriptor? hmapper.kind
  have hwhole := hmapper.whole_ends hc hs hr hlinkage ih hb hv
  have hfilled := hmapper.filled_ends hc hs hr hlinkage ih hb hv
  unfold CollectionMapper.run Mapping.collectionImage
  rw [hmapper.kind]
  dsimp only
  split
  · exact RunM.Ends.pure (Imaged.null hs.coherent)
  by_cases hgeneric : mapper.kind = .genericInsertable
  · have hcontainer := hmapper.container?_eq hgeneric hb'
      (hd.eq_null hb'.descriptor (by simp [hkind]) (by simp [hkind])) (Routine.run depth) first
    rw [hgeneric] at hfilled ⊢
    dsimp only
    split
    · rename_i hnone
      rw [if_neg hnone.2] at hcontainer
      exact RunM.Ends.bind_ok hcontainer (RunM.Ends.pure (Imaged.null hs.coherent))
    · rename_i hmade
      rw [if_pos (Classical.not_not.mp fun h => hmade ⟨rfl, h⟩)] at hcontainer
      exact RunM.Ends.bind_ok hcontainer hfilled
  · rw [if_neg fun h => hgeneric h.1]
    cases hk : mapper.kind with
    | array | typedList | untypedList =>
      rw [hk] at hwhole
      exact hwhole
    | genericInsertable => exact absurd hk hgeneric

/-! ## Routines -/

/-- What a routine for two shapes that are not nullable does ends as the image says. -/
theorem Form.For.ends {form : Form}
    (hform : form.For pool mapping source target sourceShape targetShape)
    (hb' : pool.Below target target targetShape) (hv : frame.source.Fits pool typed source)
    (hd : pool.Vacant target frame.destination) :
    RunM.Ends (form.run (Routine.run depth) frame) first
      (mapping.formImage pool start (mapping.image pool start depth) source sourceShape target
        targetShape frame.source) (Imaged mappings first) := by
  unfold Mapping.formImage
  cases hform with
  | transfer hcollection hkind h =>
    rw [hc.deep] at h
    have hends := h.ends hc hs hr hlinkage ih hb rfl rfl hv hd
    cases htarget : targetShape.kind with
    | collection family element => simp [Descriptor.isCollection, htarget] at hcollection
    | record =>
      have hany : sourceShape.kind = .any := by simpa [htarget] using hkind
      rw [htarget] at hends
      rw [if_pos hany]
      exact hends
    | _ =>
      rw [htarget] at hends
      exact hends
  | record hsource hkind h =>
    rw [hkind]
    dsimp only
    rw [if_neg hsource]
    exact h.ends hc hs hr hlinkage ih hb hb' hkind hv hd
  | collection h =>
    obtain ⟨family, element, hkind⟩ := CollectionKind.exists_collection_of_ofDescriptor? h.kind
    rw [hkind]
    exact h.ends hc hs hr hlinkage ih hb hb' hv hd
  | unresolved hcollection h =>
    cases hkind : targetShape.kind with
    | collection family element =>
      rw [hkind] at *
      dsimp only
      rw [Mapping.collectionImage, h]
      exact RunM.Ends.pure (Imaged.null hs.coherent)
    | _ => simp [Descriptor.isCollection, hkind] at hcollection

end

/-- Routines end as images say, whatever their depth. -/
theorem Routine.run_images {mappings : Mapping → Prop} {mapping : Mapping} {pool : Pool}
    {start : Heap} {typed : Address → ShapeId → Prop}
    (hc : Imager mappings mapping pool typed start) (state : Value) (depth : Nat) :
    ImagesWithin mappings mapping pool typed start state depth := by
  induction depth with
  | zero => exact fun s _ _ _ _ _ _ _ => ⟨s, rfl⟩
  | succ depth ih =>
    intro s r v d hs hr hv hd
    obtain ⟨_, -, -, -, hmapping, hid, hmade⟩ := hr.exists_owner hs
    have hbody := hmade.body
    rw [hc.unique _ _ hmapping hc.allows hid] at hbody
    obtain ⟨below, known, below', known', hb, hb', form, hrun, hform⟩ :=
      Mapping.exists_form hc.grows hc.converters hbody
    rw [Routine.run_succ, hrun, Mapping.image_succ hb hb']
    exact hform.ends hc hs hr rfl ih hb.self hb'.self ((Value.Fits.below_iff hb).mpr hv)
      (hd.of_below hb')

end Reshape
