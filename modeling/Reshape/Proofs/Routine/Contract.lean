import Reshape.Proofs.Routine.Compiled
import Reshape.Proofs.Session.Reachable
import Reshape.Proofs.Value.Heap

/-!
# Contracts of routines

A `Contract` is what routines ask of a source and a destination and what they promise of a result,
together with an invariant of heaps and an order of heaps in time. It also follows what happens
inside a routine : a record that is being filled, and a container that is being built.

A contract is sound (`Contract.Sound`) if each single step keeps it : to read a member, to write
one, to convert a primitive, to make an instance, and so on. All routines of a sound contract meet
it, however deep the run and whatever it ends with (`Contract.Sound.run_meets`). So do routines with
converters that keep the contract themselves (`Contract.SoundWith`). The steps of routines are taken
apart here once ; what a contract says is left to the contracts.
-/

set_option linter.unusedSectionVars false

namespace Reshape

/-! ## Contracts -/

structure Contract where
  /-- The mappings that the contract is about. -/
  allows : Mapping → Prop
  inv : Heap → Prop
  /-- The second heap may come after the first. -/
  later : Heap → Heap → Prop
  /-- A source of the shape. -/
  source : Heap → ShapeId → Value → Prop
  /-- A destination of the shape, which may be null. -/
  target : Heap → ShapeId → Value → Prop
  /-- A result for a place of the shape. -/
  result : Heap → ShapeId → Value → Prop
  /-- From the first heap to the second, a record of the shape has been filled. Members with these
  numbers are still to come. -/
  filling : Heap → Heap → ShapeId → Value → List Nat → Prop
  /-- From the first heap to the second, a container of the shape has been built at the address. -/
  building : Heap → Heap → ShapeId → Address → Prop

theorem CollectionMapper.sequenceAt?_eq_some_iff {heap : Heap} {shape : ShapeId} {v : Value}
    {a : Address} : sequenceAt? heap shape v = some a ↔
      v = .ref a ∧ ∃ items, heap.get? a = some (.seq shape items) := by
  cases v with
  | ref b =>
    rw [sequenceAt?, Value.ref.injEq]
    cases hb : heap.get? b with
    | none =>
      refine ⟨(by cases ·), ?_⟩
      rintro ⟨rfl, _, h⟩
      cases hb.symm.trans h
    | some i =>
      cases i with
      | object _ _ | stream _ _ =>
        refine ⟨(by cases ·), ?_⟩
        rintro ⟨rfl, _, h⟩
        cases hb.symm.trans h
      | seq found items =>
        dsimp only
        rw [Option.ite_none_right_eq_some, Option.some.injEq]
        constructor
        · rintro ⟨rfl, rfl⟩
          exact ⟨rfl, items, hb⟩
        · rintro ⟨rfl, items', h⟩
          cases hb.symm.trans h
          exact ⟨rfl, rfl⟩
  | _ => exact ⟨(by cases ·), fun h => (by cases h.1)⟩

namespace Contract

/-- The same promises for other mappings. -/
def about (c : Contract) (allows : Mapping → Prop) : Contract :=
  { c with allows := allows }

variable (c : Contract) (pool : Pool)

/-- What is made of values between heaps and shapes. -/
structure SoundValues : Prop where
  refl {h} (hinv : c.inv h) : c.later h h
  trans {h h₁ h₂} (h' : c.later h h₁) (h'' : c.later h₁ h₂) : c.later h h₂
  tokens {h} (hinv : c.inv h) (n : Nat) :
    c.inv { h with tokens := n } ∧ c.later h { h with tokens := n }
  source_later {h h' S v} (hl : c.later h h') (hv : c.source h S v) : c.source h' S v
  target_later {h h' S v} (hl : c.later h h') (hv : c.target h S v) : c.target h' S v
  result_later {h h' S v} (hl : c.later h h') (hv : c.result h S v) : c.result h' S v
  source_below {h S s known v} (hb : pool.Below S s known) (hv : c.source h S v) : c.source h s v
  source_own {h S own v} (hinv : c.inv h) (hv : c.source h S v) (hown : h.shape? v = some own) :
    c.source h own v
  source_unboxed {h S v} (hv : c.source h S v) : c.source h S v.unboxed
  source_null {h S} : c.source h S .null
  target_null {h S} : c.target h S .null
  target_below {h S s known v} (hb : pool.Below S s known) (hv : c.target h S v) : c.target h s v
  result_null {h S} : c.result h S .null
  result_below {h S s known v} (hb : pool.Below S s known) (hv : c.result h s v) : c.result h S v
  result_any {h S s known own v} (hb : pool.Below S s known) (hany : known.kind = .any)
    (hv : c.result h own v) : c.result h S v
  result_unboxed {h S v} (hv : c.result h S v) : c.result h S v.unboxed
  result_box {h S v} (hv : c.result h S v) : c.result h S (h.box v).1

/-- What transfers do to single values. -/
structure SoundTransfers : Prop where
  primitive {h S s known T t known' p v} (hinv : c.inv h) (hs : pool.Below S s known)
    (ht : pool.Below T t known') (hkind : known.kind = .primitive p)
    (hkind' : known'.kind = .primitive p) (hv : c.source h S v) : c.result h T v
  converted {h T t known p v} (ht : pool.Below T t known) (hkind : known.kind = .primitive p)
    (hv : v.IsPrimitive p) : c.result h T v
  shared {m h S v} (hm : c.allows m) (hmode : m.copyMode = .shallow) (hv : c.source h S v) :
    c.result h S v
  member {h s known i m v} (hinv : c.inv h) (hs : pool.descriptor s = .ok known)
    (hm : known.members[i]? = some m) (hv : c.source h s v) (hshape : h.shape? v = some s) :
    c.source h m.shape ((h.member? v i).getD .null)

/-- What filling a record does. -/
structure SoundRecords : Prop where
  origin {h t known origin} (hinv : c.inv h) (ht : pool.Below t t known)
    (ho : Origin.For pool t known origin) :
    c.inv (origin.make h).2 ∧ c.later h (origin.make h).2
  fill_new {m h known t known' origin} (hm : c.allows m) (hinv : c.inv h)
    (ht : pool.Below t t known') (hkind : known'.kind = .record)
    (ho : Origin.For pool t known' origin) (hnull : (origin.make h).1.unboxed ≠ .null) :
    c.filling h (origin.make h).2 t (origin.make h).1.unboxed
      ((m.rules.existing known known').map MemberPair.destination)
  fill_supplied {m h known t known' v} (hm : c.allows m) (hinv : c.inv h)
    (ht : pool.Below t t known') (hkind : known'.kind = .record)
    (hv : c.target h t v) (hnull : v.unboxed ≠ .null) :
    c.filling h h t v.unboxed ((m.rules.existing known known').map MemberPair.destination)
  fill_start {h h' t v pending} (hf : c.filling h h' t v pending) : c.later h h'
  fill_later {h h' h'' t v pending} (hf : c.filling h h' t v pending) (hl : c.later h' h'')
    (hinv : c.inv h'') : c.filling h h'' t v pending
  fill_current {h h' t known v i m pending} (hinv : c.inv h') (ht : pool.descriptor t = .ok known)
    (hm : known.members[i]? = some m) (hf : c.filling h h' t v (i :: pending))
    (hshape : h'.shape? v = some t) : c.target h' m.shape ((h'.member? v i).getD .null)
  fill_write {h h' t known v i m w pending} (hinv : c.inv h') (ht : pool.descriptor t = .ok known)
    (hm : known.members[i]? = some m) (hf : c.filling h h' t v (i :: pending))
    (hw : c.result h' m.shape w) : c.inv (h'.writeMember v i w).2 ∧
      (∀ S u, c.source h' S u → c.source (h'.writeMember v i w).2 S u) ∧
      c.filling h (h'.writeMember v i w).2 t (h'.writeMember v i w).1 pending
  fill_done {h h' t v} (hf : c.filling h h' t v []) : c.result h' t v

/-- The place that elements are made for. Those of untyped lists are made for any place, whatever
the list declares. -/
def elementPlace (element : Option ShapeId) : Family → ShapeId
  | .untypedList => ShapeId.any
  | _ => element.getD ShapeId.any

theorem elementPlace_family {kind : CollectionKind} (element : Option ShapeId)
    (h : kind ≠ .untypedList) : elementPlace element kind.family = element.getD ShapeId.any := by
  cases kind <;> first | rfl | exact absurd rfl h

theorem elementPlace_family_eq_any {kind : CollectionKind} {element : Option ShapeId}
    (h : kind = .untypedList ∨ element.getD ShapeId.any = ShapeId.any) :
    elementPlace element kind.family = ShapeId.any := by
  rcases h with rfl | h
  · rfl
  · cases kind <;> first | rfl | exact h

/-- What making a collection does. -/
structure SoundCollections : Prop where
  element {h s known v} (hinv : c.inv h) (hs : pool.Below s s known) (hv : c.source h s v) :
    ∀ e ∈ (h.elements? v).getD [v], c.source h (sourceElement s known) e
  verbatim {m h S T t known family element v} (hm : c.allows m) (hmode : m.copyMode = .shallow)
    (ht : pool.Below T t known) (hkind : known.kind = .collection family element)
    (hfamily : family = .untypedList ∨ family = .insertable) (hv : c.source h S v) :
    c.result h (elementPlace element family) v
  new {h T t known family element} {items : List Value} (hinv : c.inv h)
    (ht : pool.Below T t known) (hkind : known.kind = .collection family element)
    (hitems : ∀ v ∈ items, c.result h (elementPlace element family) v) :
    c.inv (h.alloc (.seq t items.toArray)).2 ∧ c.later h (h.alloc (.seq t items.toArray)).2 ∧
      c.result (h.alloc (.seq t items.toArray)).2 t (h.alloc (.seq t items.toArray)).1
  build_new {h t known element origin a shape items} (hinv : c.inv h) (ht : pool.Below t t known)
    (hkind : known.kind = .collection .insertable element)
    (ho : Origin.For pool t known origin) (hmade : (origin.make h).1 = .ref a)
    (hseq : (origin.make h).2.get? a = some (.seq shape items)) :
    c.building h (origin.make h).2 t a
  build_supplied {h t known element v a} (hinv : c.inv h) (ht : pool.Below t t known)
    (hkind : known.kind = .collection .insertable element) (hv : c.target h t v)
    (ha : CollectionMapper.sequenceAt? h t v = some a) : c.building h h t a
  build_start {h h' t a} (hb : c.building h h' t a) : c.later h h'
  build_later {h h' h'' t a} (hb : c.building h h' t a) (hl : c.later h' h'') (hinv : c.inv h'') :
    c.building h h'' t a
  build_push {h h' t known element a v} (hinv : c.inv h') (ht : pool.Below t t known)
    (hkind : known.kind = .collection .insertable element) (hb : c.building h h' t a)
    (hv : c.result h' (element.getD ShapeId.any) v) :
    c.inv (h'.push a v) ∧ (∀ S u, c.source h' S u → c.source (h'.push a v) S u) ∧
      c.building h (h'.push a v) t a
  build_done {h h' t a} (hb : c.building h h' t a) : c.result h' t (.ref a)

/-- Each step keeps the contract. -/
structure Sound : Prop where
  grows : Pool.initial.GrowsTo pool
  converters {m} (hm : c.allows m) : m.converters = []
  values : c.SoundValues pool
  transfers : c.SoundTransfers pool
  records : c.SoundRecords pool
  collections : c.SoundCollections pool

/-- The converters of the mapping keep the contract when they are given the state, and what they
make may go to any place. -/
def SoundConverters (m : Mapping) (state : Value) : Prop :=
  ∀ x ∈ m.converters, ∀ (h : Heap) (S T : ShapeId) (v : Value), c.inv h → c.source h S v →
    c.inv (x.converter.apply v state h).2 ∧ c.later h (x.converter.apply v state h).2 ∧
      ∀ w, (x.converter.apply v state h).1 = .ok w → c.result (x.converter.apply v state h).2 T w

/-- Each step keeps the contract, and so do the converters that are given the state. -/
structure SoundWith (state : Value) : Prop where
  grows : Pool.initial.GrowsTo pool
  converters {m} (hm : c.allows m) : c.SoundConverters m state
  values : c.SoundValues pool
  transfers : c.SoundTransfers pool
  records : c.SoundRecords pool
  collections : c.SoundCollections pool

variable {c pool} in
/-- Where there are no converters, the state makes no difference. -/
theorem Sound.with (hc : c.Sound pool) (state : Value) : c.SoundWith pool state where
  grows := hc.grows
  converters hm x hx := by
    rw [hc.converters hm] at hx
    cases hx
  values := hc.values
  transfers := hc.transfers
  records := hc.records
  collections := hc.collections

/-! ## Sessions under a contract -/

/-- The session is coherent, and its heap satisfies the invariant. -/
structure Held (mappings : Mapping → Prop) (s : Session) : Prop where
  coherent : s.Coherent mappings
  pool_eq : s.pool = pool
  inv : c.inv s.heap

/-- What comes of a session under the contract. -/
structure Leads (mappings : Mapping → Prop) (s s' : Session) : Prop where
  held : c.Held pool mappings s'
  later : c.later s.heap s'.heap
  knows : ∀ r, s.Knows r → s'.Knows r

/-- From the session, the computation leads to another under the contract, however it ends. The
values that it answers satisfy `p`. -/
def Gives {α : Type} (mappings : Mapping → Prop) (s : Session) (x : RunM α)
    (p : Session → α → Prop) : Prop :=
  Ensures x s (fun a s' => c.Leads pool mappings s s' ∧ p s' a)
    fun _ s' => c.Leads pool mappings s s'

/-- The same for the rest of a computation that has led from `start` to the session. What it does
may undo what has been done since, and goes by what there was at the start. -/
def GivesSince {α : Type} (mappings : Mapping → Prop) (start s : Session) (x : RunM α)
    (p : Session → α → Prop) : Prop :=
  Ensures x s (fun a s' => c.Leads pool mappings start s' ∧ p s' a)
    fun _ s' => c.Leads pool mappings start s'

/-- The routine meets the contract from the session on. -/
def Meets (mappings : Mapping → Prop) (s : Session) (r : Routine)
    (run : Value → Value → RunM Value) :
    Prop :=
  ∀ source destination, c.source s.heap r.key.source source →
    c.target s.heap r.key.target destination →
    c.Gives pool mappings s (run source destination) fun s' w => c.result s'.heap r.key.target w

variable {c pool}
variable {mappings : Mapping → Prop} {α β : Type} {s s' : Session}

/-- Whatever becomes of the values, as long as the invariant holds. -/
theorem Held.withHeap (h : c.Held pool mappings s) {heap : Heap} (hinv : c.inv heap) :
    c.Held pool mappings { s with heap := heap } := by
  obtain ⟨owner, howned⟩ := h.coherent
  exact ⟨⟨owner, howned.withHeap heap⟩, h.pool_eq, hinv⟩

theorem SoundValues.leads_refl (hc : c.SoundValues pool) (h : c.Held pool mappings s) :
    c.Leads pool mappings s s :=
  ⟨h, hc.refl h.inv, fun _ hr => hr⟩

theorem SoundValues.leads_trans (hc : c.SoundValues pool) {s₁ : Session}
    (h : c.Leads pool mappings s s₁) (h' : c.Leads pool mappings s₁ s') :
    c.Leads pool mappings s s' :=
  ⟨h'.held, hc.trans h.later h'.later, fun r hr => h'.knows r (h.knows r hr)⟩

namespace Gives

variable (hc : c.SoundValues pool) {x : RunM α} {p : Session → α → Prop}

include hc

theorem pure {a : α} (h : c.Held pool mappings s) (ha : p s a) :
    c.Gives pool mappings s (Pure.pure a) p :=
  Ensures.pure ⟨hc.leads_refl h, ha⟩

theorem throw {stop : Stop} (h : c.Held pool mappings s) :
    c.Gives pool mappings s (MonadExcept.throw stop : RunM α) p :=
  Ensures.throw (hc.leads_refl h)

theorem bind {f : α → RunM β} {q : Session → β → Prop} (hx : c.Gives pool mappings s x p)
    (hf : ∀ a s', c.Leads pool mappings s s' → p s' a → c.Gives pool mappings s' (f a) q) :
    c.Gives pool mappings s (x >>= f) q := by
  refine Ensures.bind (Ensures.mono hx ?_ fun _ _ h => h)
  rintro a s₁ ⟨hl, ha⟩
  refine (hf a s₁ hl ha).mono ?_ ?_
  · rintro b s' ⟨hl', hb⟩
    exact ⟨hc.leads_trans hl hl', hb⟩
  · exact fun _ s' hl' => hc.leads_trans hl hl'

theorem get {f : Session → RunM β} {q : Session → β → Prop}
    (hf : c.Gives pool mappings s (f s) q) : c.Gives pool mappings s (get >>= f) q :=
  hf

omit hc in
theorem mono {q : Session → α → Prop} (hx : c.Gives pool mappings s x p)
    (hq : ∀ a s', c.Leads pool mappings s s' → p s' a → q s' a) : c.Gives pool mappings s x q :=
  Ensures.mono hx (fun a s' h => ⟨h.1, hq a s' h.1 h.2⟩) fun _ _ h => h

omit hc in
theorem leads_after (hx : c.Gives pool mappings s x p) : c.Leads pool mappings s (After x s) :=
  Ensures.after (Ensures.mono hx (fun _ _ h => h.1) fun _ _ h => h)

omit hc in
/-- A change of the heap that keeps the invariant. -/
theorem onHeap {f : Heap → α × Heap} (h : c.Held pool mappings s) (hinv : c.inv (f s.heap).2)
    (hl : c.later s.heap (f s.heap).2) (hp : p { s with heap := (f s.heap).2 } (f s.heap).1) :
    c.Gives pool mappings s (RunM.onHeap f) p :=
  ⟨⟨h.withHeap hinv, hl, fun _ hr => hr⟩, hp⟩

omit hc in
theorem onHeapExcept {ε : Type} {wrap : ε → ConversionError} {f : Heap → Except ε α × Heap}
    (h : c.Held pool mappings s) (hinv : c.inv (f s.heap).2) (hl : c.later s.heap (f s.heap).2)
    (hp : ∀ a, (f s.heap).1 = .ok a → p { s with heap := (f s.heap).2 } a) :
    c.Gives pool mappings s (RunM.onHeapExcept wrap f) p := by
  have hleads : c.Leads pool mappings s { s with heap := (f s.heap).2 } :=
    ⟨h.withHeap hinv, hl, fun _ hr => hr⟩
  unfold Gives Ensures RunM.onHeapExcept
  rcases hf : f s.heap with ⟨e | a, heap⟩
  · rw [hf] at hleads
    exact hleads
  · rw [hf] at hleads hp
    exact ⟨hleads, hp a rfl⟩

omit hc in
/-- A converter that is called. -/
theorem callConverter {m : Mapping} {state : Value} (hm : c.SoundConverters m state)
    {x : Registered} (hx : x ∈ m.converters) (h : c.Held pool mappings s) {S : ShapeId} {v : Value}
    (hv : c.source s.heap S v) (T : ShapeId) :
    c.Gives pool mappings s (Session.callConverter x v state) fun s' w =>
      c.result s'.heap T w := by
  obtain ⟨owner, howned⟩ := h.coherent
  obtain ⟨hinv, hlater, hresult⟩ := hm x hx s.heap S T v h.inv hv
  let s₀ : Session := { s with calls := s.converterCall x v state :: s.calls }
  have h₀ : c.Held pool mappings s₀ := ⟨⟨owner, howned.withCalls _⟩, h.pool_eq, h.inv⟩
  have hcall : c.Gives pool mappings s₀
      (RunM.onHeapExcept (fun e => e) (x.converter.apply v state)) fun s' w =>
        c.result s'.heap T w := .onHeapExcept h₀ hinv hlater hresult
  have hcalled : Session.callConverter x v state s =
      RunM.onHeapExcept (fun e => e) (x.converter.apply v state) s₀ := rfl
  refine Ensures.of_eq hcalled (Ensures.mono hcall ?_ ?_)
  · exact fun w s' hw => ⟨⟨hw.1.held, hw.1.later, hw.1.knows⟩, hw.2⟩
  · exact fun _ s' hl => ⟨hl.held, hl.later, hl.knows⟩

/-- A routine that is found. -/
theorem of_finds {owner : Nat → Linkage} {linkage : Linkage} {source target : ShapeId}
    {x : RunM Routine} (h : c.Held pool mappings s)
    (hx : Ensures x s (s.Finds mappings owner linkage source target)
      fun _ s' => s.Evolves mappings owner s' ∧ s'.heap = s.heap) :
    c.Gives pool mappings s x fun s' r => s'.heap = s.heap ∧ s'.Knows r ∧
      r.key = ⟨source, target, linkage.mapping.id⟩ := by
  have hleads {s' : Session} (hs : s.Evolves mappings owner s') (hheap : s'.heap = s.heap) :
      c.Leads pool mappings s s' :=
    ⟨⟨hs.coherent, hs.pool.trans h.pool_eq, hheap ▸ h.inv⟩,
      by rw [hheap]; exact hc.refl h.inv, hs.knows⟩
  refine Ensures.mono hx ?_ ?_
  · exact fun r s' hr => ⟨hleads hr.evolves hr.heap, hr.heap, hr.knows, hr.answers.key⟩
  · exact fun _ s' hs => hleads hs.1 hs.2

theorem resolve {r : Routine} (h : c.Held pool mappings s) (hr : s.Knows r) (link : Link) :
    c.Gives pool mappings s (Session.resolve r.linkage link) fun s' r' => s'.heap = s.heap ∧
      s'.Knows r' ∧ r'.key = ⟨link.source, link.target, r.key.mapping⟩ := by
  obtain ⟨owner, howned⟩ := h.coherent
  obtain ⟨i, registry, hi, hmem⟩ := hr
  obtain ⟨hlt, howner, -, hmade⟩ := howned.routine i registry hi r hmem
  rw [hmade.mapping]
  exact of_finds hc h (Session.resolve_finds howned link hlt howner)

theorem resolveDynamic {r : Routine} (h : c.Held pool mappings s) (hr : s.Knows r)
    (source target : ShapeId) :
    c.Gives pool mappings s (Session.resolveDynamic r.linkage source target) fun s' r' =>
      s'.heap = s.heap ∧ s'.Knows r' ∧ r'.key = ⟨source, target, r.key.mapping⟩ := by
  obtain ⟨owner, howned⟩ := h.coherent
  obtain ⟨i, registry, hi, hmem⟩ := hr
  obtain ⟨hlt, howner, -, hmade⟩ := howned.routine i registry hi r hmem
  rw [hmade.mapping]
  exact of_finds hc h
    (Session.resolveDynamic_finds howned source target (howner ▸ howned.linkage _ hlt))

end Gives

namespace GivesSince

variable {start : Session} {x : RunM α} {p : Session → α → Prop}

theorem of_gives (hc : c.SoundValues pool) (hl : c.Leads pool mappings start s)
    (hx : c.Gives pool mappings s x p) : c.GivesSince pool mappings start s x p := by
  refine Ensures.mono hx ?_ ?_
  · exact fun a s' h => ⟨hc.leads_trans hl h.1, h.2⟩
  · exact fun _ s' h => hc.leads_trans hl h

theorem bind {f : α → RunM β} {q : Session → β → Prop}
    (hx : c.GivesSince pool mappings start s x p)
    (hf : ∀ a s', c.Leads pool mappings start s' → p s' a →
      c.GivesSince pool mappings start s' (f a) q) :
    c.GivesSince pool mappings start s (x >>= f) q :=
  Ensures.bind (Ensures.mono hx (fun a s' h => hf a s' h.1 h.2) fun _ _ h => h)

theorem pure {a : α} (hl : c.Leads pool mappings start s) (ha : p s a) :
    c.GivesSince pool mappings start s (Pure.pure a) p :=
  Ensures.pure ⟨hl, ha⟩

theorem onHeap {f : Heap → α × Heap} (hl : c.Leads pool mappings start s)
    (hinv : c.inv (f s.heap).2) (hlater : c.later start.heap (f s.heap).2)
    (hp : p { s with heap := (f s.heap).2 } (f s.heap).1) :
    c.GivesSince pool mappings start s (RunM.onHeap f) p :=
  ⟨⟨hl.held.withHeap hinv, hlater, hl.knows⟩, hp⟩

end GivesSince

/-! ## Transfers -/

/-- What the routines that a routine runs are known to do. -/
structure Within (c : Contract) (pool : Pool) (mappings : Mapping → Prop) (invoke : Invoke)
    (frame : Frame) (r : Routine) : Prop where
  linkage : frame.linkage = r.linkage
  meets {s : Session} {r' : Routine} (h : c.Held pool mappings s) (hr : s.Knows r')
    (hkey : r'.key.mapping = r.key.mapping) :
    c.Meets pool mappings s r' fun source destination =>
      invoke r' source destination frame.state

section

variable {invoke : Invoke} {frame : Frame} {r : Routine}

/-- What comes through a link is as the contract says for the shapes of the link. -/
theorem byLink_gives (hc : c.SoundValues pool) (hw : Within c pool mappings invoke frame r)
    (hr : s.Knows r) {link : Link} {value current : RunM Value}
    (hv : c.Gives pool mappings s value fun s' v => c.source s'.heap link.source v)
    (hd : ∀ s', c.Leads pool mappings s s' →
      c.Gives pool mappings s' current fun s'' d => c.target s''.heap link.target d) :
    c.Gives pool mappings s (Transfer.byLink invoke frame link value current) fun s' w =>
      c.result s'.heap link.target w := by
  unfold Transfer.byLink
  refine Gives.bind hc hv fun v s₁ hl₁ hv => ?_
  split
  · exact .pure hc hl₁.held hc.result_null
  · refine Gives.bind hc (hd s₁ hl₁) fun d s₂ hl₂ hd => ?_
    rw [hw.linkage]
    have hr₂ := hl₂.knows r (hl₁.knows r hr)
    refine Gives.bind hc (.resolve hc hl₂.held hr₂ link) ?_
    rintro r' s₃ hl₃ ⟨hheap, hr', hkey⟩
    have hmeets := hw.meets hl₃.held hr' (by rw [hkey]) v d
    rw [hkey] at hmeets
    refine hmeets ?_ ?_
    · exact hc.source_later hl₃.later (hc.source_later hl₂.later hv)
    · exact hc.target_later hl₃.later hd

/-- What comes by the shape of a value is as the contract says for its target, and so for the place
it is put in. -/
theorem byShape_gives (hc : c.SoundValues pool) (hw : Within c pool mappings invoke frame r)
    (hr : s.Knows r) {S T : ShapeId} {target : Option ShapeId}
    {value current : RunM Value}
    (hv : c.Gives pool mappings s value fun s' v => c.source s'.heap S v)
    (hd : ∀ s', c.Leads pool mappings s s' →
      c.Gives pool mappings s' current fun s'' d => ∀ own, c.target s''.heap (target.getD own) d)
    (ht : ∀ h own w, c.result h (target.getD own) w → c.result h T w) :
    c.Gives pool mappings s (Transfer.byShape invoke frame target value current) fun s' w =>
      c.result s'.heap T w := by
  unfold Transfer.byShape
  refine Gives.bind hc hv fun v s₁ hl₁ hv => .get hc ?_
  split
  · exact .pure hc hl₁.held hc.result_null
  · rename_i own hown
    refine Gives.bind hc (hd s₁ hl₁) fun d s₂ hl₂ hd => ?_
    rw [hw.linkage]
    have hr₂ := hl₂.knows r (hl₁.knows r hr)
    refine Gives.bind hc (.resolveDynamic hc hl₂.held hr₂ own (target.getD own)) ?_
    rintro r' s₃ hl₃ ⟨hheap, hr', hkey⟩
    have hmeets := hw.meets hl₃.held hr' (by rw [hkey]) v d
    rw [hkey] at hmeets
    refine (hmeets ?_ ?_).mono fun w s₄ _ hresult => ht _ own w hresult
    · refine hc.source_later hl₃.later (hc.source_later hl₂.later ?_)
      exact hc.source_own hl₁.held.inv hv hown
    · exact hc.target_later hl₃.later (hd own)

theorem placed_gives (hc : c.SoundValues pool) {T : ShapeId} (inline : Bool) {x : RunM Value}
    (hx : c.Gives pool mappings s x fun s' w => c.result s'.heap T w) :
    c.Gives pool mappings s (Transfer.placed inline <$> x) fun s' w => c.result s'.heap T w := by
  rw [map_eq_pure_bind]
  refine Gives.bind hc hx fun w s' hl hw => .pure hc hl.held ?_
  cases inline with
  | false => exact hw
  | true => exact hc.result_unboxed hw

/-- What is there already is handed on, or null is ; both are destinations. -/
theorem reused_gives (hc : c.SoundValues pool) (h : c.Held pool mappings s) {T : ShapeId}
    (reuse : Bool)
    {current : RunM Value}
    (hd : c.Gives pool mappings s current fun s' d => c.target s'.heap T d) :
    c.Gives pool mappings s (Transfer.reused reuse current) fun s' d => c.target s'.heap T d := by
  cases reuse with
  | true => exact hd
  | false => exact .pure hc h hc.target_null

/-- A transfer from one shape into another gives a result. -/
theorem transfer_gives (hc : c.SoundWith pool frame.state)
    (hw : Within c pool mappings invoke frame r) (hr : s.Knows r) {m : Mapping} (hm : c.allows m)
    {S T : ShapeId}
    {t : Transfer} (ht : t.Between pool m.copyMode S T) {value current : RunM Value}
    (hv : c.Gives pool mappings s value fun s' v => c.source s'.heap S v)
    (hd : ∀ s', c.Leads pool mappings s s' →
      c.Gives pool mappings s' current fun s'' d => c.target s''.heap T d) :
    c.Gives pool mappings s (t.run invoke frame value current) fun s' w =>
      c.result s'.heap T w := by
  obtain ⟨below, known, below', known', hs, ht, hcarries⟩ := ht
  have hv' := hv.mono fun v s' _ hv => hc.values.source_below hs hv
  have hd' (s' : Session) (hl : c.Leads pool mappings s s') :=
    (hd s' hl).mono fun v s' _ hd => hc.values.target_below ht hd
  cases hcarries with
  | primitive hsource htarget =>
    exact hv.mono fun v s' hl hv =>
      hc.transfers.primitive hl.held.inv hs ht hsource htarget hv
  | shared hmode _ hst =>
    refine hv'.mono fun v s' _ hv => ?_
    have hshared := hc.transfers.shared hm hmode hv
    rcases hst with rfl | hany
    · exact hc.values.result_below ht hshared
    · exact hc.values.result_any ht hany hshared
  | @convert _ b hsource htarget hne hcan =>
    refine Gives.bind hc.values hv fun v s₁ hl _ => ?_
    obtain ⟨⟨n, hn⟩, hconverted⟩ := Heap.convert_spec v b s₁.heap
    obtain ⟨hinv, hlater⟩ := hc.values.tokens hl.held.inv n
    refine Gives.onHeapExcept hl.held (hn ▸ hinv) (hn ▸ hlater) fun w hw => ?_
    rcases hconverted w hw with rfl | hw
    · exact hc.values.result_null
    · exact hc.transfers.converted ht htarget hw
  | linked hsource hany hprimitive =>
    refine placed_gives hc.values _ ((byLink_gives hc.values hw hr hv' fun s' hl => ?_).mono ?_)
    · exact reused_gives hc.values hl.held _ (hd' s' hl)
    · exact fun w s' _ hw => hc.values.result_below ht hw
  | dynamic hsource hany =>
    refine placed_gives hc.values _ (byShape_gives hc.values hw hr hv' (fun s' hl => ?_) ?_)
    · exact (reused_gives hc.values hl.held _ (hd' s' hl)).mono fun d s'' _ hd own => hd
    · exact fun h own w hw => hc.values.result_below ht hw
  | copied hsource hany =>
    refine placed_gives hc.values _ ((byLink_gives hc.values hw hr hv' fun s' hl => ?_).mono ?_)
    · exact .pure hc.values hl.held hc.values.target_null
    · exact fun w s' _ hw => hc.values.result_any ht hany hw
  | copiedByShape hsource hany =>
    refine placed_gives hc.values _ (byShape_gives hc.values hw hr hv' (fun s' hl => ?_) ?_)
    · exact .pure hc.values hl.held fun own => hc.values.target_null
    · exact fun h own w hw => hc.values.result_any ht hany hw

/-- What a converter of the mapping makes may go to any place. -/
theorem custom_gives (hc : c.SoundWith pool frame.state) {m : Mapping} (hm : c.allows m)
    {x : Registered} (hx : x ∈ m.converters) {S T : ShapeId} {value : RunM Value}
    (hv : c.Gives pool mappings s value fun s' v => c.source s'.heap S v)
    (current : RunM Value) :
    c.Gives pool mappings s ((Transfer.custom x).run invoke frame value current) fun s' w =>
      c.result s'.heap T w := by
  refine Gives.bind hc.values hv fun v s₁ hl hv => ?_
  split
  · exact .pure hc.values hl.held hc.values.result_null
  · exact .callConverter (hc.converters hm) hx hl.held hv T

/-- A transfer that may be by a converter. -/
theorem made_gives (hc : c.SoundWith pool frame.state) (hw : Within c pool mappings invoke frame r)
    (hr : s.Knows r) {m : Mapping} (hm : c.allows m) {S T : ShapeId} {t : Transfer}
    (ht : t.Made pool m S T) {value current : RunM Value}
    (hv : c.Gives pool mappings s value fun s' v => c.source s'.heap S v)
    (hd : ∀ s', c.Leads pool mappings s s' →
      c.Gives pool mappings s' current fun s'' d => c.target s''.heap T d) :
    c.Gives pool mappings s (t.run invoke frame value current) fun s' w =>
      c.result s'.heap T w := by
  cases ht with
  | declared h | below _ _ _ h =>
    exact custom_gives hc hm (List.mem_of_find?_eq_some h) hv current
  | generated _ h => exact transfer_gives hc hw hr hm h hv hd

/-! ## Records -/

/-- A member that is read from a source record. -/
theorem readMember_gives_source {state : Value} (hc : c.SoundWith pool state)
    (h : c.Held pool mappings s) {S : ShapeId} {known : Descriptor} {i : Nat} {m : Member}
    (hs : pool.descriptor S = .ok known) (hm : known.members[i]? = some m) {v : Value}
    (hv : c.source s.heap S v) :
    c.Gives pool mappings s (RunM.readMember v S i) fun s' w => c.source s'.heap m.shape w := by
  refine .get hc.values ?_
  split
  · exact .pure hc.values h hc.values.source_null
  · rename_i found hfound
    split
    · rename_i heq
      subst heq
      exact .pure hc.values h (hc.transfers.member h.inv hs hm hv hfound)
    · exact .throw hc.values h

/-- A member that is read from the record that is being filled. -/
theorem readMember_gives_target {state : Value} (hc : c.SoundWith pool state)
    (h : c.Held pool mappings s) {T : ShapeId} {known : Descriptor} {i : Nat} {m : Member}
    (ht : pool.descriptor T = .ok known) (hm : known.members[i]? = some m) {start : Heap}
    {record : Value} {pending : List Nat} (hf : c.filling start s.heap T record (i :: pending)) :
    c.Gives pool mappings s (RunM.readMember record T i)
      fun s' w => c.target s'.heap m.shape w := by
  refine .get hc.values ?_
  split
  · exact .pure hc.values h hc.values.target_null
  · rename_i found hfound
    split
    · rename_i heq
      subst heq
      exact .pure hc.values h (hc.records.fill_current h.inv ht hm hf hfound)
    · exact .throw hc.values h

section

variable (hc : c.SoundWith pool frame.state) (hw : Within c pool mappings invoke frame r)
  {m : Mapping} (hm : c.allows m) {source target : ShapeId} {sourceShape targetShape : Descriptor}
  (hs : pool.Below source source sourceShape) (ht : pool.Below target target targetShape)
  {form : RecordForm} (hform : form.Made pool m source target sourceShape targetShape)

include hc hw hm hs ht hform

/-- Writing one member takes it from those that are pending. -/
theorem fill_gives {m' : MemberTransfer} (hm' : m' ∈ form.members) {start : Session}
    {v record : Value} {pending : List Nat} (hl : c.Leads pool mappings start s) (hr : s.Knows r)
    (hv : c.source s.heap source v)
    (hf : c.filling start.heap s.heap target record (m'.pair.destination :: pending)) :
    c.GivesSince pool mappings start s (form.fill invoke frame v record m') fun s' record =>
      c.source s'.heap source v ∧ s'.Knows r ∧
        c.filling start.heap s'.heap target record pending := by
  obtain ⟨sourceMember, targetMember, hsm, htm, hmade⟩ := hform.members m' hm'
  have hvalue := made_gives hc hw hr hm hmade
    (readMember_gives_source hc hl.held hs.descriptor hsm hv) fun s₁ hl₁ =>
      readMember_gives_target hc hl₁.held ht.descriptor htm
        (hc.records.fill_later hf hl₁.later hl₁.held.inv)
  have hvalue' : c.GivesSince pool mappings start s _ fun s' w =>
      c.source s'.heap source v ∧ s'.Knows r ∧ c.result s'.heap targetMember.shape w ∧
        c.filling start.heap s'.heap target record (m'.pair.destination :: pending) :=
    .of_gives hc.values hl (hvalue.mono fun w s₁ hl₁ hw₁ =>
      ⟨hc.values.source_later hl₁.later hv, hl₁.knows r hr, hw₁,
        hc.records.fill_later hf hl₁.later hl₁.held.inv⟩)
  unfold RecordForm.fill
  rw [hform.source_eq, hform.target_eq]
  refine hvalue'.bind ?_
  rintro w s₁ hl₁ ⟨hv₁, hr₁, hw₁, hf₁⟩
  obtain ⟨hinv, hkeep, hf₂⟩ := hc.records.fill_write hl₁.held.inv ht.descriptor htm hf₁ hw₁
  exact .onHeap hl₁ hinv (hc.records.fill_start hf₂) ⟨hkeep _ _ hv₁, hr₁, hf₂⟩

/-- Once all members are written, none is pending. -/
theorem fillAll_gives {members : List MemberTransfer} (hmembers : members ⊆ form.members)
    {start : Session} {v record : Value} (hl : c.Leads pool mappings start s) (hr : s.Knows r)
    (hv : c.source s.heap source v)
    (hf : c.filling start.heap s.heap target record (members.map fun m => m.pair.destination)) :
    c.GivesSince pool mappings start s (form.fillAll invoke frame v record members)
      fun s' record => c.filling start.heap s'.heap target record [] := by
  induction members generalizing s record with
  | nil => exact .pure hl hf
  | cons m' members ih =>
    have hfill : form.fillAll invoke frame v record (m' :: members) =
        (form.fill invoke frame v record m' >>= fun record =>
          form.fillAll invoke frame v record members) :=
      List.foldlM_cons
    rw [hfill]
    have hone := fill_gives hc hw hm hs ht hform (hmembers List.mem_cons_self) hl hr hv hf
    refine hone.bind ?_
    rintro record s₁ hl₁ ⟨hv₁, hr₁, hf₁⟩
    exact ih (fun _ h => hmembers (List.mem_cons_of_mem _ h)) hl₁ hr₁ hv₁ hf₁

/-- The record that is to be filled, supplied or new. -/
theorem destination_gives (hkind : targetShape.kind = .record) (h : c.Held pool mappings s)
    (hr : s.Knows r) (hv : c.source s.heap source frame.source)
    (hd : c.target s.heap target frame.destination) :
    c.GivesSince pool mappings s s (form.destination frame) fun s' record =>
      c.source s'.heap source frame.source ∧ s'.Knows r ∧ (record.unboxed ≠ .null →
        c.filling s.heap s'.heap target record.unboxed
          (form.members.map fun m => m.pair.destination)) := by
  have hpairs : form.members.map (fun m => m.pair.destination) =
      (m.rules.existing sourceShape targetShape).map MemberPair.destination := by
    rw [← hform.pairs, List.map_map]
    rfl
  rw [hpairs]
  unfold RecordForm.destination
  split
  · obtain ⟨hinv, hlater⟩ := hc.records.origin h.inv ht hform.origin
    refine .onHeap (hc.values.leads_refl h) hinv hlater
      ⟨hc.values.source_later hlater hv, hr, fun hnull => ?_⟩
    exact hc.records.fill_new hm h.inv ht hkind hform.origin hnull
  · refine .pure (hc.values.leads_refl h) ⟨hv, hr, fun hnull => ?_⟩
    exact hc.records.fill_supplied hm h.inv ht hkind hd hnull

/-- A record form gives a record of the target shape. -/
theorem record_gives (hkind : targetShape.kind = .record) (h : c.Held pool mappings s)
    (hr : s.Knows r) (hv : c.source s.heap source frame.source)
    (hd : c.target s.heap target frame.destination) :
    c.Gives pool mappings s (form.run invoke frame) fun s' w => c.result s'.heap target w := by
  unfold RecordForm.run
  split
  · exact .pure hc.values h hc.values.result_null
  · refine GivesSince.bind (destination_gives hc hw hm hs ht hform hkind h hr hv hd) ?_
    rintro record s₁ hl₁ ⟨hv₁, hr₁, hf₁⟩
    unfold RecordForm.convert
    split
    · exact .pure hl₁ hc.values.result_null
    · rename_i hnull
      have hall := fillAll_gives hc hw hm hs ht hform (fun _ h => h) hl₁ hr₁
        (hc.values.source_unboxed hv₁) (hf₁ fun heq => hnull (by rw [heq]; rfl))
      refine hall.bind fun record s₂ hl₂ hf₂ => ?_
      have hresult := hc.records.fill_done hf₂
      unfold RecordForm.result
      split
      · obtain ⟨n, hn⟩ := Heap.exists_tokens_box record s₂.heap
        obtain ⟨hinv, hlater⟩ := hc.values.tokens hl₂.held.inv n
        rw [← hn] at hinv hlater
        exact .onHeap hl₂ hinv (hc.values.trans hl₂.later hlater)
          (hc.values.result_later hlater (hc.values.result_box hresult))
      · exact .pure hl₂ hresult

end

/-! ## Collections -/

section

variable (hc : c.SoundWith pool frame.state) (hw : Within c pool mappings invoke frame r)
  {m : Mapping} (hm : c.allows m) {source target : ShapeId} {sourceShape targetShape : Descriptor}
  (hs : pool.Below source source sourceShape) (ht : pool.Below target target targetShape)
  {mapper : CollectionMapper} (hmapper : mapper.For pool m source target sourceShape targetShape)
  {family : Family} {element : Option ShapeId}
  (hkind : targetShape.kind = .collection family element)

include hc hw hm ht hmapper hkind

/-- An element becomes what conforms to the place of elements, whichever way it goes. -/
theorem mapElement_gives (hr : s.Knows r) (h : c.Held pool mappings s) {v : Value}
    (hv : c.source s.heap (sourceElement source sourceShape) v) :
    c.Gives pool mappings s (mapper.mapElement invoke frame v) fun s' w =>
      c.result s'.heap (elementPlace element family) w := by
  obtain rfl := hmapper.family_eq hkind
  have helement : targetShape.element? = element := by rw [Descriptor.element?, hkind]
  have hany := Pool.Below.any hc.grows
  have hvalue : c.Gives pool mappings s (return v) fun s' v =>
      c.source s'.heap (sourceElement source sourceShape) v := .pure hc.values h hv
  have hpath := hmapper.path
  have hsuits := elementRoute_suits mapper.kind m.copyMode (sourceElement source sourceShape)
    element
  rw [helement] at hpath
  rw [CollectionMapper.mapElement_eq, CollectionMapper.transfer]
  generalize mapper.path = path at hpath ⊢
  generalize elementRoute _ _ _ _ = route at hpath hsuits
  -- the route says what the element is made for, and the path is how it is led there
  cases hpath with
  | verbatim =>
    obtain ⟨hmode, hcase⟩ := hsuits
    refine hvalue.mono fun v s' _ hv => ?_
    rcases hcase with hk | hk | ⟨hdeclares, hshared⟩
    · exact hc.collections.verbatim hm hmode ht hkind (Or.inl (by rw [hk]; rfl)) hv
    · exact hc.collections.verbatim hm hmode ht hkind (Or.inr (by rw [hk]; rfl)) hv
    · have hresult := hc.transfers.shared hm hmode hv
      rw [elementPlace_family element hdeclares.1]
      rcases hshared with heq | heq
      · exact heq ▸ hresult
      · rw [heq]
        exact hc.values.result_any hany rfl hresult
  | «static» _ =>
    obtain ⟨rfl, hdeclares, rfl⟩ := hsuits
    rw [elementPlace_family element hdeclares.1]
    exact placed_gives hc.values _ (byLink_gives hc.values hw hr hvalue
      fun s' hl => .pure hc.values hl.held hc.values.target_null)
  | dynamic declared =>
    refine placed_gives hc.values _ (byShape_gives hc.values hw hr hvalue
      (fun s' hl => .pure hc.values hl.held fun _ => hc.values.target_null) fun h own w hw => ?_)
    cases declared with
    | none => exact elementPlace_family_eq_any hsuits ▸ hc.values.result_any hany rfl hw
    | some _ =>
      obtain ⟨hdeclares, rfl⟩ := hsuits
      exact elementPlace_family element hdeclares.1 ▸ hw

/-- And so do all of them, one after the other. -/
theorem mapElements_gives {vs : List Value} (hr : s.Knows r) (h : c.Held pool mappings s)
    (hvs : ∀ v ∈ vs, c.source s.heap (sourceElement source sourceShape) v) :
    c.Gives pool mappings s (mapper.mapElements invoke frame vs) fun s' ws =>
      ∀ w ∈ ws, c.result s'.heap (elementPlace element family) w := by
  unfold CollectionMapper.mapElements
  induction vs generalizing s with
  | nil => exact .pure hc.values h (by simp)
  | cons v vs ih =>
    rw [List.mapM_cons]
    have hone := mapElement_gives hc hw hm ht hmapper hkind hr h (hvs v List.mem_cons_self)
    refine Gives.bind hc.values hone fun w s₁ hl₁ hw₁ => ?_
    have hrest := ih (hl₁.knows r hr) hl₁.held fun v hv =>
      hc.values.source_later hl₁.later (hvs v (List.mem_cons_of_mem _ hv))
    refine Gives.bind hc.values hrest fun ws s₂ hl₂ hws₂ => .pure hc.values hl₂.held ?_
    rintro w' (_ | ⟨_, hw'⟩)
    · exact hc.values.result_later hl₂.later hw₁
    · exact hws₂ w' hw'

/-- An element that is appended to a container, with others still to come. -/
theorem appendElement_gives (hfamily : family = .insertable) {a : Address} {v : Value}
    {vs : List Value} {start : Session} (hl : c.Leads pool mappings start s) (hr : s.Knows r)
    (hvs : ∀ v' ∈ v :: vs, c.source s.heap (sourceElement source sourceShape) v')
    (hb : c.building start.heap s.heap target a) :
    c.GivesSince pool mappings start s (mapper.appendElement invoke frame a v) fun s' _ =>
      s'.Knows r ∧ c.building start.heap s'.heap target a ∧
        ∀ v ∈ vs, c.source s'.heap (sourceElement source sourceShape) v := by
  subst hfamily
  have hv := mapElement_gives hc hw hm ht hmapper hkind hr hl.held (hvs v List.mem_cons_self)
  have hv' : c.GivesSince pool mappings start s (mapper.mapElement invoke frame v) fun s' w =>
      s'.Knows r ∧ c.result s'.heap (element.getD ShapeId.any) w ∧
        c.building start.heap s'.heap target a ∧
        ∀ v ∈ vs, c.source s'.heap (sourceElement source sourceShape) v :=
    .of_gives hc.values hl (hv.mono fun w s₁ hl₁ hw₁ => ⟨hl₁.knows r hr, hw₁,
      hc.collections.build_later hb hl₁.later hl₁.held.inv, fun v hv =>
        hc.values.source_later hl₁.later (hvs v (List.mem_cons_of_mem _ hv))⟩)
  refine hv'.bind ?_
  rintro w s₁ hl₁ ⟨hr₁, hw₁, hb₁, hvs₁⟩
  obtain ⟨hinv, hkeep, hb₂⟩ := hc.collections.build_push hl₁.held.inv ht hkind hb₁ hw₁
  exact GivesSince.onHeap (f := fun heap => ((), heap.push a w)) hl₁ hinv
    (hc.collections.build_start hb₂) ⟨hr₁, hb₂, fun v hv => hkeep _ _ (hvs₁ v hv)⟩

/-- Elements that are appended to a container one after the other. -/
theorem appendElements_gives (hfamily : family = .insertable) {a : Address} {vs : List Value}
    {start : Session} (hl : c.Leads pool mappings start s) (hr : s.Knows r)
    (hvs : ∀ v ∈ vs, c.source s.heap (sourceElement source sourceShape) v)
    (hb : c.building start.heap s.heap target a) :
    c.GivesSince pool mappings start s (mapper.appendElements invoke frame a vs) fun s' _ =>
      c.building start.heap s'.heap target a := by
  unfold CollectionMapper.appendElements
  induction vs generalizing s with
  | nil => exact .pure hl hb
  | cons v vs ih =>
    refine (appendElement_gives hc hw hm ht hmapper hkind hfamily hl hr hvs hb).bind ?_
    rintro _ s₁ hl₁ ⟨hr₁, hb₁, hvs₁⟩
    exact ih hl₁ hr₁ hvs₁ hb₁

omit hw hm in
/-- The container that elements are appended to, supplied or new. -/
theorem container?_gives (hgeneric : mapper.kind = .genericInsertable)
    (hfamily : family = .insertable) (h : c.Held pool mappings s)
    (hd : c.target s.heap target frame.destination) :
    c.GivesSince pool mappings s s (mapper.container? invoke frame) fun s' a? =>
      (∀ S v, c.source s.heap S v → c.source s'.heap S v) ∧ (∀ r, s.Knows r → s'.Knows r) ∧
        ∀ a, a? = some a → c.building s.heap s'.heap target a := by
  subst hfamily
  have hrefl := hc.values.leads_refl h
  unfold CollectionMapper.container?
  rw [hmapper.target_eq]
  refine Ensures.of_eq (get_bind _ s) ?_
  split
  · rename_i a ha
    refine GivesSince.pure hrefl ⟨fun _ _ h => h, fun _ h => h, fun a' ha' => ?_⟩
    obtain rfl := Option.some.inj ha'
    exact hc.collections.build_supplied h.inv ht hkind hd ha
  · obtain ⟨program, origin, hprogram, hrun, horigin⟩ := hmapper.construct hgeneric
    obtain ⟨hinv, hlater⟩ := hc.records.origin h.inv ht horigin
    unfold CollectionMapper.newContainer?
    rw [hprogram]
    dsimp only
    rw [hrun]
    have hmade : c.GivesSince pool mappings s s origin.run fun s' v =>
        c.Leads pool mappings s s' ∧ v = (origin.make s.heap).1 ∧
          s'.heap = (origin.make s.heap).2 :=
      .onHeap hrefl hinv hlater ⟨⟨h.withHeap hinv, hlater, fun _ h => h⟩, rfl, rfl⟩
    refine hmade.bind ?_
    rintro v s₁ hl₁ ⟨-, hv, hheap⟩
    have hkeep := fun S v => hc.values.source_later (S := S) (v := v) hl₁.later
    refine Ensures.of_eq (get_bind _ s₁) ?_
    split
    · rename_i a shape items hseq
      refine GivesSince.pure hl₁ ⟨hkeep, hl₁.knows, fun a' ha' => ?_⟩
      obtain rfl := Option.some.inj ha'
      rw [hheap] at hseq ⊢
      exact hc.collections.build_new h.inv ht hkind horigin hv.symm hseq
    · exact GivesSince.pure hl₁ ⟨hkeep, hl₁.knows, nofun⟩

include hs in
/-- A mapper gives a collection of the target shape. -/
theorem mapper_gives (h : c.Held pool mappings s) (hr : s.Knows r)
    (hv : c.source s.heap source frame.source)
    (hd : c.target s.heap target frame.destination) :
    c.Gives pool mappings s (mapper.run invoke frame) fun s' w => c.result s'.heap target w := by
  have hfamily := hmapper.family_eq hkind
  have helements {s' : Session} (hinv : c.inv s'.heap)
      (hv : c.source s'.heap source frame.source) :=
    hc.collections.element hinv hs hv
  have hnew : c.Gives pool mappings s
      (do
        let items ← mapper.mapElements invoke frame (← CollectionMapper.sourceElements frame.source)
        RunM.onHeap (Heap.alloc (.seq mapper.target items.toArray)))
      fun s' w => c.result s'.heap target w := by
    refine .get hc.values ?_
    have hitems := mapElements_gives hc hw hm ht hmapper hkind hr h (helements h.inv hv)
    refine Gives.bind hc.values hitems fun items s₁ hl₁ hitems => ?_
    rw [hmapper.target_eq]
    obtain ⟨hinv, hlater, hresult⟩ := hc.collections.new hl₁.held.inv ht hkind hitems
    exact .onHeap hl₁.held hinv hlater hresult
  unfold CollectionMapper.run
  split
  · exact .pure hc.values h hc.values.result_null
  · cases hk : mapper.kind with
    | array | typedList | untypedList => exact hnew
    | genericInsertable =>
      rw [hk] at hfamily
      obtain rfl : family = .insertable := hfamily
      refine GivesSince.bind (container?_gives hc ht hmapper hkind hk rfl h hd) ?_
      rintro a? s₁ hl₁ ⟨hkeep, hknows, hb⟩
      split
      · exact .pure hl₁ hc.values.result_null
      · rename_i a
        have happend := appendElements_gives hc hw hm ht hmapper hkind rfl hl₁ (hknows r hr)
          (helements hl₁.held.inv (hkeep _ _ hv)) (hb a rfl)
        have hrest : c.GivesSince pool mappings s s₁
            (do
              mapper.appendElements invoke frame a
                ((s₁.heap.elements? frame.source).getD [frame.source])
              return .ref a)
            fun s' w => c.result s'.heap target w :=
          happend.bind fun _ s₂ hl₂ hb₂ => .pure hl₂ (hc.collections.build_done hb₂)
        exact hrest

end

end

/-! ## Routines -/

/-- A form for two shapes gives a result of the target shape. -/
theorem form_gives {invoke : Invoke} {frame : Frame} {r : Routine}
    (hc : c.SoundWith pool frame.state) (hw : Within c pool mappings invoke frame r) {m : Mapping}
    (hm : c.allows m) {source target : ShapeId} {sourceShape targetShape : Descriptor}
    (hs : pool.Below source source sourceShape) (ht : pool.Below target target targetShape)
    {form : Form} (hform : form.Made pool m source target sourceShape targetShape)
    (h : c.Held pool mappings s) (hr : s.Knows r) (hv : c.source s.heap source frame.source)
    (hd : c.target s.heap target frame.destination) :
    c.Gives pool mappings s (form.run invoke frame) fun s' w => c.result s'.heap target w := by
  cases hform with
  | transfer _ _ hcarries =>
    refine transfer_gives hc hw hr hm ⟨_, _, _, _, hs, ht, hcarries⟩ (.pure hc.values h hv) ?_
    exact fun s' hl => .pure hc.values hl.held (hc.values.target_later hl.later hd)
  | record _ hkind hform => exact record_gives hc hw hm hs ht hform hkind h hr hv hd
  | collection hmapper =>
    obtain ⟨family, element, hkind⟩ :=
      CollectionKind.exists_collection_of_ofDescriptor? hmapper.kind
    exact mapper_gives hc hw hm hs ht hmapper hkind h hr hv hd
  | unresolved _ _ => exact .pure hc.values h hc.values.result_null

/-- All routines under the mappings of an id that are given the state meet a sound contract that
allows these mappings. -/
theorem SoundWith.run_meets {state : Value} (hc : c.SoundWith pool state) {id : MappingId}
    (hid : ∀ m, mappings m → m.id = id → c.allows m) (depth : Nat) {s : Session}
    (h : c.Held pool mappings s) {r : Routine} (hr : s.Knows r) (hkey : r.key.mapping = id) :
    c.Meets pool mappings s r fun source destination => r.run depth source destination state := by
  induction depth generalizing s r with
  | zero => exact fun _ _ _ _ => Ensures.throw (hc.values.leads_refl h)
  | succ depth ih =>
    intro source destination hv hd
    obtain ⟨owner, howned⟩ := h.coherent
    obtain ⟨i, registry, hi, hmem⟩ := hr
    obtain ⟨hlt, howner, -, hmade⟩ := howned.routine i registry hi r hmem
    have hm : c.allows r.linkage.mapping :=
      hid _ (howner ▸ howned.linkage _ hlt) (hmade.mapping.symm.trans hkey)
    rw [h.pool_eq] at hmade
    let frame : Frame := ⟨source, destination, state, r.linkage⟩
    have hw : Within c pool mappings (Routine.run depth) frame r :=
      ⟨rfl, fun h hr' hkey' => ih h hr' (hkey'.trans hkey)⟩
    dsimp only
    rw [Routine.run_succ]
    rcases Mapping.exists_converter_or_form hc.grows hmade.body with
      ⟨x, hx, hrun⟩ | ⟨below, known, below', known', hs, ht, form, hrun, hform⟩
    · rw [hrun, Form.run]
      exact custom_gives hc hm hx (.pure hc.values h hv) (return destination)
    · have hgives := form_gives hc hw hm hs.self ht.self hform h ⟨i, registry, hi, hmem⟩
        (hc.values.source_below hs hv) (hc.values.target_below ht hd)
      rw [hrun]
      exact hgives.mono fun w s' _ hresult => hc.values.result_below ht hresult

/-- Without converters, whatever the state. -/
theorem Sound.run_meets (hc : c.Sound pool) {id : MappingId}
    (hid : ∀ m, mappings m → m.id = id → c.allows m) (depth : Nat) {s : Session}
    (h : c.Held pool mappings s) {r : Routine} (hr : s.Knows r) (hkey : r.key.mapping = id)
    (state : Value) :
    c.Meets pool mappings s r fun source destination => r.run depth source destination state :=
  (hc.with state).run_meets hid depth h hr hkey

end Contract

end Reshape
