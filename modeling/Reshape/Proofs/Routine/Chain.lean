import Reshape.Proofs.Routine.Image
import Reshape.Proofs.Value.Finite

/-!
# Chains of requests

To convert a value is to ask for conversions of what it holds, and at times of the value itself
between two other shapes. `Request.Follows` says which requests a request leads to, from the form
that the body of its routine comes down to, and without sessions and runs.

A chain of requests ends where the source is finite and shows genuine shapes (`Heap.Genuine`), and
no value that is not a collection is to become a collection whose elements are collections without
end (`Request.Founded`) : this is `Request.acc`. Each request for a value inside the source goes
down. The others are for the same value, and take few turns (`Request.Turns`) : out of `any` or into
it at most once each, and for the rest into the elements of the target, or out of those of the
source.
-/

set_option linter.unusedSectionVars false

namespace Reshape

/-! ## Requests -/

/-- A value that is to go through the routine for two shapes. -/
structure Request where
  value : Value
  source : ShapeId
  target : ShapeId

/-- The value goes through the routine for two shapes, into what is there already where `reuse` is
set. -/
inductive Transfer.Sends (heap : Heap) (v : Value) : Transfer → ShapeId → ShapeId → Bool → Prop
  | linked (link : Link) (reuse inline : Bool) (hnull : v.isNull = false) :
    Sends heap v (.linked link reuse inline) link.source link.target reuse
  | dynamic {own : ShapeId} (target : Option ShapeId) (reuse inline : Bool)
    (hown : heap.shape? v = some own) :
    Sends heap v (.dynamic target reuse inline) own (target.getD own) reuse

/-- To run the form on the value is to ask for the request. -/
inductive Form.Asks (heap : Heap) (v : Value) : Form → Request → Prop
  | transfer {t : Transfer} {S T : ShapeId} {reuse : Bool} (h : t.Sends heap v S T reuse) :
    Asks heap v (.transfer t) ⟨v, S, T⟩
  | member {form : RecordForm} {m : MemberTransfer} {u : Value} {S T : ShapeId} {reuse : Bool}
    (hm : m ∈ form.members)
    (hu : heap.memberAs v.unboxed form.source m.pair.source = .ok u)
    (h : m.transfer.Sends heap u S T reuse) : Asks heap v (.record form) ⟨u, S, T⟩
  | element {mapper : CollectionMapper} {e : Value} {S T : ShapeId} {reuse : Bool}
    (he : e ∈ (heap.elements? v).getD [v]) (h : mapper.transfer.Sends heap e S T reuse) :
    Asks heap v (.collection mapper) ⟨e, S, T⟩

/-- The routine for the two shapes is run as the form, which is one for the shapes below. -/
def Mapping.Runs (pool : Pool) (mapping : Mapping) (source target : ShapeId) (form : Form) :
    Prop :=
  ∃ body below sourceShape below' targetShape, mapping.body pool source target = .ok body ∧
    pool.Below source below sourceShape ∧ pool.Below target below' targetShape ∧
    (∀ invoke frame, body.run invoke frame = form.run invoke frame) ∧
    form.For pool mapping below below' sourceShape targetShape

/-- The first request is one that the second leads to. -/
def Request.Follows (pool : Pool) (mapping : Mapping) (heap : Heap) (next q : Request) : Prop :=
  ∃ form, mapping.Runs pool q.source q.target form ∧ form.Asks heap q.value next

/-- The request leads to another one in some number of steps. -/
inductive Request.Leads (pool : Pool) (mapping : Mapping) (heap : Heap) (q : Request) :
    Request → Prop
  | refl : Leads pool mapping heap q q
  | step {q' next : Request} (h : Leads pool mapping heap q q')
    (hnext : next.Follows pool mapping heap q') : Leads pool mapping heap q next

/-- Elements of the one shape are made for collections of the other, nullable shapes aside. -/
def Pool.Nests (pool : Pool) (mode : CopyMode) (element target : ShapeId) : Prop :=
  ∃ below known kind, pool.Below target below known ∧
    CollectionKind.ofDescriptor? known = some kind ∧ kind.Declares mode ∧
    element = known.element?.getD ShapeId.any

/-- The shape of the value is not `any`, and is that of a collection only if there are elements,
nullable shapes aside. -/
def Heap.Genuine (pool : Pool) (heap : Heap) (v : Value) : Prop :=
  ∀ own below known, heap.shape? v = some own → pool.Below own below known →
    known.kind ≠ .any ∧ (known.isCollection = true → heap.elements? v ≠ none)

/-- The shape is neither `any` nor a collection, nullable shapes aside. -/
def Pool.Scalar (pool : Pool) (shape : ShapeId) : Prop :=
  ∀ below known, pool.Below shape below known → known.kind ≠ .any ∧ known.isCollection = false

/-- Nothing that has no elements is to become a collection of collections without end. -/
def Request.Founded (pool : Pool) (mapping : Mapping) (heap : Heap) (q : Request) : Prop :=
  ∀ q', q.Leads pool mapping heap q' → heap.elements? q'.value = none →
    Acc (pool.Nests mapping.copyMode) q'.target

/-- A value goes from between two shapes to between two others. Where it has elements, it does so
only out of `any` and into it. -/
inductive Request.Turns (mode : CopyMode) (heap : Heap) (v : Value) (source target : ShapeId)
    (sourceShape targetShape : Descriptor) : ShapeId → ShapeId → Prop
  | intoAny (hsource : sourceShape.kind ≠ .any) (htarget : targetShape.kind = .any) :
    Turns mode heap v source target sourceShape targetShape source source
  | withinAny {own : ShapeId} (hsource : sourceShape.kind = .any)
    (htarget : targetShape.kind = .any) (hown : heap.shape? v = some own) :
    Turns mode heap v source target sourceShape targetShape own own
  | fromAny {own : ShapeId} (hsource : sourceShape.kind = .any) (htarget : targetShape.kind ≠ .any)
    (hcollection : targetShape.isCollection = false) (hown : heap.shape? v = some own) :
    Turns mode heap v source target sourceShape targetShape own target
  | element {kind : CollectionKind} (hscalar : heap.elements? v = none)
    (hkind : CollectionKind.ofDescriptor? targetShape = some kind)
    (hdeclares : kind.Declares mode) :
    Turns mode heap v source target sourceShape targetShape (sourceElement source sourceShape)
      (targetShape.element?.getD ShapeId.any)
  | elementShape {kind : CollectionKind} {own T : ShapeId} (hscalar : heap.elements? v = none)
    (hkind : CollectionKind.ofDescriptor? targetShape = some kind)
    (hown : heap.shape? v = some own)
    (hT : T = own ∨ kind.Declares mode ∧ T = targetShape.element?.getD ShapeId.any) :
    Turns mode heap v source target sourceShape targetShape own T

theorem CollectionKind.isCollection_of_ofDescriptor? {d : Descriptor} {kind : CollectionKind}
    (h : CollectionKind.ofDescriptor? d = some kind) : d.isCollection = true := by
  obtain ⟨_, _, hkind⟩ := exists_collection_of_ofDescriptor? h
  simp [Descriptor.isCollection, hkind]

theorem sourceElement_of_not_collection {source : ShapeId} {known : Descriptor}
    (h : known.isCollection = false) : sourceElement source known = source := by
  rw [sourceElement, h]
  rfl

section

variable {pool : Pool} {mapping : Mapping} {heap : Heap} {q q' next : Request}

theorem Pool.Scalar.below {shape below : ShapeId} {known : Descriptor} (h : pool.Scalar shape)
    (hb : pool.Below shape below known) : pool.Scalar below := by
  intro below' known' hb'
  obtain ⟨rfl, rfl⟩ := hb.self.unique hb'
  exact h _ _ hb

/-- A value that has no elements has no shape of a collection. -/
theorem Heap.Genuine.scalar {v : Value} {own : ShapeId} (h : heap.Genuine pool v)
    (hown : heap.shape? v = some own) (hscalar : heap.elements? v = none) : pool.Scalar own := by
  intro below known hb
  obtain ⟨hany, helements⟩ := h own below known hown hb
  exact ⟨hany, Bool.eq_false_iff.mpr fun hcollection => helements hcollection hscalar⟩

/-! ## What forms ask for -/

/-- Nobody asks for null. -/
theorem Transfer.Sends.ne_null {t : Transfer} {u : Value} {S T : ShapeId} {reuse : Bool}
    (h : t.Sends heap u S T reuse) : u ≠ .null := by
  rintro rfl
  cases h with
  | linked _ _ _ hnull => cases hnull
  | dynamic _ _ _ hown => cases hown

theorem Heap.mem_held_of_memberAs {v u : Value} {shape : ShapeId} {i : Nat}
    (h : heap.memberAs v.unboxed shape i = .ok u) (hu : u ≠ .null) : u ∈ heap.held v := by
  unfold memberAs at h
  split at h
  · cases h
    exact absurd rfl hu
  · split at h
    · cases hm : heap.member? v.unboxed i with
      | none =>
        rw [hm] at h
        cases h
        exact absurd rfl hu
      | some w =>
        rw [hm] at h
        cases h
        rw [← held_unboxed]
        exact mem_held_of_member? hm
    · cases h

section

variable {source target : ShapeId} {sourceShape targetShape : Descriptor} {v : Value}
  (hpool : Pool.initial.GrowsTo pool)
  (hany : ∀ id known, pool.descriptor id = .ok known → known.kind = .any → id = ShapeId.any)
  (hs : pool.Below source source sourceShape) (ht : pool.Below target target targetShape)

include hpool hany hs ht

/-- A transfer between two shapes takes the value out of `any` or into it. -/
theorem Transfer.Carries.turns {t : Transfer} {mode : CopyMode} {S T : ShapeId} {reuse : Bool}
    (hcollection : targetShape.isCollection = false)
    (hkind : sourceShape.kind = .any ∨ targetShape.kind = .any ∨
      ∃ p, targetShape.kind = .primitive p)
    (hcarries : t.Carries mode source target sourceShape.kind targetShape.kind)
    (h : t.Sends heap v S T reuse) :
    Request.Turns mode heap v source target sourceShape targetShape S T := by
  cases hcarries with
  | primitive _ _ | convert _ _ _ _ | shared _ _ _ => cases h
  | linked hsource hnone hprimitive =>
    rcases hkind with hkind | hkind | ⟨p, hkind⟩
    · exact absurd (hany _ _ hs.descriptor hkind) hsource
    · exact absurd hkind hnone
    · exact absurd hkind (hprimitive p)
  | dynamic hsource hnone =>
    cases h with
    | dynamic _ _ _ hown => exact .fromAny hsource hnone hcollection hown
  | copied hsource htarget =>
    cases h with
    | linked _ _ _ _ =>
      exact .intoAny (fun hkind => hsource (hany _ _ hs.descriptor hkind)) htarget
  | copiedByShape hsource htarget =>
    cases h with
    | dynamic _ _ _ hown => exact .withinAny ((hsource ▸ hs).kind_eq_any hpool) htarget hown

omit hs ht hpool hany in
/-- A value without elements goes the way of an element. -/
theorem CollectionMapper.For.turns {mapper : CollectionMapper} {S T : ShapeId} {reuse : Bool}
    (hmapper : mapper.For pool mapping source target sourceShape targetShape)
    (hscalar : heap.elements? v = none) (h : mapper.transfer.Sends heap v S T reuse) :
    Request.Turns mapping.copyMode heap v source target sourceShape targetShape S T := by
  have hkind := hmapper.kind
  have hpath := hmapper.path
  have hsuits := elementRoute_suits mapper.kind mapping.copyMode
    (sourceElement source sourceShape) targetShape.element?
  unfold transfer at h
  generalize mapper.path = path at h hpath
  generalize elementRoute _ _ _ _ = route at hpath hsuits
  cases hpath with
  | verbatim => cases h
  | «static» _ =>
    obtain ⟨rfl, hdeclares, rfl⟩ := hsuits
    cases h with
    | linked _ _ _ _ => exact .element hscalar hkind hdeclares
  | dynamic declared =>
    cases h with
    | dynamic _ _ _ hown =>
      refine .elementShape hscalar hkind hown ?_
      cases declared with
      | none => exact Or.inl rfl
      | some _ => exact Or.inr hsuits

/-- A form asks for what is inside the value, or for the value itself after a turn. -/
theorem Form.For.inside_or_turns {form : Form}
    (hform : form.For pool mapping source target sourceShape targetShape)
    (h : form.Asks heap v next) : heap.Inside next.value v ∨ next.value = v ∧
      Request.Turns mapping.copyMode heap v source target sourceShape targetShape next.source
        next.target := by
  cases hform with
  | transfer hcollection hkind hcarries =>
    cases h with
    | transfer h => exact Or.inr ⟨rfl, hcarries.turns hpool hany hs ht hcollection hkind h⟩
  | record _ _ hform =>
    cases h with
    | member _ hu h => exact Or.inl (.single (Heap.mem_held_of_memberAs hu h.ne_null))
  | collection hmapper =>
    cases h with
    | element he h =>
      cases hes : heap.elements? v with
      | none =>
        rw [hes] at he
        obtain rfl := List.mem_singleton.mp he
        exact Or.inr ⟨rfl, hmapper.turns hes h⟩
      | some es =>
        rw [hes] at he
        exact Or.inl (Heap.inside_of_mem_elements? hes he)
  | unresolved _ _ => cases h

end

/-! ## Chains -/

theorem Request.Leads.cons (hnext : next.Follows pool mapping heap q)
    (h : next.Leads pool mapping heap q') : q.Leads pool mapping heap q' := by
  induction h with
  | refl => exact .step .refl hnext
  | step _ hstep ih => exact .step ih hstep

theorem Request.Founded.follows (h : q.Founded pool mapping heap)
    (hnext : next.Follows pool mapping heap q) : next.Founded pool mapping heap :=
  fun q' hq' => h q' (.cons hnext hq')

namespace Request

variable {v : Value} {S T : ShapeId} (hpool : Pool.initial.GrowsTo pool)
  (hany : ∀ id known, pool.descriptor id = .ok known → known.kind = .any → id = ShapeId.any)

include hpool hany in
/-- What follows a request is for a value inside, or for the value itself after a turn. -/
theorem Follows.inside_or_turns (h : next.Follows pool mapping heap q) :
    heap.Inside next.value q.value ∨ ∃ below sourceShape below' targetShape,
      pool.Below q.source below sourceShape ∧ pool.Below q.target below' targetShape ∧
      next.value = q.value ∧
      Turns mapping.copyMode heap q.value below below' sourceShape targetShape next.source
        next.target := by
  obtain ⟨form, ⟨_, below, sourceShape, below', targetShape, -, hs, ht, -, hform⟩, hasks⟩ := h
  refine (hform.inside_or_turns hpool hany hs.self ht.self hasks).imp_right ?_
  exact fun h => ⟨below, sourceShape, below', targetShape, hs, ht, h⟩

include hpool hany in
/-- A request leads to requests for the value itself and for what is inside. -/
theorem Leads.inside (h : q.Leads pool mapping heap q') :
    q'.value = q.value ∨ heap.Inside q'.value q.value := by
  induction h with
  | refl => exact Or.inl rfl
  | step _ hnext ih =>
    rcases hnext.inside_or_turns hpool hany with hinside | ⟨_, _, _, _, -, -, hvalue, -⟩
    · refine Or.inr ?_
      rcases ih with heq | hinside'
      · exact heq ▸ hinside
      · exact hinside.trans hinside'
    · rwa [hvalue]

include hpool hany in
/-- Nothing is amiss where the value and all inside it have elements. -/
theorem founded_of_elements
    (h : ∀ u, u = q.value ∨ heap.Inside u q.value → heap.elements? u ≠ none) :
    q.Founded pool mapping heap :=
  fun q' hq' hscalar => absurd hscalar (h q'.value (hq'.inside hpool hany))

include hpool hany in
/-- A value that holds nothing may become a collection, if this is not one of collections without
end. -/
theorem founded_of_scalar (hheld : heap.held v = []) (hv : heap.Genuine pool v)
    (hS : pool.Scalar S) (hT : Acc (pool.Nests mapping.copyMode) T) :
    Founded pool mapping heap ⟨v, S, T⟩ := by
  have hnest {shape : ShapeId} (hscalar : pool.Scalar shape) :
      Acc (pool.Nests mapping.copyMode) shape := by
    refine ⟨_, fun _ ⟨below, known, kind, hb, hkind, _⟩ => ?_⟩
    have hcollection := CollectionKind.isCollection_of_ofDescriptor? hkind
    rw [(hscalar below known hb).2] at hcollection
    cases hcollection
  -- It is the same value all the way, and no shape that it comes from is `any`.
  have hchain (q' : Request) (h : Leads pool mapping heap ⟨v, S, T⟩ q') : q'.value = v ∧
      pool.Scalar q'.source ∧ Acc (pool.Nests mapping.copyMode) q'.target := by
    induction h with
    | refl => exact ⟨rfl, hS, hT⟩
    | @step q' next _ hnext ih =>
      obtain ⟨u, S', T'⟩ := next
      obtain ⟨hvalue, hsource, htarget⟩ := ih
      rcases hnext.inside_or_turns hpool hany with hinside | ⟨_, _, _, _, hs, ht, heq, hturn⟩
      · rw [hvalue] at hinside
        exact (Heap.not_inside hheld hinside).elim
      · rw [hvalue] at hturn heq
        dsimp only at hturn heq ⊢
        obtain ⟨hnone, hcollection⟩ := hsource _ _ hs
        have hbelow := hsource.below hs
        refine ⟨heq, ?_⟩
        cases hturn with
        | intoAny _ _ => exact ⟨hbelow, hnest hbelow⟩
        | withinAny hkind _ _ | fromAny hkind _ _ _ => exact absurd hkind hnone
        | element _ hkind hdeclares =>
          rw [sourceElement_of_not_collection hcollection]
          exact ⟨hbelow, htarget.inv ⟨_, _, _, ht, hkind, hdeclares, rfl⟩⟩
        | elementShape hscalar hkind hown hT =>
          have hown' := hv.scalar hown hscalar
          refine ⟨hown', ?_⟩
          rcases hT with rfl | ⟨hdeclares, rfl⟩
          · exact hnest hown'
          · exact htarget.inv ⟨_, _, _, ht, hkind, hdeclares, rfl⟩
  exact fun q' hq' _ => (hchain q' hq').2.2

section

variable (hv : heap.Finite (heap.Genuine pool) v)
  (hinside : ∀ u S T, heap.Inside u v → Founded pool mapping heap ⟨u, S, T⟩ →
    Acc (Follows pool mapping heap) ⟨u, S, T⟩)

include hpool hany hinside

/-- The chain ends if it does after each turn. -/
theorem acc_of_turns (hq : Founded pool mapping heap ⟨v, S, T⟩)
    (hturns : ∀ below sourceShape below' targetShape S' T', pool.Below S below sourceShape →
      pool.Below T below' targetShape →
      Turns mapping.copyMode heap v below below' sourceShape targetShape S' T' →
      Founded pool mapping heap ⟨v, S', T'⟩ → Acc (Follows pool mapping heap) ⟨v, S', T'⟩) :
    Acc (Follows pool mapping heap) ⟨v, S, T⟩ := by
  refine ⟨_, fun ⟨u, S', T'⟩ hnext => ?_⟩
  have hnext' := hq.follows hnext
  rcases hnext.inside_or_turns hpool hany with hu | ⟨_, _, _, _, hs, ht, heq, hturn⟩
  · exact hinside u S' T' hu hnext'
  · obtain rfl : u = v := heq
    exact hturns _ _ _ _ S' T' hs ht hturn hnext'

/-- Between shapes that are not `any`, and for elements, there is no turn. -/
theorem acc_of_plain (hq : Founded pool mapping heap ⟨v, S, T⟩)
    (hS : ∀ below known, pool.Below S below known → known.kind ≠ .any)
    (hT : ∀ below known, pool.Below T below known → known.kind ≠ .any ∧
      (known.isCollection = true → heap.elements? v ≠ none)) :
    Acc (Follows pool mapping heap) ⟨v, S, T⟩ := by
  refine acc_of_turns hpool hany hinside hq fun below _ below' _ S' T' hs ht hturn _ => ?_
  obtain ⟨hnone, helements⟩ := hT _ _ ht
  cases hturn with
  | intoAny _ htarget | withinAny _ htarget _ => exact absurd htarget hnone
  | fromAny hsource _ _ _ => exact absurd hsource (hS _ _ hs)
  | element hscalar hkind _ | elementShape hscalar hkind _ _ =>
    exact absurd hscalar (helements (CollectionKind.isCollection_of_ofDescriptor? hkind))

include hv

/-- From its own shape into its own shape, a value takes no turn. -/
theorem acc_own {own : ShapeId} (hown : heap.shape? v = some own)
    (hq : Founded pool mapping heap ⟨v, own, own⟩) :
    Acc (Follows pool mapping heap) ⟨v, own, own⟩ :=
  acc_of_plain hpool hany hinside hq (fun below known hb => (hv.holds own below known hown hb).1)
    fun below known hb => hv.holds own below known hown hb

section

variable (hscalar : heap.elements? v = none)

include hscalar

/-- From a shape that is neither `any` nor a collection, the turns go into the elements of the
target. -/
theorem acc_of_scalar (hnest : Acc (pool.Nests mapping.copyMode) T) (hS : pool.Scalar S)
    (hq : Founded pool mapping heap ⟨v, S, T⟩) : Acc (Follows pool mapping heap) ⟨v, S, T⟩ := by
  induction hnest generalizing S with
  | intro T _ ih =>
    refine acc_of_turns hpool hany hinside hq fun below sourceShape _ _ S' T' hs ht hturn hq' => ?_
    obtain ⟨hnone, hcollection⟩ := hS _ _ hs
    have hbelow := hS.below hs
    cases hturn with
    | intoAny _ _ =>
      refine acc_of_plain hpool hany hinside hq' (fun _ _ hb => (hbelow _ _ hb).1) ?_
      refine fun _ _ hb => ⟨(hbelow _ _ hb).1, fun h => ?_⟩
      rw [(hbelow _ _ hb).2] at h
      cases h
    | withinAny hsource _ _ | fromAny hsource _ _ _ => exact absurd hsource hnone
    | element _ hkind hdeclares =>
      rw [sourceElement_of_not_collection hcollection] at hq' ⊢
      exact ih _ ⟨_, _, _, ht, hkind, hdeclares, rfl⟩ hbelow hq'
    | elementShape _ hkind hown hT =>
      rcases hT with rfl | ⟨hdeclares, rfl⟩
      · exact acc_own hpool hany hv hinside hown hq'
      · exact ih _ ⟨_, _, _, ht, hkind, hdeclares, rfl⟩ (hv.holds.scalar hown hscalar) hq'

/-- From a shape into itself, the turns go into the elements of the shape. -/
theorem acc_self (hnest : Acc (pool.Nests mapping.copyMode) S)
    (hq : Founded pool mapping heap ⟨v, S, S⟩) :
    Acc (Follows pool mapping heap) ⟨v, S, S⟩ := by
  induction hnest with
  | intro S hnest ih =>
    refine acc_of_turns hpool hany hinside hq fun _ _ below known S' T' hs ht hturn hq' => ?_
    obtain ⟨rfl, rfl⟩ := hs.unique ht
    cases hturn with
    | intoAny hsource htarget => exact absurd htarget hsource
    | withinAny _ _ hown => exact acc_own hpool hany hv hinside hown hq'
    | fromAny hsource htarget _ _ => exact absurd hsource htarget
    | element _ hkind hdeclares =>
      have hsame : sourceElement below known = known.element?.getD ShapeId.any := by
        rw [sourceElement, CollectionKind.isCollection_of_ofDescriptor? hkind]
        rfl
      rw [hsame] at hq' ⊢
      exact ih _ ⟨_, _, _, ht, hkind, hdeclares, rfl⟩ hq'
    | elementShape _ hkind hown hT =>
      rcases hT with rfl | ⟨hdeclares, rfl⟩
      · exact acc_own hpool hany hv hinside hown hq'
      · refine acc_of_scalar hpool hany hv hinside hscalar ?_ (hv.holds.scalar hown hscalar) hq'
        exact hnest _ ⟨_, _, _, hs, hkind, hdeclares, rfl⟩

/-- The turns go into the elements of the target, and end with those of the source where that is
lost in `any`. -/
theorem acc_of_nest (hnest : Acc (pool.Nests mapping.copyMode) T)
    (hq : Founded pool mapping heap ⟨v, S, T⟩) :
    Acc (Follows pool mapping heap) ⟨v, S, T⟩ := by
  induction hnest generalizing S with
  | intro T hnest ih =>
    refine acc_of_turns hpool hany hinside hq fun _ _ _ _ S' T' hs ht hturn hq' => ?_
    cases hturn with
    | intoAny _ _ =>
      exact acc_self hpool hany hv hinside hscalar (hq' _ .refl hscalar) hq'
    | withinAny _ _ hown => exact acc_own hpool hany hv hinside hown hq'
    | fromAny _ htarget hcollection hown =>
      have hS := hv.holds.scalar hown hscalar
      refine acc_of_plain hpool hany hinside hq' (fun _ _ hb => (hS _ _ hb).1) fun _ _ hb => ?_
      obtain ⟨rfl, rfl⟩ := ht.self.unique hb
      exact ⟨htarget, fun h => absurd h (by simp [hcollection])⟩
    | element _ hkind hdeclares => exact ih _ ⟨_, _, _, ht, hkind, hdeclares, rfl⟩ hq'
    | elementShape _ hkind hown hT =>
      rcases hT with rfl | ⟨hdeclares, rfl⟩
      · exact acc_own hpool hany hv hinside hown hq'
      · refine acc_of_scalar hpool hany hv hinside hscalar ?_ (hv.holds.scalar hown hscalar) hq'
        exact hnest _ ⟨_, _, _, ht, hkind, hdeclares, rfl⟩

end

/-- A value with elements is taken out of `any` and into it, and else stays between its shapes. -/
theorem acc_of_elements (helements : heap.elements? v ≠ none)
    (hq : Founded pool mapping heap ⟨v, S, T⟩) : Acc (Follows pool mapping heap) ⟨v, S, T⟩ := by
  refine acc_of_turns hpool hany hinside hq fun _ _ _ _ S' T' hs ht hturn hq' => ?_
  cases hturn with
  | intoAny hsource _ =>
    refine acc_of_plain hpool hany hinside hq' (fun _ _ hb => ?_) fun _ _ hb => ?_ <;>
      obtain ⟨rfl, rfl⟩ := hs.self.unique hb
    · exact hsource
    · exact ⟨hsource, fun _ => helements⟩
  | withinAny _ _ hown => exact acc_own hpool hany hv hinside hown hq'
  | fromAny _ htarget _ hown =>
    refine acc_of_plain hpool hany hinside hq' (fun _ _ hb => ?_) fun _ _ hb => ?_
    · exact (hv.holds _ _ _ hown hb).1
    · obtain ⟨rfl, rfl⟩ := ht.self.unique hb
      exact ⟨htarget, fun _ => helements⟩
  | element hscalar _ _ | elementShape hscalar _ _ _ => exact absurd hscalar helements

end

include hpool hany in
/-- A chain of requests for a finite value ends. -/
theorem acc (hv : heap.Finite (heap.Genuine pool) v) (hq : Founded pool mapping heap ⟨v, S, T⟩) :
    Acc (Follows pool mapping heap) ⟨v, S, T⟩ := by
  have hacc := hv.acc
  induction hacc generalizing S T with
  | intro v _ ih =>
    have hinside (u : Value) (S T : ShapeId) (hu : heap.Inside u v)
        (hq : Founded pool mapping heap ⟨u, S, T⟩) : Acc (Follows pool mapping heap) ⟨u, S, T⟩ :=
      ih u hu (hv.of_inside hu) hq
    by_cases hscalar : heap.elements? v = none
    · exact acc_of_nest hpool hany hv hinside hscalar (hq _ .refl hscalar) hq
    · exact acc_of_elements hpool hany hv hinside hscalar hq

end Request

end

end Reshape
