import Reshape.Proofs.Pool.Below
import Reshape.Proofs.Program.Coded
import Reshape.Proofs.Routine.Transfer
import Reshape.Proofs.Value.Typing

/-!
# What routines are compiled to

`Mapping.body` plans and gets ready ; here is what comes of it. When the mapping has no converters,
the body of a routine does what a `Form` does : one transfer, a record filled member by member, a
collection mapped element by element, or nothing at all (`Mapping.exists_form`). `Form.For` says
which form it is, in terms of the two shapes alone.

`Transfer.Carries` lists the ways from one shape into another ; the shapes decide between them, and
so does the copy mode. Converters for the shapes of two members come before all of these
(`Transfer.Made`).
-/

namespace Reshape

/-! ## Ways between two shapes -/

/-- The ways of values from the shape `source` into the shape `target`, neither of them nullable. -/
inductive Transfer.Carries (mode : CopyMode) (source target : ShapeId)
    (sourceKind targetKind : Kind) : Transfer → Prop
  | primitive {p : Primitive} (hsource : sourceKind = .primitive p)
    (htarget : targetKind = .primitive p) : Carries mode source target sourceKind targetKind .same
  | convert {a b : Primitive} (hsource : sourceKind = .primitive a)
    (htarget : targetKind = .primitive b) (hne : a ≠ b) (hcan : a.canConvert b = true) :
    Carries mode source target sourceKind targetKind (.convert b)
  | shared (hmode : mode = .shallow) (htarget : ∀ p, targetKind ≠ .primitive p)
    (h : source = target ∨ targetKind = .any) :
    Carries mode source target sourceKind targetKind .same
  | linked {id : LinkId} {reuse inline : Bool} (hsource : source ≠ ShapeId.any)
    (htarget : targetKind ≠ .any) (hprimitive : ∀ p, targetKind ≠ .primitive p) :
    Carries mode source target sourceKind targetKind (.linked ⟨id, source, target⟩ reuse inline)
  | dynamic {reuse inline : Bool} (hsource : sourceKind = .any) (htarget : targetKind ≠ .any) :
    Carries mode source target sourceKind targetKind (.dynamic (some target) reuse inline)
  | copied {id : LinkId} {inline : Bool} (hsource : source ≠ ShapeId.any)
    (htarget : targetKind = .any) :
    Carries mode source target sourceKind targetKind (.linked ⟨id, source, source⟩ false inline)
  | copiedByShape {inline : Bool} (hsource : source = ShapeId.any) (htarget : targetKind = .any) :
    Carries mode source target sourceKind targetKind (.dynamic none false inline)

/-- A way of values from one shape into another, either of which may be nullable. -/
def Transfer.Between (pool : Pool) (mode : CopyMode) (source target : ShapeId) (t : Transfer) :
    Prop :=
  ∃ below sourceShape below' targetShape, pool.Below source below sourceShape ∧
    pool.Below target below' targetShape ∧
    t.Carries mode below below' sourceShape.kind targetShape.kind

/-- No converter is among them. -/
theorem Transfer.Between.ne_custom {pool : Pool} {mode : CopyMode} {source target : ShapeId}
    {t : Transfer} (h : t.Between pool mode source target) (converter : Registered) :
    t ≠ .custom converter := by
  obtain ⟨_, _, _, _, -, -, hcarries⟩ := h
  rintro rfl
  cases hcarries

/-- Into a primitive, values go as they are, are converted, or go by the shapes they are found to
have. -/
theorem Transfer.Carries.into_primitive {mode : CopyMode} {source target : ShapeId}
    {sourceKind targetKind : Kind} {p : Primitive} {t : Transfer}
    (h : t.Carries mode source target sourceKind targetKind) (hp : targetKind = .primitive p) :
    sourceKind = .primitive p ∧ t = .same ∨
      (∃ q, q ≠ p ∧ sourceKind = .primitive q ∧ t = .convert p) ∨
      sourceKind = .any ∧ ∃ reuse inline, t = .dynamic (some target) reuse inline := by
  subst hp
  cases h with
  | primitive hsource htarget =>
    cases htarget
    exact Or.inl ⟨hsource, rfl⟩
  | convert hsource htarget hne _ =>
    cases htarget
    exact Or.inr (Or.inl ⟨_, hne, hsource, rfl⟩)
  | dynamic hsource _ => exact Or.inr (Or.inr ⟨hsource, _, _, rfl⟩)
  | shared _ hprimitive _ => exact absurd rfl (hprimitive p)
  | linked _ _ hprimitive => exact absurd rfl (hprimitive p)
  | copied _ hany | copiedByShape _ hany => cases hany

/-- How the mapping takes values of one declared shape into another : by the converter for the two,
by the one for the shapes below them, or else in a way of its own. -/
inductive Transfer.Made (pool : Pool) (mapping : Mapping) (source target : ShapeId) :
    Transfer → Prop
  | declared {c : Registered} (h : mapping.converters.find? (·.isFor source target) = some c) :
    Made pool mapping source target (.custom c)
  | below {c : Registered} {below below' : ShapeId}
    (hnone : mapping.converters.find? (·.isFor source target) = none)
    (hsource : pool.stripNullable source = .ok below)
    (htarget : pool.stripNullable target = .ok below')
    (h : mapping.converters.find? (·.isFor below below') = some c) :
    Made pool mapping source target (.custom c)
  | generated {t : Transfer}
    (hnone : mapping.converters.find? (·.isFor source target) = none)
    (h : t.Between pool mapping.copyMode source target) : Made pool mapping source target t

namespace Transfer.Made

variable {pool : Pool} {mapping : Mapping} {source target : ShapeId} {t : Transfer}
  {c : Registered}

/-- A converter for the declared shapes is not passed over. -/
theorem eq_custom (h : t.Made pool mapping source target)
    (hc : mapping.converters.find? (·.isFor source target) = some c) : t = .custom c := by
  cases h with
  | declared h =>
    cases hc.symm.trans h
    rfl
  | below hnone _ _ _ | generated hnone _ => cases hc.symm.trans hnone

/-- Values are given to converters of the mapping alone. -/
theorem mem_converters (h : Transfer.Made pool mapping source target (.custom c)) :
    c ∈ mapping.converters := by
  cases h with
  | declared h | below _ _ _ h => exact List.mem_of_find?_eq_some h
  | generated _ h => exact absurd rfl (h.ne_custom c)

theorem between (h : t.Made pool mapping source target) (hconverters : mapping.converters = []) :
    t.Between pool mapping.copyMode source target := by
  cases h with
  | declared h | below _ _ _ h =>
    rw [hconverters] at h
    cases h
  | generated _ h => exact h

end Transfer.Made

/-! ## Forms -/

/-- What the body of a routine comes down to. -/
inductive Form where
  | transfer (transfer : Transfer)
  | record (form : RecordForm)
  | collection (mapper : CollectionMapper)
  | unresolved
  deriving Inhabited

/-- What a routine whose body has the form does. -/
def Form.run (invoke : Invoke) (frame : Frame) : Form → RunM Value
  | transfer t => t.run invoke frame (return frame.source) (return frame.destination)
  | record form => form.run invoke frame
  | collection mapper => mapper.run invoke frame
  | unresolved => return .null

/-- What a routine with the body does. -/
def Body.run (invoke : Invoke) (frame : Frame) : Body → RunM Value
  | program p => p.run invoke frame
  | collection mapper => mapper.run invoke frame
  | unresolved => return .null

/-- One more routine within another. -/
theorem Routine.run_succ (depth : Nat) (r : Routine) (source destination state : Value) :
    r.run (depth + 1) source destination state =
      r.body.run (Routine.run depth) ⟨source, destination, state, r.linkage⟩ := by
  unfold run Body.run
  cases r.body <;> rfl

/-- How instances of the shape come about. -/
inductive Origin.For (pool : Pool) (shape : ShapeId) (known : Descriptor) : Origin → Prop
  | zero {value : Value} (htype : known.valueType = true)
    (hzero : pool.zeroValue shape = .ok value) :
    For pool shape known (.zero value)
  | template {t : Template} (htype : known.valueType = false)
    (hconstructor : known.defaultConstructor = true) (ht : Template.ofShape pool shape = .ok t) :
    For pool shape known (.template t)
  | absent (htype : known.valueType = false) (hconstructor : known.defaultConstructor = false) :
    For pool shape known .absent

/-- The pairs whose members both exist. -/
def MemberRules.existing (rules : MemberRules) (source target : Descriptor) : List MemberPair :=
  (rules.pairs source target).filter fun pair =>
    pair.source < source.members.length ∧ pair.destination < target.members.length

/-- The member is filled in a way that leads from the shape of the one to that of the other. -/
def MemberTransfer.For (pool : Pool) (mode : CopyMode) (source target : Descriptor)
    (m : MemberTransfer) : Prop :=
  ∃ sourceMember targetMember, source.members[m.pair.source]? = some sourceMember ∧
    target.members[m.pair.destination]? = some targetMember ∧
    m.transfer.Between pool mode sourceMember.shape targetMember.shape

/-- The member is filled as the mapping takes values of the shape of the one member into that of the
other. -/
def MemberTransfer.Made (pool : Pool) (mapping : Mapping) (source target : Descriptor)
    (m : MemberTransfer) : Prop :=
  ∃ sourceMember targetMember, source.members[m.pair.source]? = some sourceMember ∧
    target.members[m.pair.destination]? = some targetMember ∧
    m.transfer.Made pool mapping sourceMember.shape targetMember.shape

theorem MemberTransfer.Made.for {pool : Pool} {mapping : Mapping} {source target : Descriptor}
    {m : MemberTransfer} (h : m.Made pool mapping source target)
    (hconverters : mapping.converters = []) : m.For pool mapping.copyMode source target := by
  obtain ⟨sourceMember, targetMember, hs, ht, hmade⟩ := h
  exact ⟨sourceMember, targetMember, hs, ht, hmade.between hconverters⟩

/-- The form fills a record of the one shape from one of the other as the mapping says. -/
structure RecordForm.For (pool : Pool) (mapping : Mapping) (source target : ShapeId)
    (sourceShape targetShape : Descriptor) (form : RecordForm) : Prop where
  source_eq : form.source = source
  target_eq : form.target = target
  boxed : form.boxed = targetShape.valueType
  origin : form.origin.For pool target targetShape
  pairs : form.members.map MemberTransfer.pair = mapping.rules.existing sourceShape targetShape
  members : ∀ m ∈ form.members, m.For pool mapping.copyMode sourceShape targetShape

/-- The same for a mapping that may have converters. -/
structure RecordForm.Made (pool : Pool) (mapping : Mapping) (source target : ShapeId)
    (sourceShape targetShape : Descriptor) (form : RecordForm) : Prop where
  source_eq : form.source = source
  target_eq : form.target = target
  boxed : form.boxed = targetShape.valueType
  origin : form.origin.For pool target targetShape
  pairs : form.members.map MemberTransfer.pair = mapping.rules.existing sourceShape targetShape
  members : ∀ m ∈ form.members, m.Made pool mapping sourceShape targetShape

theorem RecordForm.Made.for {pool : Pool} {mapping : Mapping} {source target : ShapeId}
    {sourceShape targetShape : Descriptor} {form : RecordForm}
    (h : form.Made pool mapping source target sourceShape targetShape)
    (hconverters : mapping.converters = []) :
    form.For pool mapping source target sourceShape targetShape :=
  ⟨h.source_eq, h.target_eq, h.boxed, h.origin, h.pairs,
    fun m hm => (h.members m hm).for hconverters⟩

theorem RecordForm.For.made {pool : Pool} {mapping : Mapping} {source target : ShapeId}
    {sourceShape targetShape : Descriptor} {form : RecordForm}
    (h : form.For pool mapping source target sourceShape targetShape)
    (hconverters : mapping.converters = []) :
    form.Made pool mapping source target sourceShape targetShape where
  source_eq := h.source_eq
  target_eq := h.target_eq
  boxed := h.boxed
  origin := h.origin
  pairs := h.pairs
  members m hm := by
    obtain ⟨sourceMember, targetMember, hs, ht, hbetween⟩ := h.members m hm
    exact ⟨sourceMember, targetMember, hs, ht, .generated (by rw [hconverters]; rfl) hbetween⟩

/-- The path takes elements the way that the route says. -/
inductive ElementRoute.Leads : ElementRoute → ElementPath → Prop
  | verbatim : Leads .verbatim .verbatim
  | static {source target : ShapeId} (id : LinkId) :
    Leads (.static source target) (.linked ⟨id, source, target⟩)
  | dynamic (target : Option ShapeId) : Leads (.dynamic target) (.dynamic target)

namespace ElementRoute.Leads

variable {path : ElementPath}

theorem eq_verbatim (h : Leads .verbatim path) : path = .verbatim := by
  cases h
  rfl

theorem exists_link {source target : ShapeId} (h : Leads (.static source target) path) :
    ∃ id, path = .linked ⟨id, source, target⟩ := by
  cases h with
  | «static» id => exact ⟨id, rfl⟩

theorem eq_dynamic {target : Option ShapeId} (h : Leads (.dynamic target) path) :
    path = .dynamic target := by
  cases h
  rfl

end ElementRoute.Leads

/-- The mapper makes a collection of the one shape from values of the other. -/
structure CollectionMapper.For (pool : Pool) (mapping : Mapping) (source target : ShapeId)
    (sourceShape targetShape : Descriptor) (mapper : CollectionMapper) : Prop where
  kind : CollectionKind.ofDescriptor? targetShape = some mapper.kind
  target_eq : mapper.target = target
  path : (elementRoute mapper.kind mapping.copyMode (sourceElement source sourceShape)
    targetShape.element?).Leads mapper.path
  /-- A container that is neither an array nor a list comes about as instances do. -/
  construct : mapper.kind = .genericInsertable → ∃ (program : ReadyProgram) (origin : Origin),
    mapper.construct = some program ∧ (∀ invoke frame, program.run invoke frame = origin.run) ∧
    origin.For pool target targetShape

/-- The form of a routine for two shapes that are not nullable. -/
inductive Form.For (pool : Pool) (mapping : Mapping) (source target : ShapeId)
    (sourceShape targetShape : Descriptor) : Form → Prop
  | transfer {t : Transfer} (hcollection : targetShape.isCollection = false)
    (hkind : sourceShape.kind = .any ∨ targetShape.kind = .any ∨
      ∃ p, targetShape.kind = .primitive p)
    (h : t.Carries mapping.copyMode source target sourceShape.kind targetShape.kind) :
    For pool mapping source target sourceShape targetShape (.transfer t)
  | record {form : RecordForm} (hsource : sourceShape.kind ≠ .any)
    (hkind : targetShape.kind = .record)
    (h : form.For pool mapping source target sourceShape targetShape) :
    For pool mapping source target sourceShape targetShape (.record form)
  | collection {mapper : CollectionMapper}
    (h : mapper.For pool mapping source target sourceShape targetShape) :
    For pool mapping source target sourceShape targetShape (.collection mapper)
  | unresolved (hcollection : targetShape.isCollection = true)
    (h : CollectionKind.ofDescriptor? targetShape = none) :
    For pool mapping source target sourceShape targetShape .unresolved

/-- The same for a mapping that may have converters. -/
inductive Form.Made (pool : Pool) (mapping : Mapping) (source target : ShapeId)
    (sourceShape targetShape : Descriptor) : Form → Prop
  | transfer {t : Transfer} (hcollection : targetShape.isCollection = false)
    (hkind : sourceShape.kind = .any ∨ targetShape.kind = .any ∨
      ∃ p, targetShape.kind = .primitive p)
    (h : t.Carries mapping.copyMode source target sourceShape.kind targetShape.kind) :
    Made pool mapping source target sourceShape targetShape (.transfer t)
  | record {form : RecordForm} (hsource : sourceShape.kind ≠ .any)
    (hkind : targetShape.kind = .record)
    (h : form.Made pool mapping source target sourceShape targetShape) :
    Made pool mapping source target sourceShape targetShape (.record form)
  | collection {mapper : CollectionMapper}
    (h : mapper.For pool mapping source target sourceShape targetShape) :
    Made pool mapping source target sourceShape targetShape (.collection mapper)
  | unresolved (hcollection : targetShape.isCollection = true)
    (h : CollectionKind.ofDescriptor? targetShape = none) :
    Made pool mapping source target sourceShape targetShape .unresolved

theorem Form.Made.for {pool : Pool} {mapping : Mapping} {source target : ShapeId}
    {sourceShape targetShape : Descriptor} {form : Form}
    (h : form.Made pool mapping source target sourceShape targetShape)
    (hconverters : mapping.converters = []) :
    form.For pool mapping source target sourceShape targetShape := by
  cases h with
  | transfer hcollection hkind h => exact .transfer hcollection hkind h
  | record hsource hkind h => exact .record hsource hkind (h.for hconverters)
  | collection h => exact .collection h
  | unresolved hcollection h => exact .unresolved hcollection h

theorem CollectionKind.exists_collection_of_ofDescriptor? {d : Descriptor} {kind : CollectionKind}
    (h : CollectionKind.ofDescriptor? d = some kind) :
    ∃ family element, d.kind = .collection family element := by
  unfold ofDescriptor? Descriptor.family? at h
  cases hkind : d.kind with
  | collection family element => exact ⟨family, element, rfl⟩
  | _ => simp [hkind] at h

/-- Elements of arrays and lists go by the two declared shapes. -/
theorem elementRoute_of_whole {kind : CollectionKind} (hkind : kind = .array ∨ kind = .typedList)
    (mode : CopyMode) (source : ShapeId) (element : Option ShapeId) :
    elementRoute kind mode source element =
      if mode = .shallow ∧ (source = element.getD ShapeId.any ∨
          element.getD ShapeId.any = ShapeId.any) then .verbatim
      else if source = ShapeId.any then .dynamic
        (if element.getD ShapeId.any = ShapeId.any then none else some (element.getD ShapeId.any))
      else .static source (element.getD ShapeId.any) := by
  rcases hkind with rfl | rfl <;> rfl

/-- Elements of these collections are made for their declared shape. Untyped lists do not go by it,
and containers that are shallow take their elements as they are. -/
def CollectionKind.Declares (mode : CopyMode) (kind : CollectionKind) : Prop :=
  kind ≠ .untypedList ∧ (kind = .genericInsertable → mode = .deep)

/-- Elements of the shape may go this way into collections of the kind. What they are made for is
the declared shape, and they keep their own where none is declared. -/
def ElementRoute.Suits (mode : CopyMode) (kind : CollectionKind) (source : ShapeId)
    (element : Option ShapeId) : ElementRoute → Prop
  | .verbatim => mode = .shallow ∧ (kind = .untypedList ∨ kind = .genericInsertable ∨
      kind.Declares mode ∧
        (source = element.getD ShapeId.any ∨ element.getD ShapeId.any = ShapeId.any))
  | .static S T => S = source ∧ kind.Declares mode ∧ T = element.getD ShapeId.any
  | .dynamic none => kind = .untypedList ∨ element.getD ShapeId.any = ShapeId.any
  | .dynamic (some T) => kind.Declares mode ∧ T = element.getD ShapeId.any

/-- The route that is chosen for elements suits the two element shapes. -/
theorem elementRoute_suits (kind : CollectionKind) (mode : CopyMode) (source : ShapeId)
    (element : Option ShapeId) :
    (elementRoute kind mode source element).Suits mode kind source element := by
  have hwhole (hdeclares : kind.Declares mode) : ElementRoute.Suits mode kind source element
      (if mode = .shallow ∧ (source = element.getD ShapeId.any ∨
          element.getD ShapeId.any = ShapeId.any) then .verbatim
      else if source = ShapeId.any then .dynamic
        (if element.getD ShapeId.any = ShapeId.any then none else some (element.getD ShapeId.any))
      else .static source (element.getD ShapeId.any)) := by
    split
    · rename_i hshared
      exact ⟨hshared.1, Or.inr (Or.inr ⟨hdeclares, hshared.2⟩)⟩
    · split
      · split
        · rename_i hany
          exact Or.inr hany
        · exact ⟨hdeclares, rfl⟩
      · exact ⟨rfl, hdeclares, rfl⟩
  cases kind with
  | array | typedList => exact hwhole ⟨nofun, nofun⟩
  | untypedList =>
    cases mode with
    | shallow => exact ⟨rfl, Or.inl rfl⟩
    | deep => exact Or.inl rfl
  | genericInsertable =>
    cases mode with
    | shallow => exact ⟨rfl, Or.inr (Or.inl rfl)⟩
    | deep =>
      cases element with
      | none => exact Or.inr rfl
      | some T => exact ⟨⟨nofun, fun _ => rfl⟩, rfl⟩

/-- The family of the collections of a kind. -/
def CollectionKind.family : CollectionKind → Family
  | array => .array
  | typedList => .list
  | untypedList => .untypedList
  | genericInsertable => .insertable

theorem CollectionMapper.For.family_eq {pool : Pool} {mapping : Mapping} {source target : ShapeId}
    {sourceShape targetShape : Descriptor} {mapper : CollectionMapper} {family : Family}
    {element : Option ShapeId} (h : mapper.For pool mapping source target sourceShape targetShape)
    (hkind : targetShape.kind = .collection family element) : family = mapper.kind.family := by
  have hfamily : CollectionKind.ofFamily? family = some mapper.kind := by
    rw [← h.kind, CollectionKind.ofDescriptor?, Descriptor.family?, hkind]
    rfl
  generalize mapper.kind = kind at hfamily
  cases family <;> cases hfamily <;> rfl

/-- Into a primitive and into `any`, the form is a transfer. -/
theorem Form.For.exists_transfer {pool : Pool} {mapping : Mapping} {source target : ShapeId}
    {sourceShape targetShape : Descriptor} {form : Form}
    (h : form.For pool mapping source target sourceShape targetShape)
    (hkind : targetShape.kind = .any ∨ ∃ p, targetShape.kind = .primitive p) :
    ∃ t : Transfer, form = .transfer t ∧
      t.Carries mapping.copyMode source target sourceShape.kind targetShape.kind := by
  cases h with
  | transfer _ _ hcarries => exact ⟨_, rfl, hcarries⟩
  | record _ hrecord _ => simp [hrecord] at hkind
  | collection h =>
    obtain ⟨_, _, hcollection⟩ := CollectionKind.exists_collection_of_ofDescriptor? h.kind
    simp [hcollection] at hkind
  | unresolved hcollection _ =>
    rcases hkind with hkind | ⟨p, hkind⟩ <;> simp [Descriptor.isCollection, hkind] at hcollection

/-- Between two records, the form is that of a record. -/
theorem Form.For.exists_record {pool : Pool} {mapping : Mapping} {source target : ShapeId}
    {sourceShape targetShape : Descriptor} {form : Form}
    (h : form.For pool mapping source target sourceShape targetShape)
    (hkind : sourceShape.kind = .record) (hkind' : targetShape.kind = .record) :
    ∃ f : RecordForm, form = .record f ∧
      f.For pool mapping source target sourceShape targetShape := by
  cases h with
  | record _ _ hform => exact ⟨_, rfl, hform⟩
  | transfer _ hcase _ => simp [hkind, hkind'] at hcase
  | collection h =>
    obtain ⟨_, _, hcollection⟩ := CollectionKind.exists_collection_of_ofDescriptor? h.kind
    cases hkind'.symm.trans hcollection
  | unresolved hcollection _ => simp [Descriptor.isCollection, hkind'] at hcollection

/-! ## Members -/

/-- A way that is coded as it is run. -/
theorem Transfer.Carries.proper {pool : Pool} (hpool : Pool.initial.GrowsTo pool) {mode : CopyMode}
    {source target : ShapeId} {sourceKind : Kind} {known : Descriptor} {t : Transfer}
    (htarget : pool.Below target target known)
    (h : t.Carries mode source target sourceKind known.kind) : t.Proper := by
  cases h with
  | dynamic _ hkind =>
    intro heq
    obtain rfl := Option.some.inj heq
    exact hkind (htarget.kind_eq_any hpool)
  | copiedByShape _ _ => simp [Transfer.Proper]
  | _ => trivial

section

variable {pool : Pool} {mapping : Mapping}

/-- Code for the expression, whatever the number of the next link. -/
def Expr.Readies (pool : Pool) (mapping : Mapping) (e : Expr) (p : Code → Prop) : Prop :=
  ∀ n, ∃ code n', e.ready pool mapping n = .ok (code, n') ∧ p code

/-- The expression that converts `value` by a routine for the two shapes, into `current` where
`reuse` is set, and takes the result out of its box where `inline` is set. -/
def Expr.sent (source target : ShapeId) (reuse inline : Bool) (value current : Expr) : Expr :=
  let made := .invoke source target value (if reuse then current else .null)
  if inline then .unbox made else made

/-- The transfer by a routine for the two shapes. -/
inductive Transfer.Sent (source target : ShapeId) (reuse inline : Bool) : Transfer → Prop
  | linked (id : LinkId) (hsource : source ≠ ShapeId.any) :
    Sent source target reuse inline (.linked ⟨id, source, target⟩ reuse inline)
  | dynamic (hsource : source = ShapeId.any) (htarget : target ≠ ShapeId.any) :
    Sent source target reuse inline (.dynamic (some target) reuse inline)
  | copied (hsource : source = ShapeId.any) (htarget : target = ShapeId.any) :
    Sent source target reuse inline (.dynamic none reuse inline)

/-- What is left to a routine is coded as a transfer through a link, or by the shape of the value.
-/
theorem Expr.readies_sent {source target : ShapeId} (reuse inline : Bool) {value current : Expr}
    {v d : Code} (hv : ∀ n, value.ready pool mapping n = .ok (v, n))
    (hd : ∀ n, current.ready pool mapping n = .ok (d, n)) :
    (sent source target reuse inline value current).Readies pool mapping fun code =>
      ∃ t : Transfer, code = t.code v d ∧ t.Sent source target reuse inline := by
  have hreuse (n : Nat) : (if reuse then current else .null : Expr).ready pool mapping n =
      .ok (if reuse then d else .null, n) := by
    cases reuse with
    | true => exact hd n
    | false => rfl
  have hmade : (Expr.invoke source target value
      (if reuse then current else .null)).Readies pool mapping fun code =>
        ∃ t : Transfer, Transfer.placedCode inline code = t.code v d ∧
          t.Sent source target reuse inline := by
    intro n
    by_cases hsource : source = ShapeId.any
    · refine ⟨.invokeDynamic target v (if reuse then d else .null), n, ?_, ?_⟩
      · refine ReadyM.bind_eq_ok_iff.mpr ⟨v, n, hv n,
          ReadyM.bind_eq_ok_iff.mpr ⟨_, n, hreuse n, ?_⟩⟩
        rw [if_pos hsource]
        rfl
      · by_cases htarget : target = ShapeId.any
        · exact ⟨.dynamic none reuse inline, htarget ▸ rfl, .copied hsource htarget⟩
        · exact ⟨.dynamic (some target) reuse inline, rfl, .dynamic hsource htarget⟩
    · refine ⟨.invokeLinked ⟨⟨n⟩, source, target⟩ v (if reuse then d else .null), n + 1, ?_, ?_⟩
      · refine ReadyM.bind_eq_ok_iff.mpr ⟨v, n, hv n,
          ReadyM.bind_eq_ok_iff.mpr ⟨_, n, hreuse n, ?_⟩⟩
        rw [if_neg hsource]
        rfl
      · exact ⟨.linked ⟨⟨n⟩, source, target⟩ reuse inline, rfl, .linked ⟨n⟩ hsource⟩
  intro n
  obtain ⟨code, n', hready, t, hcode, hsent⟩ := hmade n
  cases inline with
  | false => exact ⟨code, n', hready, t, hcode, hsent⟩
  | true =>
    exact ⟨.unbox code, n', ReadyM.bind_eq_ok_iff.mpr ⟨code, n', hready, rfl⟩, t, hcode, hsent⟩

theorem Expr.Readies.mono {e : Expr} {p q : Code → Prop} (h : e.Readies pool mapping p)
    (hpq : ∀ code, p code → q code) : e.Readies pool mapping q := by
  intro n
  obtain ⟨code, n', hready, hp⟩ := h n
  exact ⟨code, n', hready, hpq code hp⟩

theorem Expr.readies_custom {value : Expr} {v : Code}
    (hv : ∀ n, value.ready pool mapping n = .ok (v, n)) {id : ConverterId} {c : Registered}
    (hc : mapping.converter? id = some c) :
    (Expr.convert (.custom id) value).Readies pool mapping (· = .custom c v) := by
  refine fun n => ⟨.custom c v, n, ReadyM.bind_eq_ok_iff.mpr ⟨v, n, hv n, ?_⟩, rfl⟩
  rw [hc]
  rfl

/-- A converter is named for two shapes just where one is found for them. -/
theorem Mapping.converterFor_cases (mapping : Mapping) (source target : ShapeId) :
    mapping.converterFor source target = none ∧
        mapping.converters.find? (·.isFor source target) = none ∨
      ∃ id c, mapping.converterFor source target = some id ∧ mapping.converter? id = some c ∧
        mapping.converters.find? (·.isFor source target) = some c := by
  have hbind := mapping.converterFor_bind_converter? source target
  cases hid : mapping.converterFor source target with
  | none =>
    rw [hid] at hbind
    exact Or.inl ⟨rfl, hbind.symm⟩
  | some id =>
    obtain ⟨i, hi, rfl⟩ := Option.map_eq_some_iff.mp hid
    have hc := List.getElem?_eq_getElem (List.findIdx?_eq_some_iff_getElem.mp hi).1
    rw [hid] at hbind
    exact Or.inr ⟨⟨i⟩, _, rfl, hc, hbind.symm.trans hc⟩

variable (hpool : Pool.initial.GrowsTo pool) (hconverters : mapping.converters = [])

include hconverters in
theorem Mapping.converterFor_eq_none (source target : ShapeId) :
    mapping.converterFor source target = none := by
  rw [converterFor, hconverters]
  rfl

section

variable {mode : CopyMode} {source target : ShapeId} {sourceShape targetShape : Descriptor}
  {reuse inline : Bool} {t : Transfer}

include hpool in
theorem Transfer.Sent.carries (hsource : pool.Below source source sourceShape)
    (htarget : pool.Below target target targetShape) (hany : targetShape.kind ≠ .any)
    (hprimitive : ∀ p, targetShape.kind ≠ .primitive p) (h : t.Sent source target reuse inline) :
    t.Carries mode source target sourceShape.kind targetShape.kind := by
  cases h with
  | linked id hne => exact .linked hne hany hprimitive
  | dynamic heq _ =>
    subst heq
    exact .dynamic (hsource.kind_eq_any hpool) hany
  | copied _ heq =>
    subst heq
    exact absurd (htarget.kind_eq_any hpool) hany

/-- To convert into the source shape is to copy. -/
theorem Transfer.Sent.carries_any (hany : targetShape.kind = .any)
    (h : t.Sent source source false inline) :
    t.Carries mode source target sourceShape.kind targetShape.kind := by
  cases h with
  | linked id hne => exact .copied hne hany
  | dynamic heq hne => exact absurd heq hne
  | copied heq _ => exact .copiedByShape heq hany

include hpool in
/-- To convert from the shape `any` is to leave it to the shape of the value. -/
theorem Transfer.Sent.carries_dynamic (htarget : pool.Below target target targetShape)
    (hsource : sourceShape.kind = .any) (hany : targetShape.kind ≠ .any)
    (h : t.Sent ShapeId.any target reuse inline) :
    t.Carries mode source target sourceShape.kind targetShape.kind := by
  cases h with
  | linked id hne => exact absurd rfl hne
  | dynamic _ _ => exact .dynamic hsource hany
  | copied _ heq =>
    subst heq
    exact absurd (htarget.kind_eq_any hpool) hany

end

/-- The code is that of one of the ways from the one shape into the other. -/
def Code.Carries (mode : CopyMode) (source target : ShapeId) (sourceKind targetKind : Kind)
    (value current code : Code) : Prop :=
  ∃ t : Transfer, code = t.code value current ∧ t.Carries mode source target sourceKind targetKind

namespace Expr

variable {value current : Expr} {v d : Code} {mode : CopyMode} {source target : ShapeId}
  {sourceKind targetKind : Kind}

theorem readies_same (hv : ∀ n, value.ready pool mapping n = .ok (v, n))
    (h : Transfer.Carries mode source target sourceKind targetKind .same) :
    value.Readies pool mapping (Code.Carries mode source target sourceKind targetKind v d) :=
  fun n => ⟨v, n, hv n, .same, rfl, h⟩

theorem readies_convert (hv : ∀ n, value.ready pool mapping n = .ok (v, n)) {a b : Primitive}
    (h : Transfer.Carries mode source target sourceKind targetKind (.convert b)) :
    (Expr.convert (.primitive a b) value).Readies pool mapping
      (Code.Carries mode source target sourceKind targetKind v d) :=
  fun n => ⟨_, n, ReadyM.bind_eq_ok_iff.mpr ⟨v, n, hv n, rfl⟩, .convert b, rfl, h⟩

/-- What is left to a routine is coded as a way between the two shapes, if the routine is. -/
theorem readies_sent_carries {source' target' : ShapeId} (reuse inline : Bool)
    (hv : ∀ n, value.ready pool mapping n = .ok (v, n))
    (hd : ∀ n, current.ready pool mapping n = .ok (d, n))
    (h : ∀ t : Transfer, t.Sent source' target' reuse inline →
      t.Carries mode source target sourceKind targetKind) :
    (sent source' target' reuse inline value current).Readies pool mapping
      (Code.Carries mode source target sourceKind targetKind v d) :=
  (readies_sent reuse inline hv hd).mono fun _ ⟨t, hcode, hsent⟩ => ⟨t, hcode, h t hsent⟩

end Expr

/-- The code is that of a transfer by which the mapping takes values of the one shape into the
other. -/
def Code.Transfers (pool : Pool) (mapping : Mapping) (source target : ShapeId)
    (value current : Code) (code : Code) : Prop :=
  ∃ t : Transfer, code = t.code value current ∧ t.Proper ∧ t.Made pool mapping source target

include hpool in
/-- What is written to a member is coded as a transfer between the shapes of the two members. -/
theorem Mapping.memberValue_readies {read current e : Expr} {v d : Code} {source target : ShapeId}
    (hv : ∀ n, read.ready pool mapping n = .ok (v, n))
    (hd : ∀ n, current.ready pool mapping n = .ok (d, n))
    (h : memberValue pool mapping read source target current = .ok e) :
    e.Readies pool mapping (Code.Transfers pool mapping source target v d) := by
  have hcustom {id : ConverterId} {c : Registered} (hc : mapping.converter? id = some c)
      (hmade : Transfer.Made pool mapping source target (.custom c)) :
      (Expr.convert (.custom id) read).Readies pool mapping
        (Code.Transfers pool mapping source target v d) :=
    (Expr.readies_custom hv hc).mono fun code hcode => ⟨.custom c, hcode, trivial, hmade⟩
  unfold memberValue at h
  -- a converter for the declared shapes comes first, then one for the shapes below them
  rcases mapping.converterFor_cases source target with ⟨hfor, hnone⟩ | ⟨id, c, hfor, hid, hc⟩
  case inr =>
    rw [hfor] at h
    cases h
    exact hcustom hid (.declared hc)
  simp only [hfor] at h
  obtain ⟨below, hsource, h⟩ := Except.bind_eq_ok_iff.mp h
  obtain ⟨below', htarget, h⟩ := Except.bind_eq_ok_iff.mp h
  rw [Pool.orCompileError_eq_ok_iff] at hsource htarget
  rcases mapping.converterFor_cases below below' with ⟨hfor', -⟩ | ⟨id, c, hfor', hid, hc⟩
  case inr =>
    simp only [hfor'] at h
    cases h
    exact hcustom hid (.below hnone hsource htarget hc)
  simp only [hfor'] at h
  obtain ⟨sourceShape, hsourceShape, h⟩ := Except.bind_eq_ok_iff.mp h
  obtain ⟨targetShape, htargetShape, h⟩ := Except.bind_eq_ok_iff.mp h
  rw [Pool.orCompileError_eq_ok_iff] at hsourceShape htargetShape
  have hs : pool.Below source below sourceShape := ⟨hsource, hsourceShape⟩
  have ht : pool.Below target below' targetShape := ⟨htarget, htargetShape⟩
  -- without a converter, the kinds of the shapes below decide on the way
  suffices hcarries : e.Readies pool mapping
      (Code.Carries mapping.copyMode below below' sourceShape.kind targetShape.kind v d) from
    hcarries.mono fun code ⟨t, hcode, hcarries⟩ =>
      ⟨t, hcode, hcarries.proper hpool ht.self,
        .generated hnone ⟨below, sourceShape, below', targetShape, hs, ht, hcarries⟩⟩
  split at h
  · rename_i a b ha hb
    split at h
    · rename_i hab
      cases h
      exact Expr.readies_same hv (.primitive ha (hab ▸ hb))
    · split at h
      · rename_i hne hcan
        cases h
        exact Expr.readies_convert hv (.convert ha hb hne hcan)
      · cases h
  · rename_i b ha hb
    cases h
    exact Expr.readies_sent_carries false true hv hd
      fun t hsent => hsent.carries_dynamic hpool ht.self ha (by simp [hb])
  · cases h
  · rename_i hprimitive _ _
    split at h
    · rename_i hshared
      cases h
      refine Expr.readies_same hv (.shared hshared.1 hprimitive (hshared.2.imp_right ?_))
      rintro rfl
      exact ht.kind_eq_any hpool
    · split at h
      · rename_i hany
        cases h
        exact Expr.readies_sent_carries false false hv hd
          fun t hsent => hsent.carries_any hany
      · rename_i hany
        have hsent : e = Expr.sent below below' true targetShape.valueType read current := by
          cases h
          rfl
        rw [hsent]
        exact Expr.readies_sent_carries true targetShape.valueType hv hd
          fun t hsent => hsent.carries hpool hs.self ht.self hany hprimitive

/-! ## Records -/

theorem Expr.readyAll_append (es es' : List Expr) :
    Expr.readyAll pool mapping (es ++ es') = (do
      let codes ← Expr.readyAll pool mapping es
      let codes' ← Expr.readyAll pool mapping es'
      return codes ++ codes') := by
  induction es with
  | nil => simp [readyAll]
  | cons e es ih => simp [readyAll, ih]

section

variable {source target : ShapeId} {sourceShape targetShape : Descriptor}

include hpool in
/-- What is written for the pairs is coded as transfers between the members that exist. -/
theorem Mapping.memberWrites_ready {pairs : List MemberPair} {writes : List (Option Expr)}
    (h : pairs.mapM (memberWrite pool mapping source sourceShape target targetShape) = .ok writes)
    (n : Nat) :
    ∃ (members : List MemberTransfer) (n' : Nat),
      Expr.readyAll pool mapping (writes.flatMap Option.toList) n =
        .ok (members.map (·.code source target), n') ∧
      members.map MemberTransfer.pair = (pairs.filter fun pair =>
        pair.source < sourceShape.members.length ∧
          pair.destination < targetShape.members.length) ∧
      ∀ m ∈ members, m.transfer.Proper ∧ m.Made pool mapping sourceShape targetShape := by
  induction pairs generalizing writes n with
  | nil =>
    cases h
    exact ⟨[], n, rfl, rfl, by simp⟩
  | cons pair pairs ih =>
    rw [List.mapM_cons] at h
    obtain ⟨write, hwrite, h⟩ := Except.bind_eq_ok_iff.mp h
    obtain ⟨writes, hwrites, h⟩ := Except.bind_eq_ok_iff.mp h
    cases h
    unfold memberWrite at hwrite
    split at hwrite
    · rename_i sourceMember targetMember hs ht
      obtain ⟨value, hvalue, hwrite⟩ := Except.bind_eq_ok_iff.mp hwrite
      cases hwrite
      have hlt := (List.getElem?_eq_some_iff.mp hs).1
      have hlt' := (List.getElem?_eq_some_iff.mp ht).1
      obtain ⟨code, n₁, hready, t, hcode, hproper, hmade⟩ :=
        memberValue_readies hpool
          (v := .readMember (.readLocal sourceLocal) source pair.source)
          (d := .readMember (.readLocal targetLocal) target pair.destination) (fun _ => rfl)
          (fun _ => rfl) hvalue n
      obtain ⟨members, n', hreadyAll, hpairs, hmembers⟩ := ih hwrites n₁
      refine ⟨⟨pair, t⟩ :: members, n', ?_, ?_, ?_⟩
      · refine ReadyM.bind_eq_ok_iff.mpr
          ⟨.writeMember targetLocal pair.destination code, n₁, ?_, ?_⟩
        · exact ReadyM.bind_eq_ok_iff.mpr ⟨code, n₁, hready, rfl⟩
        · refine ReadyM.bind_eq_ok_iff.mpr ⟨_, n', hreadyAll, ?_⟩
          rw [hcode]
          rfl
      · rw [List.filter_cons_of_pos (by simp [hlt, hlt']), ← hpairs]
        rfl
      · rintro m (_ | ⟨_, hm⟩)
        · exact ⟨hproper, sourceMember, targetMember, hs, ht, hmade⟩
        · exact hmembers m hm
    · rename_i hnone
      cases hwrite
      obtain ⟨members, n', hreadyAll, hpairs, hmembers⟩ := ih hwrites n
      refine ⟨members, n', hreadyAll, ?_, hmembers⟩
      rw [List.filter_cons_of_neg, hpairs]
      intro hin
      obtain ⟨hlt, hlt'⟩ := of_decide_eq_true hin
      exact hnone _ _ (List.getElem?_eq_getElem hlt) (List.getElem?_eq_getElem hlt')

/-- The code for a new instance. -/
theorem Construction.ready_expr (first : LocalId) {n : Nat} {r : Code × Nat} :
    ((Construction.ofDescriptor targetShape).expr target first).ready pool mapping n = .ok r ↔
      ∃ origin : Origin, origin.For pool target targetShape ∧ r = (origin.code first, n) := by
  unfold Construction.ofDescriptor
  constructor
  · intro h
    cases htype : targetShape.valueType with
    | true =>
      rw [htype] at h
      obtain ⟨codes, n', hcodes, h⟩ := ReadyM.bind_eq_ok_iff.mp h
      obtain ⟨code, n₁, hcode, hcodes⟩ := ReadyM.bind_eq_ok_iff.mp hcodes
      obtain ⟨zero, n₂, hready, hcode⟩ := ReadyM.bind_eq_ok_iff.mp hcode
      obtain ⟨_, hzero, heq⟩ := ReadyM.ofPool_eq_ok_iff.mp hready
      cases heq
      cases hcode
      cases hcodes
      cases h
      exact ⟨.zero zero, .zero htype hzero, rfl⟩
    | false =>
      rw [htype] at h
      cases hconstructor : targetShape.defaultConstructor with
      | true =>
        rw [hconstructor] at h
        obtain ⟨t, n', hready, h⟩ := ReadyM.bind_eq_ok_iff.mp h
        obtain ⟨_, ht, heq⟩ := ReadyM.ofPool_eq_ok_iff.mp hready
        cases heq
        cases h
        exact ⟨.template t, .template htype hconstructor ht, rfl⟩
      | false =>
        rw [hconstructor] at h
        cases h
        exact ⟨.absent, .absent htype hconstructor, rfl⟩
  · rintro ⟨origin, horigin, rfl⟩
    cases horigin with
    | zero htype hzero =>
      rw [if_pos htype]
      refine ReadyM.bind_eq_ok_iff.mpr ⟨_, n, ?_, rfl⟩
      refine ReadyM.bind_eq_ok_iff.mpr ⟨_, n, ?_, rfl⟩
      exact ReadyM.bind_eq_ok_iff.mpr ⟨_, n, ReadyM.ofPool_eq_ok_iff.mpr ⟨_, hzero, rfl⟩, rfl⟩
    | template htype hconstructor ht =>
      rw [htype, if_neg Bool.false_ne_true, if_pos hconstructor]
      exact ReadyM.bind_eq_ok_iff.mpr ⟨_, n, ReadyM.ofPool_eq_ok_iff.mpr ⟨_, ht, rfl⟩, rfl⟩
    | absent htype hconstructor =>
      rw [htype, hconstructor]
      rfl

theorem Construction.length_locals {origin : Origin}
    (horigin : origin.For pool target targetShape) :
    2 + ((Construction.ofDescriptor targetShape).locals target).length = origin.localCount := by
  unfold Construction.ofDescriptor
  cases horigin with
  | zero htype _ => rw [if_pos htype]; rfl
  | template htype hconstructor _ => rw [htype, hconstructor]; rfl
  | absent htype hconstructor => rw [htype, hconstructor]; rfl

open Mapping in
/-- The body of a record program is made ready part by part : the zero values of the two locals, the
way a record is made, and the members. -/
theorem Mapping.ready_recordBody (writes : List Expr) (made : Expr) (boxed : Bool) :
    (Expr.ifNotNull (.argument .source) (.sequence [
      .declareLocal sourceLocal source,
      .writeLocal sourceLocal (.unbox (.argument .source)),
      .declareLocal targetLocal target,
      .writeLocal targetLocal (.unbox (.coalesce (.argument .destination) made)),
      .ifNotNull (.readLocal targetLocal) (.sequence (writes ++ [.returns
        (if boxed then .box (.readLocal targetLocal) else .readLocal targetLocal)])),
      .returns .null])).ready pool mapping = (do
    let sourceZero ← ReadyM.ofPool (pool.zeroValue source)
    let targetZero ← ReadyM.ofPool (pool.zeroValue target)
    let made ← made.ready pool mapping
    let writes ← Expr.readyAll pool mapping writes
    return .ifNotNull (.argument .source) (.sequence [
      .declareLocal sourceLocal sourceZero,
      .writeLocal sourceLocal (.unbox (.argument .source)),
      .declareLocal targetLocal targetZero,
      .writeLocal targetLocal (.unbox (.coalesce (.argument .destination) made)),
      .ifNotNull (.readLocal targetLocal) (.sequence (writes ++ [.returns
        (if boxed then .box (.readLocal targetLocal) else .readLocal targetLocal)])),
      .returns .null])) := by
  cases boxed <;> simp [Expr.ready, Expr.readyAll, Expr.readyAll_append]

variable {program : Program}

include hpool

/-- The program into a record is the code of a form. -/
theorem Mapping.exists_recordForm_of_ready
    (h : recordProgram pool mapping source sourceShape target targetShape = .ok program)
    {n n' : Nat} {code : Code} (hready : program.body.ready pool mapping n = .ok (code, n')) :
    ∃ (form : RecordForm) (sourceZero targetZero : Value),
      form.Made pool mapping source target sourceShape targetShape ∧
      code = form.code sourceZero targetZero ∧ program.locals.length = form.origin.localCount ∧
      ∀ m ∈ form.members, m.transfer.Proper := by
  obtain ⟨writes, hwrites, h⟩ := Except.bind_eq_ok_iff.mp h
  obtain ⟨writes, hmapM, hwrites⟩ := Except.bind_eq_ok_iff.mp hwrites
  cases hwrites
  cases h
  rw [ready_recordBody] at hready
  obtain ⟨sourceZero, n₁, hsource, hready⟩ := ReadyM.bind_eq_ok_iff.mp hready
  obtain ⟨targetZero, n₂, htarget, hready⟩ := ReadyM.bind_eq_ok_iff.mp hready
  obtain ⟨made, n₃, hmade, hready⟩ := ReadyM.bind_eq_ok_iff.mp hready
  obtain ⟨codes, n₄, hcodes, hready⟩ := ReadyM.bind_eq_ok_iff.mp hready
  obtain ⟨origin, horigin, heq⟩ := (Construction.ready_expr _).mp hmade
  cases heq
  obtain ⟨members, n₅, hmembers, hpairs, hall⟩ :=
    memberWrites_ready hpool hmapM n₂
  cases hcodes.symm.trans hmembers
  cases hready
  refine ⟨⟨source, target, origin, members, targetShape.valueType⟩, sourceZero, targetZero,
    ⟨rfl, rfl, rfl, horigin, hpairs, fun m hm => (hall m hm).2⟩, rfl, ?_,
    fun m hm => (hall m hm).1⟩
  rw [← Construction.length_locals horigin, List.length_append]
  rfl

/-- The program into a record can be made ready if there are zero values and an origin. -/
theorem Mapping.exists_ready_of_recordProgram
    (h : recordProgram pool mapping source sourceShape target targetShape = .ok program)
    {sourceZero targetZero : Value} {origin : Origin}
    (hsource : pool.zeroValue source = .ok sourceZero)
    (htarget : pool.zeroValue target = .ok targetZero)
    (horigin : origin.For pool target targetShape) (n : Nat) :
    ∃ r, program.body.ready pool mapping n = .ok r := by
  obtain ⟨writes, hwrites, h⟩ := Except.bind_eq_ok_iff.mp h
  obtain ⟨writes, hmapM, hwrites⟩ := Except.bind_eq_ok_iff.mp hwrites
  cases hwrites
  cases h
  obtain ⟨members, n', hmembers, -, -⟩ := memberWrites_ready hpool hmapM n
  have hsource := ReadyM.ofPool_eq_ok_iff (n := n).mpr ⟨_, hsource, rfl⟩
  have htarget := ReadyM.ofPool_eq_ok_iff (n := n).mpr ⟨_, htarget, rfl⟩
  simp only [ready_recordBody, ReadyM.bind_eq_ok_iff]
  exact ⟨_, _, _, hsource, _, _, htarget, _, _,
    (Construction.ready_expr _).mpr ⟨_, horigin, rfl⟩, _, _, hmembers, rfl⟩

end

/-! ## Collections -/

theorem ElementRoute.leads_of_ready {route : ElementRoute} {path : ElementPath} {n n' : Nat}
    (h : route.ready n = .ok (path, n')) : route.Leads path := by
  cases route with
  | verbatim =>
    cases h
    exact .verbatim
  | dynamic target =>
    cases h
    exact .dynamic target
  | static source target =>
    cases h
    exact .static ⟨n⟩

theorem ElementRoute.exists_ready (route : ElementRoute) (n : Nat) :
    ∃ r, route.ready n = .ok r := by
  cases route <;> exact ⟨_, rfl⟩

/-- The program for an instance of a shape that is not nullable. -/
theorem Pool.Below.instanceProgram_eq {shape : ShapeId} {known : Descriptor}
    (h : pool.Below shape shape known) : instanceProgram pool shape =
      .ok ⟨(Construction.ofDescriptor known).locals shape,
        .returns ((Construction.ofDescriptor known).expr shape ⟨0⟩)⟩ := by
  refine Except.bind_eq_ok_iff.mpr ⟨shape, Pool.orCompileError_eq_ok_iff.mpr h.strip, ?_⟩
  exact Except.bind_eq_ok_iff.mpr ⟨known, Pool.orCompileError_eq_ok_iff.mpr h.descriptor, rfl⟩

/-- The program for a container does what its origin says. -/
theorem exists_origin_of_ready {shape : ShapeId} {known : Descriptor} {program : Program}
    (hbelow : pool.Below shape shape known) (h : instanceProgram pool shape = .ok program)
    {n n' : Nat} {ready : ReadyProgram} (hready : program.ready pool mapping n = .ok (ready, n')) :
    ∃ origin : Origin, origin.For pool shape known ∧
      ∀ invoke frame, ready.run invoke frame = origin.run := by
  cases hbelow.instanceProgram_eq.symm.trans h
  obtain ⟨-, code, n₁, hcode, heq⟩ := Program.ready_eq_ok_iff.mp hready
  cases heq
  obtain ⟨made, n₂, hmade, hcode⟩ := ReadyM.bind_eq_ok_iff.mp hcode
  cases hcode
  obtain ⟨origin, horigin, heq⟩ := (Construction.ready_expr _).mp hmade
  cases heq
  refine ⟨origin, horigin, fun invoke frame => origin.run_code ?_ invoke frame⟩
  rintro value rfl
  have hlength : 2 + ((Construction.ofDescriptor known).locals shape).length = 3 :=
    Construction.length_locals horigin
  change 0 < ((Construction.ofDescriptor known).locals shape).length
  omega

/-- A plan for a collection is made ready as a mapper for the two shapes. -/
theorem CollectionPlan.for_of_ready {source target : ShapeId} {sourceShape targetShape : Descriptor}
    {plan : CollectionPlan} (htarget : pool.Below target target targetShape)
    (h : planCollection pool mapping source sourceShape target targetShape = .ok (some plan))
    {n n' : Nat} {mapper : CollectionMapper}
    (hready : plan.ready pool mapping n = .ok (mapper, n')) :
    mapper.For pool mapping source target sourceShape targetShape := by
  unfold planCollection at h
  split at h
  · cases h
  · rename_i kind hkind
    obtain ⟨inlineElements, -, h⟩ := Except.bind_eq_ok_iff.mp h
    obtain ⟨construct, hconstruct, h⟩ := Except.bind_eq_ok_iff.mp h
    cases h
    obtain ⟨construct', n₁, hconstruct', hready⟩ := ReadyM.bind_eq_ok_iff.mp hready
    obtain ⟨path, n₂, hpath, hready⟩ := ReadyM.bind_eq_ok_iff.mp hready
    cases hready
    refine ⟨hkind, rfl, ElementRoute.leads_of_ready hpath, fun hgeneric => ?_⟩
    obtain rfl : kind = .genericInsertable := hgeneric
    obtain ⟨program, hprogram, rfl⟩ := Except.map_eq_ok_iff.mp hconstruct
    obtain ⟨⟨ready, _⟩, hready, heq⟩ := Except.bind_eq_ok_iff.mp hconstruct'
    cases heq
    obtain ⟨origin, horigin, hrun⟩ := exists_origin_of_ready htarget hprogram hready
    exact ⟨ready, origin, rfl, hrun, horigin⟩

/-- There is no plan for a collection only where there is no kind of collection. -/
theorem ofDescriptor?_eq_none_of_planCollection {source target : ShapeId}
    {sourceShape targetShape : Descriptor}
    (h : planCollection pool mapping source sourceShape target targetShape = .ok none) :
    CollectionKind.ofDescriptor? targetShape = none := by
  unfold planCollection at h
  split at h
  · assumption
  · obtain ⟨_, -, h⟩ := Except.bind_eq_ok_iff.mp h
    obtain ⟨_, -, h⟩ := Except.bind_eq_ok_iff.mp h
    cases h

/-! ## Bodies -/

/-- A program that answers what a transfer makes of its source. -/
theorem Program.exists_transfer_of_ofExpr {e : Expr} {p : Transfer → Prop}
    (he : e.Readies pool mapping fun code =>
      ∃ t : Transfer, code = t.code (.argument .source) (.argument .destination) ∧ t.Proper ∧ p t)
    {n n' : Nat} {body : Body}
    (hready : (RoutinePlan.program (.ofExpr e)).ready pool mapping n = .ok (body, n')) :
    ∃ t : Transfer, p t ∧
      ∀ invoke frame, body.run invoke frame = (Form.transfer t).run invoke frame := by
  obtain ⟨ready, n₁, hready, heq⟩ := ReadyM.bind_eq_ok_iff.mp hready
  cases heq
  obtain ⟨-, code, n₂, hcode, heq⟩ := Program.ready_eq_ok_iff.mp hready
  cases heq
  obtain ⟨code, n₃, hcode, heq⟩ := ReadyM.bind_eq_ok_iff.mp hcode
  cases heq
  obtain ⟨_, _, hcode', t, rfl, hproper, hp⟩ := he n
  cases hcode.symm.trans hcode'
  exact ⟨t, hp, fun invoke frame => Transfer.run_code hproper _ invoke frame⟩

/-- The program of a converter gives it the source. -/
theorem Mapping.run_of_converterProgram {source target : ShapeId} {program : Program}
    (h : mapping.converterProgram source target = some program) {n n' : Nat} {body : Body}
    (hready : (RoutinePlan.program program).ready pool mapping n = .ok (body, n')) :
    ∃ c, mapping.converters.find? (·.isFor source target) = some c ∧ ∀ invoke frame,
      body.run invoke frame = (Form.transfer (.custom c)).run invoke frame := by
  rcases mapping.converterFor_cases source target with ⟨hnone, -⟩ | ⟨id, c, hid, hc, hfind⟩
  · rw [converterProgram, hnone] at h
    cases h
  · rw [converterProgram, hid] at h
    cases h
    have hreadies : (Expr.convert (.custom id) (.argument .source)).Readies pool mapping
        fun code => ∃ t : Transfer, code = t.code (.argument .source) (.argument .destination) ∧
          t.Proper ∧ t = .custom c :=
      (Expr.readies_custom (fun _ => rfl) hc).mono fun code hcode =>
        ⟨.custom c, hcode, trivial, rfl⟩
    obtain ⟨t, rfl, hrun⟩ := Program.exists_transfer_of_ofExpr hreadies hready
    exact ⟨c, hfind, hrun⟩

include hpool in
/-- The program into a record is run as a form. -/
theorem Mapping.exists_recordForm_of_program {source target : ShapeId}
    {sourceShape targetShape : Descriptor} {program : Program}
    (h : recordProgram pool mapping source sourceShape target targetShape = .ok program)
    {n n' : Nat} {body : Body}
    (hready : (RoutinePlan.program program).ready pool mapping n = .ok (body, n')) :
    ∃ form : RecordForm, (∀ invoke frame, body.run invoke frame = form.run invoke frame) ∧
      form.Made pool mapping source target sourceShape targetShape := by
  obtain ⟨ready, n₁, hready, heq⟩ := ReadyM.bind_eq_ok_iff.mp hready
  cases heq
  obtain ⟨-, code, n₂, hcode, heq⟩ := Program.ready_eq_ok_iff.mp hready
  cases heq
  obtain ⟨form, sourceZero, targetZero, hform, rfl, hcount, hproper⟩ :=
    exists_recordForm_of_ready hpool h hcode
  refine ⟨form, fun invoke frame => ?_, hform⟩
  rw [Body.run, hcount]
  exact form.run_code hproper sourceZero targetZero invoke frame

section

variable {source target : ShapeId} {sourceShape targetShape : Descriptor}

include hpool in
/-- A program that answers one of the ways between the two shapes is run as a form. -/
theorem Program.exists_form_of_ofExpr (ht : pool.Below target target targetShape) {e : Expr}
    (hcollection : ¬targetShape.isCollection = true)
    (hkind : sourceShape.kind = .any ∨ targetShape.kind = .any ∨
      ∃ p, targetShape.kind = .primitive p)
    (he : e.Readies pool mapping (Code.Carries mapping.copyMode source target sourceShape.kind
      targetShape.kind (.argument .source) (.argument .destination)))
    {n n' : Nat} {body : Body}
    (hready : (RoutinePlan.program (.ofExpr e)).ready pool mapping n = .ok (body, n')) :
    ∃ form : Form, (∀ invoke frame, body.run invoke frame = form.run invoke frame) ∧
      form.Made pool mapping source target sourceShape targetShape := by
  obtain ⟨t, hcarries, hrun⟩ := exists_transfer_of_ofExpr
    (he.mono fun code ⟨t, hcode, hcarries⟩ => ⟨t, hcode, hcarries.proper hpool ht, hcarries⟩) hready
  exact ⟨.transfer t, hrun, .transfer (Bool.not_eq_true _ ▸ hcollection) hkind hcarries⟩

/-- The program into the shape `any` answers the source itself, or a copy of it. -/
theorem Mapping.exists_anyProgram (pool : Pool) (mapping : Mapping) (source target : ShapeId)
    (sourceShape : Descriptor) (hany : targetShape.kind = .any) :
    ∃ e, mapping.anyProgram source = .ofExpr e ∧
      e.Readies pool mapping (Code.Carries mapping.copyMode source target sourceShape.kind
        targetShape.kind (.argument .source) (.argument .destination)) := by
  unfold anyProgram
  cases hmode : mapping.copyMode with
  | shallow =>
    exact ⟨_, rfl, Expr.readies_same (fun _ => rfl) (.shared rfl (by simp [hany]) (Or.inr hany))⟩
  | deep =>
    have hdestination (n : Nat) : (Expr.argument .destination).ready pool mapping n =
        .ok (.argument .destination, n) := rfl
    exact ⟨_, rfl, Expr.readies_sent_carries false false (fun _ => rfl) hdestination
      fun t hsent => hsent.carries_any hany⟩

/-- What is planned for a collection is run as a form. -/
theorem Mapping.exists_form_of_planCollection (ht : pool.Below target target targetShape)
    (hcollection : targetShape.isCollection = true) {plan? : Option CollectionPlan}
    (h : planCollection pool mapping source sourceShape target targetShape = .ok plan?)
    {n n' : Nat} {body : Body}
    (hready : (plan?.elim .unresolved RoutinePlan.collection).ready pool mapping n =
      .ok (body, n')) :
    ∃ form : Form, (∀ invoke frame, body.run invoke frame = form.run invoke frame) ∧
      form.Made pool mapping source target sourceShape targetShape := by
  cases plan? with
  | none =>
    cases hready
    exact ⟨.unresolved, fun _ _ => rfl,
      .unresolved hcollection (ofDescriptor?_eq_none_of_planCollection h)⟩
  | some plan =>
    obtain ⟨mapper, n₁, hmapper, hready⟩ := ReadyM.bind_eq_ok_iff.mp hready
    cases hready
    exact ⟨.collection mapper, fun _ _ => rfl,
      .collection (CollectionPlan.for_of_ready ht h hmapper)⟩

include hpool in
/-- The plan for two shapes that are not nullable is run as a form for the two. -/
theorem Mapping.exists_form_of_generatedPlan (hs : pool.Below source source sourceShape)
    (ht : pool.Below target target targetShape) {plan : RoutinePlan}
    (h : generatedPlan pool mapping source target = .ok plan) {n n' : Nat} {body : Body}
    (hready : plan.ready pool mapping n = .ok (body, n')) :
    ∃ form : Form, (∀ invoke frame, body.run invoke frame = form.run invoke frame) ∧
      form.Made pool mapping source target sourceShape targetShape := by
  have harg (n : Nat) : (Expr.argument .source).ready pool mapping n =
      .ok (.argument .source, n) := rfl
  have harg' (n : Nat) : (Expr.argument .destination).ready pool mapping n =
      .ok (.argument .destination, n) := rfl
  unfold generatedPlan at h
  rw [hs.descriptor, ht.descriptor] at h
  replace h : (if targetShape.isCollection then _ else _ : Except CompileError RoutinePlan) =
    .ok plan := h
  split at h
  · rename_i hcollection
    obtain ⟨plan?, hplan, h⟩ := Except.bind_eq_ok_iff.mp h
    have hready' : (plan?.elim .unresolved RoutinePlan.collection).ready pool mapping n =
        .ok (body, n') := by cases plan? <;> cases h <;> exact hready
    exact exists_form_of_planCollection ht hcollection hplan hready'
  rename_i hcollection
  split at h
  · rename_i hany
    cases h
    obtain ⟨e, heq, he⟩ := exists_anyProgram pool mapping source target sourceShape hany
    rw [heq] at hready
    exact Program.exists_form_of_ofExpr hpool ht hcollection (Or.inr (Or.inl hany)) he hready
  · rename_i hsource hne
    cases h
    exact Program.exists_form_of_ofExpr hpool ht hcollection (Or.inl hsource)
      (Expr.readies_sent_carries true false harg harg'
        fun t hsent => hsent.carries_dynamic hpool ht hsource hne) hready
  · rename_i a b ha hb
    have hkind : sourceShape.kind = .any ∨ targetShape.kind = .any ∨
        ∃ p, targetShape.kind = .primitive p := Or.inr (Or.inr ⟨b, hb⟩)
    split at h
    · rename_i hab
      cases h
      exact Program.exists_form_of_ofExpr hpool ht hcollection hkind
        (Expr.readies_same harg (.primitive ha (hab ▸ hb))) hready
    · split at h
      · rename_i hne hcan
        cases h
        exact Program.exists_form_of_ofExpr hpool ht hcollection hkind
          (Expr.readies_convert harg (.convert ha hb hne hcan)) hready
      · cases h
  · cases h
  · rename_i hsource hany hprimitive _
    obtain ⟨program, hprogram, h⟩ := Except.bind_eq_ok_iff.mp h
    cases h
    obtain ⟨form, hrun, hform⟩ := exists_recordForm_of_program hpool hprogram hready
    exact ⟨.record form, hrun,
      .record hsource (ht.kind_eq_record hany hprimitive hcollection) hform⟩

end

include hpool in
/-- The body of a routine is nothing but a converter, or is run as a form for the shapes below the
nullable ones. -/
theorem Mapping.exists_converter_or_form {source target : ShapeId} {body : Body}
    (h : mapping.body pool source target = .ok body) :
    (∃ c ∈ mapping.converters, ∀ invoke frame, body.run invoke frame =
        (Form.transfer (.custom c)).run invoke frame) ∨
      ∃ below sourceShape below' targetShape, pool.Below source below sourceShape ∧
        pool.Below target below' targetShape ∧ ∃ form : Form,
          (∀ invoke frame, body.run invoke frame = form.run invoke frame) ∧
          form.Made pool mapping below below' sourceShape targetShape := by
  obtain ⟨plan, hplan, h⟩ := Except.bind_eq_ok_iff.mp h
  obtain ⟨⟨_, n'⟩, hready, heq⟩ := Except.map_eq_ok_iff.mp h
  cases heq
  unfold Mapping.plan at hplan
  split at hplan
  · rename_i hprogram
    cases hplan
    obtain ⟨c, hc, hrun⟩ := run_of_converterProgram hprogram hready
    exact Or.inl ⟨c, List.mem_of_find?_eq_some hc, hrun⟩
  · obtain ⟨below, hsource, hplan⟩ := Except.bind_eq_ok_iff.mp hplan
    obtain ⟨below', htarget, hplan⟩ := Except.bind_eq_ok_iff.mp hplan
    rw [Pool.orCompileError_eq_ok_iff] at hsource htarget
    split at hplan
    · rename_i hprogram
      cases hplan
      obtain ⟨c, hc, hrun⟩ := run_of_converterProgram hprogram hready
      exact Or.inl ⟨c, List.mem_of_find?_eq_some hc, hrun⟩
    · obtain ⟨sourceShape, hsourceShape, -⟩ :=
        Pool.exists_descriptor_of_stripNullableWithin hsource
      obtain ⟨targetShape, htargetShape, -⟩ :=
        Pool.exists_descriptor_of_stripNullableWithin htarget
      have hs : pool.Below source below sourceShape := ⟨hsource, hsourceShape⟩
      have ht : pool.Below target below' targetShape := ⟨htarget, htargetShape⟩
      exact Or.inr ⟨below, sourceShape, below', targetShape, hs, ht,
        exists_form_of_generatedPlan hpool hs.self ht.self hplan hready⟩

include hpool hconverters in
/-- Without converters, the body of a routine is run as a form. -/
theorem Mapping.exists_form {source target : ShapeId} {body : Body}
    (h : mapping.body pool source target = .ok body) :
    ∃ below sourceShape below' targetShape, pool.Below source below sourceShape ∧
      pool.Below target below' targetShape ∧ ∃ form : Form,
        (∀ invoke frame, body.run invoke frame = form.run invoke frame) ∧
        form.For pool mapping below below' sourceShape targetShape := by
  rcases exists_converter_or_form hpool h with ⟨c, hc, -⟩ | ⟨_, _, _, _, hs, ht, form, hrun, hform⟩
  · rw [hconverters] at hc
    cases hc
  · exact ⟨_, _, _, _, hs, ht, form, hrun, hform.for hconverters⟩

end

/-! ## Origins -/

/-- An instance made from nothing is an object, a sequence, or null where there is none. -/
theorem Template.cases_of_ofShape {pool : Pool} {shape : ShapeId} {known : Descriptor}
    {t : Template}
    (hknown : pool.descriptor shape = .ok known) (htype : known.valueType = false)
    (hconstructor : known.defaultConstructor = true) (h : ofShape pool shape = .ok t) :
    (∃ fields, known.kind = .record ∧ known.members.mapM (fun m => pool.zeroValue m.shape) =
      .ok fields ∧ t = ⟨shape, .object fields⟩) ∨
    (∃ family element, known.kind = .collection family element ∧ t = ⟨shape, .seq⟩) ∨
    known.kind ≠ .record ∧ (∀ family element, known.kind ≠ .collection family element) ∧
      t = ⟨shape, .absent⟩ := by
  unfold ofShape at h
  rw [hknown] at h
  replace h : (if known.valueType then _ else _ : Except ShapeError Template) = _ := h
  rw [if_neg (by simp [htype]), if_neg (by simp [hconstructor])] at h
  split at h
  · rename_i hkind
    obtain ⟨fields, hfields, h⟩ := Except.bind_eq_ok_iff.mp h
    cases h
    exact Or.inl ⟨fields, hkind, hfields, rfl⟩
  · rename_i hkind
    cases h
    exact Or.inr (Or.inl ⟨_, _, hkind, rfl⟩)
  · rename_i hrecord hcollection
    cases h
    exact Or.inr (Or.inr ⟨hrecord, hcollection, rfl⟩)

/-- What comes of an origin of the shape in a heap. -/
inductive Origin.Makes (pool : Pool) (shape : ShapeId) (known : Descriptor) (heap : Heap) :
    Value × Heap → Prop
  | value {zero : Value} (hzero : pool.zeroValue shape = .ok zero) :
    Makes pool shape known heap (heap.box zero)
  | object {fields : List Value} (hkind : known.kind = .record) (htype : known.valueType = false)
    (hfields : known.members.mapM (fun m => pool.zeroValue m.shape) = .ok fields) :
    Makes pool shape known heap (heap.alloc (.object shape fields.toArray))
  | seq {family : Family} {element : Option ShapeId}
    (hkind : known.kind = .collection family element) :
    Makes pool shape known heap (heap.alloc (.seq shape #[]))
  | null : Makes pool shape known heap (.null, heap)

theorem Origin.For.makes {pool : Pool} {shape : ShapeId} {known : Descriptor} {origin : Origin}
    (hknown : pool.descriptor shape = .ok known) (h : origin.For pool shape known) (heap : Heap) :
    Makes pool shape known heap (origin.make heap) := by
  cases h with
  | zero _ hzero => exact .value hzero
  | absent _ _ => exact .null
  | template htype hconstructor ht =>
    rcases Template.cases_of_ofShape hknown htype hconstructor ht with
      ⟨_, hkind, hfields, rfl⟩ | ⟨_, _, hkind, rfl⟩ | ⟨-, -, rfl⟩
    · exact .object hkind htype hfields
    · exact .seq hkind
    · exact .null

theorem Origin.Makes.kept {pool : Pool} {shape : ShapeId} {known : Descriptor} {heap : Heap}
    {made : Value × Heap} (h : Makes pool shape known heap made) : heap.Kept made.2 := by
  cases h with
  | value _ => exact .box heap _
  | object _ _ _ | seq _ => exact .alloc heap _
  | null => exact .refl heap

/-- A reference that an origin makes leads to a new instance of the shape. -/
theorem Origin.Makes.eq_alloc {pool : Pool} {shape : ShapeId} {known : Descriptor} {heap : Heap}
    {made : Value × Heap} (h : Makes pool shape known heap made) {a : Address}
    (ha : made.1 = .ref a) :
    a = ⟨heap.size⟩ ∧ ∃ new, made = heap.alloc new ∧ new.shape = shape := by
  cases h with
  | value hzero =>
    have hwithin := Heap.within_box (Pool.within_of_zeroValue hzero fun _ => False) heap
    rw [ha] at hwithin
    exact (Value.Within.ref.mp hwithin).elim
  | object _ _ _ | seq _ =>
    cases ha
    exact ⟨rfl, _, rfl, rfl⟩
  | null => cases ha

/-- A collection made from nothing is empty. -/
theorem Origin.For.make_eq_alloc {pool : Pool} {shape : ShapeId} {known : Descriptor}
    {origin : Origin} (h : origin.For pool shape known) (hknown : pool.descriptor shape = .ok known)
    (htype : known.valueType = false) (hconstructor : known.defaultConstructor = true)
    {family : Family} {element : Option ShapeId} (hkind : known.kind = .collection family element) :
    origin.make = Heap.alloc (.seq shape #[]) := by
  cases h with
  | zero htype' _ => cases htype.symm.trans htype'
  | absent _ hconstructor' => cases hconstructor.symm.trans hconstructor'
  | template _ _ ht =>
    rcases Template.cases_of_ofShape hknown htype hconstructor ht with
      ⟨_, hkind', -⟩ | ⟨_, _, -, rfl⟩ | ⟨-, hkind', -⟩
    · cases hkind.symm.trans hkind'
    · rfl
    · exact absurd hkind (hkind' _ _)

/-- The program of the mapper makes an empty container. -/
def CollectionMapper.MakesEmpty (mapper : CollectionMapper) (shape : ShapeId) : Prop :=
  ∃ program, mapper.construct = some program ∧
    ∀ invoke frame, program.run invoke frame = RunM.onHeap (Heap.alloc (.seq shape #[]))

/-- Where no container is supplied, one is made. -/
theorem CollectionMapper.container?_of_sequenceAt?_eq_none {mapper : CollectionMapper}
    {invoke : Invoke} {frame : Frame} {s : Session}
    (h : sequenceAt? s.heap mapper.target frame.destination = none) :
    mapper.container? invoke frame s = mapper.newContainer? invoke frame s := by
  unfold container?
  rw [get_bind, h]

/-- Where no sequence is supplied, an empty one is made at the next address. -/
theorem CollectionMapper.MakesEmpty.container?_eq_ok {mapper : CollectionMapper} {shape : ShapeId}
    (h : mapper.MakesEmpty shape) (invoke : Invoke) {frame : Frame} {s : Session}
    (hnone : sequenceAt? s.heap mapper.target frame.destination = none) :
    mapper.container? invoke frame s =
      .ok (some ⟨s.heap.size⟩) { s with heap := (s.heap.alloc (.seq shape #[])).2 } := by
  obtain ⟨program, hprogram, hrun⟩ := h
  have hnew : mapper.newContainer? invoke frame s =
      .ok (some ⟨s.heap.size⟩) { s with heap := (s.heap.alloc (.seq shape #[])).2 } := by
    unfold newContainer?
    rw [hprogram]
    dsimp only
    rw [hrun]
    have hget : (s.heap.alloc (.seq shape #[])).2.instance? (.ref ⟨s.heap.size⟩) =
        some (.seq shape #[]) := Heap.get?_alloc_size s.heap (.seq shape #[])
    have hmade : RunM.onHeap (Heap.alloc (.seq shape #[])) s = .ok (.ref ⟨s.heap.size⟩)
        { s with heap := (s.heap.alloc (.seq shape #[])).2 } := rfl
    refine (bind_of_eq_ok hmade).trans ((get_bind _ _).trans ?_)
    rw [hget]
    rfl
  rw [container?_of_sequenceAt?_eq_none hnone, hnew]

end Reshape
