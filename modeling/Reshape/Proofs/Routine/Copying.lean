import Reshape.Proofs.Routine.Compilable
import Reshape.Proofs.Session.Live
import Reshape.Proofs.Routine.Contract
import Reshape.Proofs.Routine.Image
import Reshape.Proofs.Value.Draft
import Reshape.Proofs.Value.Plain

/-!
# Making copies

Under a standard mapping and in a copyable pool, a routine that is run on a plain value makes a copy
of it, and changes no instance that was there before. `CopiesWithin` says that this is so for runs
of some depth. Transfers (`Transfer.makes`), records (`RecordForm.makes`) and collections
(`CollectionMapper.makes`) make copies if the routines for their parts do.

A record that is being filled stands to its source as `RecordPair` says : the members that are
written are copies, and those that are not yet written hold zero values, which may be filled in
turn.
-/

set_option linter.unusedSectionVars false

namespace Reshape

/-! ## What copies are made with -/

/-- What copies are made with : a copyable pool, and standard mappings of an id. -/
structure Copier (mappings : Mapping → Prop) (id : MappingId) (pool : Pool) : Prop where
  grows : Pool.initial.GrowsTo pool
  copyable : pool.Copyable
  standard : ∀ m, mappings m → m.id = id → m.Standard

section

variable {mappings : Mapping → Prop} {id : MappingId} {pool : Pool} {start : Heap} {s : Session}
  {r : Routine} (hc : Copier mappings id pool) (hs : s.Holds mappings pool start)
  (hr : r.Live id s) {source target below : ShapeId} {known : Descriptor}

include hc hs hr

theorem Routine.Live.exists_body (hb : pool.Below source below known)
    (hincludes : pool.Includes source target) :
    ∃ body, r.linkage.mapping.body s.pool source target = .ok body := by
  obtain ⟨_, _, -, -, hmapping, hid, -⟩ := hr.exists_owner hs
  rw [hs.pool_eq]
  exact (hc.standard _ hmapping hid).exists_body hc.copyable hc.grows hb hincludes

theorem Routine.Live.resolveDynamic (hb : pool.Below source below known)
    (hincludes : pool.Includes source target) :
    Succeeds (Session.resolveDynamic r.linkage source target) s
      (s.FindsLive mappings id source target) := by
  obtain ⟨owner, howned, -, -, hmapping, -, -⟩ := hr.exists_owner hs
  refine (Succeeds.of_ensures (Session.resolveDynamic_finds howned source target hmapping)
    (Session.exists_resolveDynamic hr.alive (hr.exists_body hc hs hb hincludes))).mono ?_
  exact fun r' s' h => hr.of_finds hs h

theorem Routine.Live.resolve {link : Link} (hb : pool.Below link.source below known)
    (hincludes : pool.Includes link.source link.target) :
    Succeeds (Session.resolve r.linkage link) s
      (s.FindsLive mappings id link.source link.target) := by
  obtain ⟨owner, howned, hlt, howner, -, -, -⟩ := hr.exists_owner hs
  refine (Succeeds.of_ensures (Session.resolve_finds howned link hlt howner)
    (Session.exists_resolve hr.alive (hr.exists_body hc hs hb hincludes))).mono ?_
  exact fun r' s' h => hr.of_finds hs h

end

/-! ## Runs that make copies -/

/-- The value refers to nothing, and conforms to the shape. -/
def Value.Blank (pool : Pool) (v : Value) (place : ShapeId) : Prop :=
  v.Fits pool (fun _ _ => False) place

/-- A place of the shape does not take values of all shapes. -/
def Pool.Specific (pool : Pool) (place : ShapeId) : Prop :=
  ∃ below known, pool.Below place below known ∧ known.kind ≠ .any

/-- From the session, the computation leads to a copy of the value in new instances. -/
def Makes (mappings : Mapping → Prop) (start : Heap) (s : Session) (v : Value) (x : RunM Value) :
    Prop :=
  Succeeds x s fun w s' => s.Precedes mappings s' ∧ start.Copied s'.heap s.heap.size w v

/-- Run to the depth, the routines for the value make copies of it, if the shape that they lead to
is one of the targets. -/
def CopiesWithin (mappings : Mapping → Prop) (id : MappingId) (pool : Pool) (start : Heap)
    (state : Value) (targets : ShapeId → Prop) (depth : Nat) (v : Value) : Prop :=
  ∀ (s : Session) (r : Routine) (d : Value), s.Holds mappings pool start → r.Live id s →
    start.Plain pool v r.key.source → pool.Includes r.key.source r.key.target →
    targets r.key.target → d.Blank pool r.key.target →
    Makes mappings start s v (r.run depth v d state)

theorem Pool.Takes.includes {pool : Pool} {place own : ShapeId} {known : Descriptor}
    (h : pool.Takes place own) (hb : pool.Below own own known) : pool.Includes own place := by
  obtain ⟨below, known', hb', hcase⟩ := h
  refine ⟨below, known', hb', hcase.imp_right ?_⟩
  rintro rfl
  exact hb'.self

theorem Pool.Below.includes_self {pool : Pool} {place below : ShapeId} {known : Descriptor}
    (hb : pool.Below place below known) : pool.Includes place place :=
  ⟨below, known, hb, Or.inr hb⟩

section

variable {mappings : Mapping → Prop} {id : MappingId} {pool : Pool} {start : Heap} {s : Session}
  {r : Routine} {v : Value}

namespace Makes

theorem null (h : s.Coherent mappings) : Makes mappings start s .null (return .null) :=
  Succeeds.pure ⟨.refl h, .null⟩

/-- A copy that is stored in place is a copy. -/
theorem placed {x : RunM Value} (h : Makes mappings start s v x) (inline : Bool) :
    Makes mappings start s v (Transfer.placed inline <$> x) := by
  refine Succeeds.map (h.mono fun w s' hw => ⟨hw.1, ?_⟩)
  cases inline with
  | false => exact hw.2
  | true => exact hw.2.unboxed

/-- A copy that is made once something else has been done. -/
theorem after {s' : Session} {x : RunM Value} (hl : s.Precedes mappings s')
    (h : Makes mappings start s' v x) :
    Succeeds x s' fun w s'' => s.Precedes mappings s'' ∧ start.Copied s''.heap s.heap.size w v := by
  refine h.mono fun w s'' hw => ⟨hl.trans hw.1, hw.2.mono hl.kept.size_le fun _ _ _ h => h⟩

end Makes

variable (hc : Copier mappings id pool) (hs : s.Holds mappings pool start) (hr : r.Live id s)
  {frame : Frame} (hlinkage : frame.linkage = r.linkage) {depth : Nat} {targets : ShapeId → Prop}

include hc hs hr hlinkage

/-- The routine that a link leads to makes a copy. -/
theorem Transfer.byLink_makes {link : Link} {value current : RunM Value} {d : Value}
    (hvalue : value s = .ok v s) (hcurrent : current s = .ok d s)
    (hv : start.Plain pool v link.source) (hincludes : pool.Includes link.source link.target)
    (htarget : targets link.target) (hd : d.Blank pool link.target)
    (hcopies : CopiesWithin mappings id pool start frame.state targets depth v) :
    Makes mappings start s v (byLink (Routine.run depth) frame link value current) := by
  refine Succeeds.bind_ok hvalue ?_
  by_cases hnull : v = .null
  · subst hnull
    exact Makes.null hs.coherent
  · rw [if_neg (by simpa using hnull)]
    obtain ⟨own, known, -, ⟨below, known', hb, -⟩, -⟩ := hv.exists_own hc.grows hnull
    refine Succeeds.bind_ok hcurrent (Succeeds.bind ?_)
    rw [hlinkage]
    refine (hr.resolve hc hs hb hincludes).mono ?_
    rintro r' s' ⟨hl, hheap, hr', hsource, htarget'⟩
    refine Makes.after hl (hcopies s' r' d (hs.precedes hl) hr' ?_ ?_ ?_ ?_)
    · rwa [hsource]
    · rwa [hsource, htarget']
    · rwa [htarget']
    · rwa [htarget']

/-- The routine for the shape of the value makes a copy. -/
theorem Transfer.byShape_makes {place : ShapeId} {target : Option ShapeId}
    {value current : RunM Value}
    {d : Value} (hvalue : value s = .ok v s) (hcurrent : current s = .ok d s)
    (hv : start.Plain pool v place)
    (htarget : ∀ own known, pool.Below own own known → known.kind ≠ .any → pool.Takes place own →
      pool.Takes (target.getD own) own ∧ targets (target.getD own) ∧ d.Blank pool (target.getD own))
    (hcopies : CopiesWithin mappings id pool start frame.state targets depth v) :
    Makes mappings start s v (byShape (Routine.run depth) frame target value current) := by
  refine Succeeds.bind_ok hvalue (.of_eq (get_bind _ s) ?_)
  by_cases hnull : v = .null
  · subst hnull
    exact Makes.null hs.coherent
  · obtain ⟨own, known, hshape, htakes, hb, hany, hown⟩ := hv.exists_own hc.grows hnull
    obtain ⟨htakes, htarget, hd⟩ := htarget own known hb hany htakes
    rw [hs.kept.shape?_eq hshape]
    refine Succeeds.bind_ok hcurrent (Succeeds.bind ?_)
    rw [hlinkage]
    refine (hr.resolveDynamic hc hs hb (htakes.includes hb)).mono ?_
    rintro r' s' ⟨hl, hheap, hr', hsource, htarget'⟩
    refine Makes.after hl (hcopies s' r' d (hs.precedes hl) hr' ?_ ?_ ?_ ?_)
    · rwa [hsource]
    · rw [hsource, htarget']
      exact htakes.includes hb
    · rwa [htarget']
    · rwa [htarget']

/-- A transfer from one shape into one that takes as much makes a copy. -/
theorem Transfer.makes {t : Transfer} {source target : ShapeId} {value current : RunM Value}
    {d : Value} (ht : t.Between pool .deep source target) (hincludes : pool.Includes source target)
    (hvalue : value s = .ok v s) (hcurrent : current s = .ok d s)
    (hv : start.Plain pool v source) (hd : d.Blank pool target)
    (hcopies : CopiesWithin mappings id pool start frame.state pool.Specific depth v) :
    Makes mappings start s v (t.run (Routine.run depth) frame value current) := by
  obtain ⟨below, known, below', known', hb, hb', hcarries⟩ := ht
  have hself (hany : known'.kind ≠ .any) : below = below' ∧ known = known' := by
    obtain ⟨_, _, ht, hcase⟩ := hincludes
    obtain ⟨rfl, rfl⟩ := hb'.unique ht
    obtain ⟨rfl, rfl⟩ := hb.unique (hcase.resolve_left hany)
    exact ⟨rfl, rfl⟩
  have hv' : start.Plain pool v below := (Heap.Plain.below_iff hb).mpr hv
  have hnull (place : ShapeId) : Value.null.Blank pool place := .null
  cases hcarries with
  | primitive hsource _ => exact ⟨v, s, hvalue, .refl hs.coherent, .self hb hsource hv⟩
  | convert hsource htarget hne _ =>
    obtain ⟨-, rfl⟩ := hself (by simp [htarget])
    exact absurd (Kind.primitive.inj (hsource.symm.trans htarget)) hne
  | shared hmode _ _ => cases hmode
  | dynamic hsource hany =>
    obtain ⟨-, rfl⟩ := hself hany
    exact absurd hsource hany
  | @linked _ reuse inline hsource hany _ =>
    obtain ⟨rfl, -⟩ := hself hany
    have hd' : d.Blank pool below := (Value.Fits.below_iff hb').mpr hd
    obtain ⟨d', hcurrent', hd'⟩ :
        ∃ d', reused reuse current s = .ok d' s ∧ d'.Blank pool below := by
      cases reuse with
      | true => exact ⟨d, hcurrent, hd'⟩
      | false => exact ⟨.null, rfl, hnull below⟩
    exact (byLink_makes hc hs hr hlinkage hvalue hcurrent' hv' hb'.self.includes_self
      ⟨_, _, hb'.self, hany⟩ hd' hcopies).placed inline
  | @copied _ inline hsource _ =>
    have hany : known.kind ≠ .any := fun hany => hsource (hc.copyable.any _ _ hb.descriptor hany)
    exact (byLink_makes hc hs hr hlinkage hvalue rfl hv' hb.self.includes_self
      ⟨_, _, hb.self, hany⟩ (hnull _) hcopies).placed inline
  | @copiedByShape inline _ _ =>
    have hmade : Makes mappings start s v (byShape (Routine.run depth) frame none value
        (reused false current)) := by
      refine byShape_makes hc hs hr hlinkage hvalue rfl hv ?_ hcopies
      exact fun own known hb hany _ => ⟨⟨_, _, hb, Or.inr rfl⟩, ⟨_, _, hb, hany⟩, hnull own⟩
    exact hmade.placed inline

end

/-! ## Records that are being filled -/

/-- A record with these fields is to become a copy of a record with the values `vs`. What goes into
it may be made of instances from the last number on. -/
inductive RecordPair (start first heap : Heap) (shape : ShapeId) (vs : List Value) :
    Value → Value → List Value → Nat → Prop
  | struct {v : Value} {fields : List Value} (hv : v.bare = .struct shape vs) :
    RecordPair start first heap shape vs v (.struct shape fields) fields first.size
  | object {a b : Address} {fields : List Value}
    (hb : start.get? b = some (.object shape vs.toArray)) (hbound : first.size ≤ a.index)
    (ha : heap.get? a = some (.object shape fields.toArray)) :
    RecordPair start first heap shape vs (.ref b) (.ref a) fields (a.index + 1)

/-- The members before the number are copies, and those from it on hold zero values. -/
structure Filling (pool : Pool) (start first heap : Heap) (shape : ShapeId) (members : List Member)
    (vs : List Value) (v record : Value) (number : Nat) (fields : List Value) (bound : Nat) :
    Prop where
  pair : RecordPair start first heap shape vs v record fields bound
  length : fields.length = members.length
  copied : ∀ (i : Nat) (w v : Value), i < number → fields[i]? = some w → vs[i]? = some v →
    start.Copied heap bound w v
  blank : ∀ (i : Nat) (w : Value) (m : Member), number ≤ i → fields[i]? = some w →
    members[i]? = some m → w.Blank pool m.shape

section

variable {pool : Pool} {start first heap heap' : Heap} {shape : ShapeId} {members : List Member}
  {vs : List Value} {v record : Value} {number : Nat} {fields : List Value} {bound : Nat}

namespace RecordPair

/-- The record that is copied shows what it showed at the start. -/
theorem source (h : RecordPair start first heap shape vs v record fields bound)
    (hk : start.Kept heap') :
    heap'.shape? v.unboxed = some shape ∧ ∀ i, heap'.member? v.unboxed i = vs[i]? := by
  cases h with
  | struct hv =>
    rw [← Value.bare_unboxed] at hv
    refine ⟨?_, fun i => ?_⟩
    · rw [← Heap.shape?_bare, hv]
      rfl
    · rw [← Heap.member?_bare, hv]
      rfl
  | object hb _ _ =>
    refine ⟨?_, fun i => ?_⟩
    · exact congrArg (Option.map Instance.shape) (hk _ _ hb)
    · change heap'.member? (.ref _) i = _
      rw [Heap.member?_ref, hk _ _ hb]
      exact List.getElem?_toArray

/-- The copy is in the making, and may be any record in the making of the same kind. -/
theorem draft (h : RecordPair start first heap shape vs v record fields bound) :
    ∃ inPlace, first.Draft heap shape inPlace record fields bound ∧
      ∀ {heap' : Heap} {record' : Value} {fields' : List Value} {bound' : Nat},
        first.Draft heap' shape inPlace record' fields' bound' →
          RecordPair start first heap' shape vs v record' fields' bound' := by
  cases h with
  | struct hv =>
    refine ⟨true, .struct, fun h => ?_⟩
    cases h
    exact .struct hv
  | object hb hbound ha =>
    refine ⟨false, .object hbound ha, fun h => ?_⟩
    cases h with
    | object hbound ha => exact .object hb hbound ha

theorem target (h : RecordPair start first heap shape vs v record fields bound) :
    heap.shape? record = some shape ∧ ∀ i, heap.member? record i = fields[i]? := by
  obtain ⟨_, hdraft, -⟩ := h.draft
  exact hdraft.target

theorem bound_le (h : RecordPair start first heap shape vs v record fields bound)
    (hk : first.Kept heap) : bound ≤ heap.size := by
  obtain ⟨_, hdraft, -⟩ := h.draft
  exact hdraft.bound_le hk

theorem later (h : RecordPair start first heap shape vs v record fields bound)
    (hk : heap.Kept heap') : RecordPair start first heap' shape vs v record fields bound := by
  obtain ⟨_, hdraft, hpair⟩ := h.draft
  exact hpair (hdraft.later hk)

/-- To write a member changes nothing but the record. -/
theorem write (h : RecordPair start first heap shape vs v record fields bound) (i : Nat)
    (w : Value) :
    RecordPair start first (heap.writeMember record i w).2 shape vs v
        (heap.writeMember record i w).1 (fields.set i w) bound ∧
      (∀ a j, bound ≤ a.index → heap.get? a = some j →
        (heap.writeMember record i w).2.get? a = some j) ∧
      (first.Kept heap → first.Kept (heap.writeMember record i w).2) := by
  obtain ⟨_, hdraft, hpair⟩ := h.draft
  obtain ⟨hdraft', hget, hkept⟩ := hdraft.write i w
  exact ⟨hpair hdraft', hget, hkept⟩

/-- A record whose fields are copies is a copy. -/
theorem copied (h : RecordPair start first heap shape vs v record fields bound)
    (hlength : fields.length = vs.length)
    (hfields : ∀ (i : Nat) (w v : Value), fields[i]? = some w → vs[i]? = some v →
      start.Copied heap bound w v) : start.Copied heap first.size record v := by
  cases h with
  | struct hv => exact .struct rfl hv hlength hfields
  | @object a b _ hb hbound ha =>
    have ha' : heap.get? a =
        some ((Instance.object shape vs.toArray).mapContents fun _ => fields.toArray) := ha
    have hsize : fields.toArray.size = (Instance.object shape vs.toArray).contents.size := by
      simpa [Instance.contents] using hlength
    refine .ref hbound ha' hb nofun hsize fun k w v hw hv => ?_
    have hle : first.size ≤ a.index + 1 := Nat.le_succ_of_le hbound
    refine (hfields k w v ?_ ?_).mono hle fun _ _ _ h => h
    · simpa using hw
    · simpa [Instance.contents] using hv

end RecordPair

namespace Filling

theorem later (h : Filling pool start first heap shape members vs v record number fields bound)
    (hk : heap.Kept heap') :
    Filling pool start first heap' shape members vs v record number fields bound :=
  ⟨h.pair.later hk, h.length, fun i w v hi hw hv => (h.copied i w v hi hw hv).kept hk, h.blank⟩

/-- The next member is written. -/
theorem write (h : Filling pool start first heap shape members vs v record number fields bound)
    {w u : Value} (hu : vs[number]? = some u) (hw : start.Copied heap bound w u) :
    Filling pool start first (heap.writeMember record number w).2 shape members vs v
      (heap.writeMember record number w).1 (number + 1) (fields.set number w) bound := by
  obtain ⟨hpair, hget, -⟩ := h.pair.write number w
  refine ⟨hpair, (List.length_set ..).trans h.length, fun i w' u' hi hw' hu' => ?_,
    fun i w' m hi hw' hm => ?_⟩
  · refine Heap.Copied.mono (Nat.le_refl _) hget ?_
    rw [List.getElem?_set] at hw'
    split at hw'
    · rename_i heq
      subst heq
      obtain rfl := Option.some.inj (hu.symm.trans hu')
      split at hw'
      · exact Option.some.inj hw' ▸ hw
      · cases hw'
    · rename_i hne
      exact h.copied i w' u' (by omega) hw' hu'
  · rw [List.getElem?_set_ne (by omega)] at hw'
    exact h.blank i w' m (by omega) hw' hm

end Filling

end

/-- A plain record is a struct or an object with a plain value for each member. -/
theorem Heap.Plain.record_cases {pool : Pool} (hpool : Pool.initial.GrowsTo pool) {heap : Heap}
    {v : Value} {shape : ShapeId} {known : Descriptor} (hb : pool.Below shape shape known)
    (hkind : known.kind = .record)
    (h : heap.Plain pool v shape) (hnull : v ≠ .null) : ∃ vs : List Value,
      vs.length = known.members.length ∧ (∀ (i : Nat) (w : Value) (m : Member), vs[i]? = some w →
        known.members[i]? = some m → heap.Plain pool w m.shape) ∧
      (known.valueType = true ∧ v.bare = .struct shape vs ∨ known.valueType = false ∧
        ∃ a, v = .ref a ∧ heap.get? a = some (.object shape vs.toArray)) := by
  have hany : known.kind ≠ .any := by simp [hkind]
  cases h with
  | null => exact absurd rfl hnull
  | @primitive p _ _ hv hp _ =>
    obtain rfl := hp.eq hb hany
    obtain ⟨-, rfl⟩ := (Pool.Below.of_primitive hpool p).unique hb
    cases hkind
  | struct hv hp hs _ htype hlength hfields =>
    obtain rfl := hp.eq hb hany
    obtain rfl := Except.ok.inj (hs.symm.trans hb.descriptor)
    exact ⟨_, hlength, hfields, Or.inl ⟨htype, hv⟩⟩
  | @object a _ fields _ _ ha hp hs _ htype hlength hfields =>
    obtain rfl := hp.eq hb hany
    obtain rfl := Except.ok.inj (hs.symm.trans hb.descriptor)
    refine ⟨fields.toList, hlength, fun i w m hw hm => hfields i w m ?_ hm,
      Or.inr ⟨htype, a, rfl, ha⟩⟩
    rwa [Array.getElem?_toList] at hw
  | seq ha hp hs hkind' _ _ =>
    obtain rfl := hp.eq hb hany
    obtain rfl := Except.ok.inj (hs.symm.trans hb.descriptor)
    cases hkind.symm.trans hkind'

/-- A blank record is a struct with a blank value for each member, or null. -/
theorem Value.Blank.record_cases {pool : Pool} {d : Value} {shape : ShapeId} {known : Descriptor}
    (hb : pool.Below shape shape known) (hkind : known.kind = .record) (h : d.Blank pool shape)
    (hnull : d ≠ .null) : known.valueType = true ∧ ∃ fields, d.unboxed = .struct shape fields ∧
      fields.length = known.members.length ∧ ∀ (i : Nat) (w : Value) (m : Member),
        fields[i]? = some w → known.members[i]? = some m → w.Blank pool m.shape := by
  have hany : known.kind ≠ .any := by simp [hkind]
  have hprimitive {p : Primitive} (hp : pool.TakesPrimitive shape p) : False := by
    obtain ⟨_, _, hb', hcase⟩ := hp
    obtain ⟨rfl, rfl⟩ := hb.unique hb'
    simp [hkind] at hcase
  have hstruct {own : ShapeId} {fields : List Value}
      (h : (Value.struct own fields).Blank pool shape) : known.valueType = true ∧ own = shape ∧
        fields.length = known.members.length ∧ ∀ (i : Nat) (w : Value) (m : Member),
          fields[i]? = some w → known.members[i]? = some m → w.Blank pool m.shape := by
    cases h with
    | primitive hv hp => exact (hprimitive hp).elim
    | struct hp hs _ htype hlength hfields =>
      obtain rfl := hp.eq hb hany
      obtain rfl := Except.ok.inj (hs.symm.trans hb.descriptor)
      exact ⟨htype, rfl, hlength, hfields⟩
  have hcontent {content : Value} (hc : content.IsContent) (h : content.Blank pool shape) :
      ∃ own fields, content = .struct own fields := by
    cases h with
    | null | boxed _ _ | ref _ _ => exact hc.elim
    | primitive _ hp => exact (hprimitive hp).elim
    | struct _ _ _ _ _ _ => exact ⟨_, _, rfl⟩
  obtain ⟨own, fields, hd, hblank⟩ : ∃ own fields, d.unboxed = .struct own fields ∧
      (Value.struct own fields).Blank pool shape := by
    have hunboxed : d.unboxed.Blank pool shape := Value.Fits.unboxed h
    cases h with
    | null => exact absurd rfl hnull
    | primitive _ hp => exact (hprimitive hp).elim
    | ref ha _ => exact ha.elim
    | struct _ _ _ _ _ _ => exact ⟨_, _, rfl, hunboxed⟩
    | boxed hc _ =>
      obtain ⟨own, fields, heq⟩ := hcontent hc hunboxed
      exact ⟨own, fields, heq, heq ▸ hunboxed⟩
  obtain ⟨htype, rfl, hlength, hfields⟩ := hstruct hblank
  exact ⟨htype, fields, hd, hlength, hfields⟩

section

variable {mappings : Mapping → Prop} {id : MappingId} {pool : Pool} {start : Heap}
  {first s : Session}
  {r : Routine} (hc : Copier mappings id pool) (hs : first.Holds mappings pool start)
  (hr : r.Live id first) {frame : Frame} (hlinkage : frame.linkage = r.linkage) {depth : Nat}
  {m : Mapping} (hm : m.Standard) {shape : ShapeId} {known : Descriptor} {form : RecordForm}
  (hform : form.For pool m shape shape known known) {vs : List Value}
  (hlength : vs.length = known.members.length)
  (hplain : ∀ (i : Nat) (v : Value) (m : Member), vs[i]? = some v → known.members[i]? = some m →
    start.Plain pool v m.shape)
  (hcopies : ∀ v ∈ vs, CopiesWithin mappings id pool start frame.state pool.Specific depth v)

include hc hs hr hlinkage hm hform hlength hplain hcopies

/-- One more member is filled. -/
theorem RecordForm.fill_makes {v record : Value} {number : Nat} {fields : List Value} {bound : Nat}
    {m' : MemberTransfer} (hm' : m' ∈ form.members) (hpair : m'.pair = ⟨number, number⟩)
    (hl : first.Precedes mappings s)
    (h : Filling pool start first.heap s.heap shape known.members vs v record number fields bound) :
    Succeeds (form.fill (Routine.run depth) frame v.unboxed record m') s fun record s' =>
      first.Precedes mappings s' ∧ ∃ fields, Filling pool start first.heap s'.heap shape
        known.members vs v record (number + 1) fields bound := by
  have hs₁ := hs.precedes hl
  obtain ⟨member, member', hmember, hmember', hbetween⟩ := hform.members m' hm'
  rw [hpair] at hmember hmember'
  obtain rfl := Option.some.inj (hmember.symm.trans hmember')
  rw [hm.copyMode] at hbetween
  have hlt := (List.getElem?_eq_some_iff.mp hmember).1
  obtain ⟨u, hu⟩ : ∃ u, vs[number]? = some u := ⟨_, List.getElem?_eq_getElem (hlength ▸ hlt)⟩
  obtain ⟨f, hf⟩ : ∃ f, fields[number]? = some f := ⟨_, List.getElem?_eq_getElem (h.length ▸ hlt)⟩
  obtain ⟨hshape, hread⟩ := h.pair.source hs₁.kept
  obtain ⟨hshape', hread'⟩ := h.pair.target
  have hvalue : RunM.readMember v.unboxed form.source m'.pair.source s = .ok u s := by
    rw [hform.source_eq, hpair, RunM.readMember_eq_ok number hshape, hread, hu]
    rfl
  have hcurrent : RunM.readMember record form.target m'.pair.destination s = .ok f s := by
    rw [hform.target_eq, hpair, RunM.readMember_eq_ok number hshape', hread', hf]
    rfl
  have hbelow := hbetween
  obtain ⟨_, _, _, _, hb, -, -⟩ := hbelow
  have hmade := Transfer.makes hc hs₁ (hr.precedes hl) hlinkage hbetween hb.includes_self hvalue
    hcurrent (hplain number u member hu hmember)
    (h.blank number f member (Nat.le_refl _) hf hmember)
    (hcopies u (List.mem_of_getElem? hu))
  refine Succeeds.bind (hmade.mono ?_)
  rintro w s' ⟨hl', hw⟩
  have h' := h.later hl'.kept
  have hw' : start.Copied s'.heap bound w u := hw.mono (h.pair.bound_le hl.kept) fun _ _ _ h => h
  rw [hpair]
  refine ⟨_, _, rfl, ?_, _, h'.write hu hw'⟩
  exact (hl.trans hl').withHeap ((h'.pair.write number w).2.2 (hl.kept.trans hl'.kept))

/-- All members that are left are filled. -/
theorem RecordForm.fillAll_makes {v record : Value} {number : Nat} {fields : List Value}
    {bound : Nat}
    {members : List MemberTransfer} (hmembers : members ⊆ form.members)
    (hpairs : members.map MemberTransfer.pair =
      (List.range' number members.length).map fun i => ⟨i, i⟩)
    (hl : first.Precedes mappings s)
    (h : Filling pool start first.heap s.heap shape known.members vs v record number fields bound) :
    Succeeds (form.fillAll (Routine.run depth) frame v.unboxed record members) s fun record s' =>
      first.Precedes mappings s' ∧ ∃ fields, Filling pool start first.heap s'.heap shape
        known.members vs v record (number + members.length) fields bound := by
  induction members generalizing s record number fields with
  | nil => exact Succeeds.pure ⟨hl, fields, h⟩
  | cons m' members ih =>
    rw [List.length_cons, List.range'_succ, List.map_cons, List.map_cons] at hpairs
    obtain ⟨hpair, hpairs⟩ := List.cons.inj hpairs
    have hone := RecordForm.fill_makes hc hs hr hlinkage hm hform hlength hplain hcopies
      (hmembers List.mem_cons_self) hpair hl h
    rw [RecordForm.fillAll_cons]
    refine Succeeds.bind (hone.mono ?_)
    rintro record s' ⟨hl', fields, h'⟩
    rw [List.length_cons, Nat.add_comm members.length, ← Nat.add_assoc]
    exact ih (fun _ h => hmembers (List.mem_cons_of_mem _ h)) hpairs hl' h'

variable (hb : pool.Below shape shape known) (hkind : known.kind = .record)

include hb hkind

/-- The record that is supplied or made has no members written yet. -/
theorem RecordForm.destination_fills {v : Value}
    (hv : known.valueType = true ∧ v.bare = .struct shape vs ∨ known.valueType = false ∧
      ∃ a, v = .ref a ∧ start.get? a = some (.object shape vs.toArray))
    (hd : frame.destination.Blank pool shape) :
    Succeeds (form.destination frame) first fun record s' => first.Precedes mappings s' ∧
      ∃ fields bound, Filling pool start first.heap s'.heap shape known.members vs v
        record.unboxed 0 fields bound := by
  have hstruct {d : Value} {heap : Heap} (hd : d.Blank pool shape) (hnull : d ≠ .null) :
      ∃ fields bound, Filling pool start first.heap heap shape known.members vs v d.unboxed 0 fields
        bound := by
    obtain ⟨htype, fields, heq, hlength, hfields⟩ := hd.record_cases hb hkind hnull
    rcases hv with ⟨-, hv⟩ | ⟨htype', -⟩
    · rw [heq]
      refine ⟨fields, _, .struct hv, hlength, fun i w v hi => absurd hi (Nat.not_lt_zero i), ?_⟩
      exact fun i w m _ => hfields i w m
    · cases htype.symm.trans htype'
  have hrefl := Session.Precedes.refl hs.coherent
  unfold RecordForm.destination
  by_cases hnull : frame.destination = .null
  · rw [if_pos (by simpa using hnull)]
    have horigin := hform.origin
    generalize form.origin = origin at horigin
    cases horigin with
    | @zero zero htype hzero =>
      refine ⟨_, _, rfl, hrefl.withHeap (.box _ _), ?_⟩
      change ∃ fields bound, Filling pool start first.heap (first.heap.box zero).2 shape
        known.members vs v (first.heap.box zero).1.unboxed 0 fields bound
      rw [Heap.unboxed_box]
      have hblank : zero.Blank pool shape := Pool.fits_of_zeroValue hzero _
      obtain ⟨_, rfl, -⟩ := Pool.zeroValue_struct hb.descriptor hkind htype hzero
      exact hstruct hblank nofun
    | absent htype hconstructor =>
      rcases hc.copyable.record _ _ hb.descriptor hkind with h | h
      · cases htype.symm.trans h
      · cases hconstructor.symm.trans h
    | @template t htype hconstructor ht =>
      rcases Template.cases_of_ofShape hb.descriptor htype hconstructor ht with
        ⟨fields, -, hfields, rfl⟩ | ⟨_, _, hkind', -⟩ | ⟨hkind', -⟩
      · obtain ⟨hlength', -, hzero⟩ := Pool.of_mapM_zeroValue hfields
        rcases hv with ⟨htype', -⟩ | ⟨-, a, rfl, ha⟩
        · cases htype.symm.trans htype'
        · refine ⟨_, _, rfl, hrefl.withHeap (.alloc _ _), fields, _,
            .object ha (Nat.le_refl _) (Heap.get?_alloc_size _ _), hlength', ?_, ?_⟩
          · exact fun i w v hi => absurd hi (Nat.not_lt_zero i)
          · exact fun i w m _ hw hm => hzero i w m hw hm _
      · cases hkind.symm.trans hkind'
      · exact absurd hkind hkind'
  · rw [if_neg (by simpa using hnull)]
    exact Succeeds.pure ⟨hrefl, hstruct hd hnull⟩

/-- A record is copied, if its members are. -/
theorem RecordForm.makes
    (hv : known.valueType = true ∧ frame.source.bare = .struct shape vs ∨ known.valueType = false ∧
      ∃ a, frame.source = .ref a ∧ start.get? a = some (.object shape vs.toArray))
    (hd : frame.destination.Blank pool shape) :
    Makes mappings start first frame.source (form.run (Routine.run depth) frame) := by
  have hnull : frame.source ≠ .null := by
    rintro heq
    rw [heq] at hv
    rcases hv with ⟨-, hv⟩ | ⟨-, _, hv, -⟩ <;> cases hv
  unfold RecordForm.run
  rw [if_neg (by simpa using hnull)]
  have hstart := RecordForm.destination_fills hc hs hr hlinkage hm hform hlength hplain hcopies hb
    hkind hv hd
  refine Succeeds.bind (hstart.mono ?_)
  rintro record s₁ ⟨hl₁, fields, bound, hfilling⟩
  unfold RecordForm.convert
  have hrecord : ¬ record.unboxed.isNull = true := by
    intro h
    have hshape := hfilling.pair.target.1
    rw [Value.isNull_iff.mp h] at hshape
    cases hshape
  rw [if_neg hrecord]
  have hmap : form.members.map MemberTransfer.pair =
      (List.range known.members.length).map fun i => ⟨i, i⟩ :=
    hform.pairs.trans (hm.existing_self hc.copyable hb.descriptor hkind)
  have hcount : form.members.length = known.members.length := by
    simpa using congrArg List.length hmap
  have hpairs : form.members.map MemberTransfer.pair =
      (List.range' 0 form.members.length).map fun i => ⟨i, i⟩ := by
    rw [hmap, hcount, List.range_eq_range']
  refine Succeeds.bind ((RecordForm.fillAll_makes hc hs hr hlinkage hm hform hlength hplain hcopies
    (fun _ h => h) hpairs hl₁ hfilling).mono ?_)
  rintro record s₂ ⟨hl₂, fields, hfilling⟩
  have hcopied : start.Copied s₂.heap first.heap.size record frame.source := by
    refine hfilling.pair.copied (hfilling.length.trans hlength.symm) fun i w v hw hv => ?_
    refine hfilling.copied i w v ?_ hw hv
    rw [Nat.zero_add, hcount, ← hfilling.length]
    exact (List.getElem?_eq_some_iff.mp hw).1
  unfold RecordForm.result
  split
  · refine ⟨_, _, rfl, hl₂.withHeap (hl₂.kept.trans (.box _ _)), ?_⟩
    exact (hcopied.kept (.box _ _)).box s₂.heap
  · exact Succeeds.pure ⟨hl₂, hcopied⟩

end

/-! ## Collections -/

/-- Elements of a collection that is copied go from their shape into the same, by the shape that is
declared or by their own. -/
theorem CollectionMapper.For.path_self {pool : Pool} {m : Mapping} {shape : ShapeId}
    {known : Descriptor} {mapper : CollectionMapper} {family : Family} {element : Option ShapeId}
    (h : mapper.For pool m shape shape known known) (hmode : m.copyMode = .deep)
    (hkind : known.kind = .collection family element) :
    (∃ id, mapper.path = .linked ⟨id, element.getD ShapeId.any, element.getD ShapeId.any⟩) ∨
      ∃ target, mapper.path = .dynamic target ∧ (target = none ∨ target = element) := by
  have hcollection : known.isCollection = true := by rw [Descriptor.isCollection, hkind]
  have helement : known.element? = element := by rw [Descriptor.element?, hkind]
  have hpath := h.path
  rw [hmode, helement, sourceElement, if_pos hcollection, helement] at hpath
  generalize mapper.path = path at hpath ⊢
  have hdeclared (hpath : ElementRoute.Leads
      (if CopyMode.deep = .shallow ∧ (element.getD ShapeId.any = element.getD ShapeId.any ∨
          element.getD ShapeId.any = ShapeId.any) then .verbatim
        else if element.getD ShapeId.any = ShapeId.any then
          .dynamic (if element.getD ShapeId.any = ShapeId.any then none
            else some (element.getD ShapeId.any))
        else .static (element.getD ShapeId.any) (element.getD ShapeId.any)) path) :
      (∃ id, path = .linked ⟨id, element.getD ShapeId.any, element.getD ShapeId.any⟩) ∨
        ∃ target, path = .dynamic target ∧ (target = none ∨ target = element) := by
    rw [if_neg (by simp)] at hpath
    split at hpath
    · cases hpath
      exact Or.inr ⟨_, rfl, Or.inl rfl⟩
    · cases hpath
      exact Or.inl ⟨_, rfl⟩
  cases hk : mapper.kind with
  | array | typedList =>
    rw [hk] at hpath
    exact hdeclared hpath
  | untypedList =>
    rw [hk] at hpath
    cases hpath
    exact Or.inr ⟨_, rfl, Or.inl rfl⟩
  | genericInsertable =>
    rw [hk] at hpath
    cases hpath
    exact Or.inr ⟨_, rfl, Or.inr rfl⟩

/-- At the address is a sequence that was not there at first, of copies of the values. -/
structure Gathered (start first heap : Heap) (shape : ShapeId) (a : Address) (vs : List Value) :
    Prop where
  bound : first.size ≤ a.index
  items : ∃ ws : Array Value, heap.get? a = some (.seq shape ws) ∧ ws.size = vs.length ∧
    ∀ (i : Nat) (w v : Value), ws[i]? = some w → vs[i]? = some v →
      start.Copied heap (a.index + 1) w v

namespace Gathered

variable {start first heap heap' : Heap} {shape : ShapeId} {a : Address} {vs : List Value}

theorem of_listed {ws : List Value} (h : first.Listed heap shape a ws)
    (hlength : ws.length = vs.length)
    (hcopied : ∀ (i : Nat) (w v : Value), ws[i]? = some w → vs[i]? = some v →
      start.Copied heap (a.index + 1) w v) : Gathered start first heap shape a vs :=
  ⟨h.bound, ws.toArray, h.items, hlength, fun i w v hw => hcopied i w v (by simpa using hw)⟩

theorem exists_listed (h : Gathered start first heap shape a vs) :
    ∃ ws, first.Listed heap shape a ws ∧ ws.length = vs.length ∧
      ∀ (i : Nat) (w v : Value), ws[i]? = some w → vs[i]? = some v →
        start.Copied heap (a.index + 1) w v := by
  obtain ⟨⟨ws⟩, ha, hsize, hcopied⟩ := h.items
  exact ⟨ws, ⟨h.bound, ha⟩, hsize, fun i w v hw => hcopied i w v (by simpa using hw)⟩

theorem new (start : Heap) (hk : first.Kept heap) :
    Gathered start first (heap.alloc (.seq shape #[])).2 shape ⟨heap.size⟩ [] :=
  of_listed (.new hk shape) rfl nofun

theorem later (h : Gathered start first heap shape a vs) (hk : heap.Kept heap') :
    Gathered start first heap' shape a vs := by
  obtain ⟨ws, hlisted, hlength, hcopied⟩ := h.exists_listed
  exact of_listed (hlisted.later hk) hlength fun i w v hw hv => (hcopied i w v hw hv).kept hk

theorem le_size (h : Gathered start first heap shape a vs) : a.index + 1 ≤ heap.size := by
  obtain ⟨_, hlisted, -⟩ := h.exists_listed
  exact hlisted.le_size

/-- One more copy is appended, which changes nothing that was there at first. -/
theorem push (h : Gathered start first heap shape a vs) {w v : Value}
    (hw : start.Copied heap (a.index + 1) w v) :
    Gathered start first (heap.push a w) shape a (vs ++ [v]) ∧
      (first.Kept heap → first.Kept (heap.push a w)) := by
  obtain ⟨ws, hlisted, hlength, hcopied⟩ := h.exists_listed
  obtain ⟨hlisted', hget, hkept⟩ := hlisted.push w
  refine ⟨of_listed hlisted' (by simp [hlength]) fun i w' v' hw' hv' => ?_, hkept⟩
  refine Heap.Copied.mono (Nat.le_refl _) hget ?_
  rw [List.getElem?_append] at hw' hv'
  rw [hlength] at hw'
  split at hw'
  · rename_i hlt
    rw [if_pos hlt] at hv'
    exact hcopied i w' v' hw' hv'
  · rename_i hlt
    rw [if_neg hlt] at hv'
    obtain rfl := List.mem_singleton.mp (List.mem_of_getElem? hw')
    obtain rfl := List.mem_singleton.mp (List.mem_of_getElem? hv')
    exact hw

/-- A sequence of copies is a copy. -/
theorem copied {b : Address} {items : Array Value} (h : Gathered start first heap shape a vs)
    (hb : start.get? b = some (.seq shape items)) (hvs : vs = items.toList) :
    start.Copied heap first.size (.ref a) (.ref b) := by
  obtain ⟨ws, ha, hsize, hcopied⟩ := h.items
  have ha' : heap.get? a = some ((Instance.seq shape items).mapContents fun _ => ws) := ha
  have hle : first.size ≤ a.index + 1 := Nat.le_succ_of_le h.bound
  subst hvs
  refine .ref h.bound ha' hb nofun hsize fun i w v hw hv => ?_
  refine (hcopied i w v hw ?_).mono hle fun _ _ _ h => h
  rwa [Array.getElem?_toList]

end Gathered

section

variable {mappings : Mapping → Prop} {id : MappingId} {pool : Pool} {start : Heap} {s : Session}
  {r : Routine} (hc : Copier mappings id pool) (hs : s.Holds mappings pool start) (hr : r.Live id s)
  {frame : Frame} (hlinkage : frame.linkage = r.linkage) {depth : Nat} {m : Mapping}
  (hm : m.Standard) {shape : ShapeId} {known : Descriptor} {mapper : CollectionMapper}
  (hmapper : mapper.For pool m shape shape known known) {family : Family} {element : Option ShapeId}
  (hkind : known.kind = .collection family element)

include hc hs hr hlinkage hm hmapper hkind

/-- An element becomes a copy of itself, if its value does. -/
theorem CollectionMapper.mapElement_makes {v : Value}
    (hv : start.Plain pool v (element.getD ShapeId.any))
    (hcopies : CopiesWithin mappings id pool start frame.state (fun _ => True) depth v) :
    Makes mappings start s v (mapper.mapElement (Routine.run depth) frame v) := by
  by_cases hnull : v = .null
  · subst hnull
    exact Makes.null hs.coherent
  obtain ⟨own, known', -, ⟨below, known'', hb, -⟩, -⟩ := hv.exists_own hc.grows hnull
  rw [CollectionMapper.mapElement_eq, CollectionMapper.transfer]
  rcases hmapper.path_self hm.copyMode hkind with ⟨link, hpath⟩ | ⟨target, hpath, htarget⟩
  · rw [hpath]
    exact (Transfer.byLink_makes hc hs hr hlinkage rfl rfl hv hb.includes_self trivial .null
      hcopies).placed _
  · rw [hpath]
    have hmade : Makes mappings start s v (Transfer.byShape (Routine.run depth) frame target
        (return v) (Transfer.reused false (return .null))) := by
      refine Transfer.byShape_makes hc hs hr hlinkage rfl rfl hv ?_ hcopies
      intro own known' hown _ htakes
      refine ⟨?_, trivial, .null⟩
      rcases htarget with rfl | rfl
      · exact ⟨_, _, hown, Or.inr rfl⟩
      · cases target with
        | none => exact ⟨_, _, hown, Or.inr rfl⟩
        | some e => exact htakes
    exact hmade.placed _

/-- The elements become copies of themselves, in their order. -/
theorem CollectionMapper.mapElements_makes {vs : List Value}
    (hvs : ∀ v ∈ vs, start.Plain pool v (element.getD ShapeId.any))
    (hcopies : ∀ v ∈ vs, CopiesWithin mappings id pool start frame.state (fun _ => True) depth v) :
    Succeeds (mapper.mapElements (Routine.run depth) frame vs) s fun ws s' =>
      s.Precedes mappings s' ∧ ws.length = vs.length ∧ ∀ (i : Nat) (w v : Value), ws[i]? = some w →
        vs[i]? = some v → start.Copied s'.heap s.heap.size w v := by
  unfold CollectionMapper.mapElements
  induction vs generalizing s with
  | nil => exact Succeeds.pure ⟨.refl hs.coherent, rfl, nofun⟩
  | cons v vs ih =>
    rw [List.mapM_cons]
    have hone := mapElement_makes hc hs hr hlinkage hm hmapper hkind (hvs v List.mem_cons_self)
      (hcopies v List.mem_cons_self)
    refine Succeeds.bind (hone.mono ?_)
    rintro w s₁ ⟨hl₁, hw⟩
    have hrest := ih (hs.precedes hl₁) (hr.precedes hl₁)
      (fun v hv => hvs v (List.mem_cons_of_mem _ hv))
      fun v hv => hcopies v (List.mem_cons_of_mem _ hv)
    refine Succeeds.bind (hrest.mono ?_)
    rintro ws s₂ ⟨hl₂, hlength, hws⟩
    refine Succeeds.pure ⟨hl₁.trans hl₂, congrArg Nat.succ hlength, fun i w' v' hw' hv' => ?_⟩
    cases i with
    | zero =>
      cases hw'
      cases hv'
      exact hw.kept hl₂.kept
    | succ i => exact (hws i w' v' hw' hv').mono hl₁.kept.size_le fun _ _ _ h => h

/-- Copies of the elements are appended to a new container. -/
theorem CollectionMapper.appendElements_makes {s' : Session} {a : Address} {done vs : List Value}
    (hl : s.Precedes mappings s') (h : Gathered start s.heap s'.heap shape a done)
    (hvs : ∀ v ∈ vs, start.Plain pool v (element.getD ShapeId.any))
    (hcopies : ∀ v ∈ vs, CopiesWithin mappings id pool start frame.state (fun _ => True) depth v) :
    Succeeds (mapper.appendElements (Routine.run depth) frame a vs) s' fun _ s'' =>
      s.Precedes mappings s'' ∧ Gathered start s.heap s''.heap shape a (done ++ vs) := by
  unfold CollectionMapper.appendElements
  induction vs generalizing s' done with
  | nil => exact Succeeds.pure ⟨hl, (List.append_nil done).symm ▸ h⟩
  | cons v vs ih =>
    have hmade := mapElement_makes hc (hs.precedes hl) (hr.precedes hl) hlinkage hm hmapper hkind
      (hvs v List.mem_cons_self) (hcopies v List.mem_cons_self)
    have hone : Succeeds (mapper.appendElement (Routine.run depth) frame a v) s' fun _ s'' =>
        s.Precedes mappings s'' ∧ Gathered start s.heap s''.heap shape a (done ++ [v]) := by
      refine Succeeds.bind (hmade.mono ?_)
      rintro w s₁ ⟨hl₁, hw⟩
      obtain ⟨h₁, hkept⟩ := (h.later hl₁.kept).push (hw.mono h.le_size fun _ _ _ h => h)
      exact ⟨(), _, rfl, (hl.trans hl₁).withHeap (hkept (hl.trans hl₁).kept), h₁⟩
    refine Succeeds.bind (hone.mono ?_)
    rintro _ s₁ ⟨hl₁, h₁⟩
    rw [List.append_cons]
    exact ih hl₁ h₁ (fun v hv => hvs v (List.mem_cons_of_mem _ hv))
      fun v hv => hcopies v (List.mem_cons_of_mem _ hv)

omit hr hlinkage hm in
/-- A new container is empty. -/
theorem CollectionMapper.container?_makes (hb : pool.Below shape shape known)
    (hinsertable : mapper.kind = .genericInsertable) (hfamily : family = .insertable)
    (hd : frame.destination.Blank pool shape) :
    Succeeds (mapper.container? (Routine.run depth) frame) s fun a? s' => s.Precedes mappings s' ∧
      ∃ a, a? = some a ∧ Gathered start s.heap s'.heap shape a [] := by
  subst hfamily
  have hsequence : sequenceAt? s.heap mapper.target frame.destination = none := by
    refine Option.eq_none_iff_forall_ne_some.mpr fun a ha => ?_
    obtain ⟨hd', -⟩ := CollectionMapper.sequenceAt?_eq_some_iff.mp ha
    rw [hd'] at hd
    cases hd with
    | primitive hv _ => exact hv.isContent.elim
    | ref ha _ => exact ha
  obtain ⟨program, origin, hprogram, hrun, horigin⟩ := hmapper.construct hinsertable
  obtain ⟨htype, hconstructor⟩ := hc.copyable.insertable _ _ _ hb.descriptor hkind
  have hempty : mapper.MakesEmpty shape := by
    refine ⟨program, hprogram, fun invoke frame => ?_⟩
    rw [hrun, Origin.run, horigin.make_eq_alloc hb.descriptor htype hconstructor hkind]
  refine ⟨_, _, hempty.container?_eq_ok _ hsequence,
    (Session.Precedes.refl hs.coherent).withHeap (.alloc _ _), _, rfl, ?_⟩
  exact .new start (.refl s.heap)

/-- A collection is copied, if its items are. -/
theorem CollectionMapper.makes (hb : pool.Below shape shape known)
    {b : Address} {items : Array Value} (hv : frame.source = .ref b)
    (hitems : start.get? b = some (.seq shape items))
    (hplain : ∀ v ∈ items, start.Plain pool v (element.getD ShapeId.any))
    (hd : frame.destination.Blank pool shape)
    (hcopies : ∀ v ∈ items,
      CopiesWithin mappings id pool start frame.state (fun _ => True) depth v) :
    Makes mappings start s frame.source (mapper.run (Routine.run depth) frame) := by
  have helements {s' : Session} (hl : s.Precedes mappings s') :
      CollectionMapper.sourceElements frame.source s' = .ok items.toList s' := by
    have hget : s'.heap.elements? frame.source = some items.toList := by
      rw [hv, Heap.elements?_ref, hl.kept _ _ (hs.kept _ _ hitems)]
    change EStateM.Result.ok ((s'.heap.elements? frame.source).getD [frame.source]) s' = _
    rw [hget]
    rfl
  have hplain' : ∀ v ∈ items.toList, start.Plain pool v (element.getD ShapeId.any) :=
    fun v hv => hplain v (Array.mem_toList_iff.mp hv)
  have hcopies' : ∀ v ∈ items.toList,
      CopiesWithin mappings id pool start frame.state (fun _ => True) depth v :=
    fun v hv => hcopies v (Array.mem_toList_iff.mp hv)
  have hrefl := Session.Precedes.refl hs.coherent
  have hnew : Makes mappings start s frame.source
      (do
        let items ← mapper.mapElements (Routine.run depth) frame
          (← CollectionMapper.sourceElements frame.source)
        RunM.onHeap (Heap.alloc (.seq mapper.target items.toArray))) := by
    refine Succeeds.bind_ok (helements hrefl) (Succeeds.bind ?_)
    refine (mapElements_makes hc hs hr hlinkage hm hmapper hkind hplain' hcopies').mono ?_
    rintro ws s₁ ⟨hl₁, hlength, hws⟩
    refine ⟨_, _, rfl, hl₁.withHeap (hl₁.kept.trans (.alloc _ _)), ?_⟩
    rw [hv, hmapper.target_eq]
    have ha := Heap.get?_alloc_size s₁.heap (.seq shape ws.toArray)
    have hsize : ws.toArray.size = items.size := hlength
    refine .ref (i := .seq shape items) hl₁.kept.size_le ha hitems nofun hsize fun i w v hw hv => ?_
    exact (hws i w v (by simpa using hw) (by simpa [Instance.contents] using hv)).kept (.alloc _ _)
  unfold CollectionMapper.run
  rw [if_neg (by simp [hv, Value.isNull])]
  cases hk : mapper.kind with
  | array | typedList | untypedList => exact hnew
  | genericInsertable =>
    have hfamily := hmapper.family_eq hkind
    rw [hk] at hfamily
    refine Succeeds.bind ((container?_makes hc hs hmapper hkind hb hk hfamily hd).mono ?_)
    rintro _ s₁ ⟨hl₁, a, rfl, hempty⟩
    refine Succeeds.bind_ok (helements hl₁) (Succeeds.bind ?_)
    refine (appendElements_makes hc hs hr hlinkage hm hmapper hkind hl₁ hempty hplain'
      hcopies').mono ?_
    rintro _ s₂ ⟨hl₂, h₂⟩
    rw [hv]
    exact Succeeds.pure ⟨hl₂, h₂.copied hitems (List.nil_append _)⟩

end

end Reshape
