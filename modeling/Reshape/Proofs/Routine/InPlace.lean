import Reshape.Proofs.Routine.Populating
import Reshape.Proofs.Value.Conformance

/-!
# Filling an object in place

Under a standard mapping, the routine from a record shape into itself fills the object that it is
supplied with, and ends with it (`Session.Reachable.exists_overwrites`). Members that hold records
are filled where they are, so two members of the object that hold one record get what is filled in
last. If all that is filled into one record is equal (`Heap.Consistent`), the object is equal to the
source in the end. Otherwise it need not be (`Routine.exists_not_overwrites`).
-/

set_option linter.unusedSectionVars false

namespace Reshape

/-! ## What is filled into objects -/

/-- As `v` is filled into a place of the shape, which holds `d`, the value `u` is filled into the
object at the address. Records that are members of `d` are filled from the same members of `v`. -/
inductive Heap.Fills (pool : Pool) (heap : Heap) :
    ShapeId → Value → Value → Value → Address → Prop
  | here {place below : ShapeId} {known : Descriptor} {v : Value} {a : Address}
    (hb : pool.Below place below known) (hkind : known.kind = .record)
    (htype : known.valueType = false) (hv : v ≠ .null) : Fills pool heap place v (.ref a) v a
  | inside {place below : ShapeId} {known : Descriptor} {i : Nat} {m : Member} {v d w e u : Value}
    {a : Address} (hb : pool.Below place below known) (hkind : known.kind = .record)
    (hm : known.members[i]? = some m) (hw : heap.member? v i = some w)
    (he : heap.member? d i = some e) (h : Fills pool heap m.shape w e u a) :
    Fills pool heap place v d u a

/-- The object is there to be filled from the value : both conform to the shape, and they share no
instance. -/
structure Heap.Offers (pool : Pool) (heap : Heap) (shape : ShapeId) (d : Address) (v : Value) :
    Prop where
  plain : heap.Plain pool v shape
  fits : ∃ typed, heap.TypedBy pool typed ∧ (Value.ref d).Fits pool typed shape
  disjoint : ∀ a, heap.Reaches v a → ¬ heap.Reaches (.ref d) a

/-- As the object is filled from the value, whatever is filled into one object is equal. -/
def Heap.Consistent (pool : Pool) (heap : Heap) (shape : ShapeId) (d : Address) (v : Value) :
    Prop :=
  ∀ u u' a, heap.Fills pool shape v (.ref d) u a → heap.Fills pool shape v (.ref d) u' a →
    heap.equal u u' = true

/-- The record may be filled into the object, which `d` reaches. If `strict`, it is alike one that
is filled into it. -/
structure Heap.MayFill (strict : Prop) (pool : Pool) (typed : Address → ShapeId → Prop)
    (heap : Heap) (shape : ShapeId) (d : Address) (v : Value) (a : Address) (own : ShapeId)
    (u : Value) : Prop where
  typed : typed a own
  record : ∃ known, pool.Below own own known ∧ known.kind = .record
  reaches : heap.Reaches (.ref d) a
  plain : heap.Plain pool u own
  ne_null : u ≠ .null
  alike : strict → ∃ w, heap.Fills pool shape v (.ref d) w a ∧ heap.Alike u w

/-- Nothing is written yet, and what may be filled into the objects that `d` reaches is assigned. -/
def Heap.assignment (strict : Prop) (pool : Pool) (typed : Address → ShapeId → Prop) (heap : Heap)
    (shape : ShapeId) (d : Address) (v : Value) : Assignment where
  given := heap.MayFill strict pool typed shape d v
  written _ _ := False

section

variable {pool : Pool} {typed : Address → ShapeId → Prop} {heap : Heap} {place below : ShapeId}
  {known : Descriptor} {u v d w e : Value} {a b : Address}

theorem Heap.Fills.below_iff (hb : pool.Below place below known) :
    heap.Fills pool below v d u a ↔ heap.Fills pool place v d u a := by
  constructor
  · intro h
    cases h with
    | here hb' hkind htype hv =>
      obtain ⟨rfl, rfl⟩ := hb.self.unique hb'
      exact .here hb hkind htype hv
    | inside hb' hkind hm hw he h =>
      obtain ⟨rfl, rfl⟩ := hb.self.unique hb'
      exact .inside hb hkind hm hw he h
  · intro h
    cases h with
    | here hb' hkind htype hv =>
      obtain ⟨rfl, rfl⟩ := hb.unique hb'
      exact .here hb.self hkind htype hv
    | inside hb' hkind hm hw he h =>
      obtain ⟨rfl, rfl⟩ := hb.unique hb'
      exact .inside hb.self hkind hm hw he h

/-- A member can be reached from its record. -/
theorem Heap.Reaches.of_member {i : Nat} (hw : heap.member? v i = some w) (h : heap.Reaches w a) :
    heap.Reaches v a := by
  refine .of_within ?_ h
  have hmember := Heap.within_member (i := i) (p := heap.Reaches v)
    (fun _ _ ha hi _ hu _ hb => .step ha hi hu hb) fun _ ha => .here ha
  rwa [hw] at hmember

/-- The members of a plain record are plain. -/
theorem Heap.Plain.member {i : Nat} {m : Member} (hpool : Pool.initial.GrowsTo pool)
    (hb : pool.Below place below known) (hkind : known.kind = .record)
    (hv : heap.Plain pool v place) (hm : known.members[i]? = some m)
    (hw : heap.member? v i = some w) : heap.Plain pool w m.shape := by
  have hnull : v ≠ .null := by
    rintro rfl
    cases hw
  obtain ⟨vs, -, hplain, hvalues⟩ :=
    ((Heap.Plain.below_iff hb).mpr hv).record_cases hpool hb.self hkind hnull
  refine hplain i w m ?_ hm
  rcases hvalues with ⟨-, hv⟩ | ⟨-, b, rfl, hget⟩
  · rw [← Heap.member?_bare, hv] at hw
    exact hw
  · rw [Heap.member?_ref, hget] at hw
    simpa using hw

section

variable (ht : heap.TypedBy pool typed)

include ht

/-- The members of a conforming record conform. -/
theorem Heap.TypedBy.fits_of_member {i : Nat} {m : Member} (hb : pool.Below place below known)
    (hkind : known.kind = .record) (hd : d.Fits pool typed place)
    (hm : known.members[i]? = some m) (he : heap.member? d i = some e) :
    e.Fits pool typed m.shape := by
  have hany : known.kind ≠ .any := by simp [hkind]
  have hshape : heap.shape? d = some below := by
    induction hd with
    | null => cases he
    | @primitive p d _ hv _ => cases d <;> first | cases he | (cases p <;> exact hv.elim)
    | struct hp _ _ _ _ _ _ => exact congrArg some (hp.eq hb hany)
    | boxed _ _ ih => exact ih hb he
    | ref ha hp =>
      obtain ⟨i, hi, rfl, -⟩ := ht _ _ ha
      rw [Heap.shape?, hi]
      exact congrArg some (hp.eq hb hany)
  have hfits := ht.fits_member hb.descriptor hm hd hshape
  rwa [he] at hfits

/-- What is given a record shape is an object, with fields that conform. -/
theorem Heap.TypedBy.object_of_typed (hb : pool.Below below below known)
    (hkind : known.kind = .record) (ha : typed a below) : known.valueType = false ∧
      ∃ fields : List Value, heap.get? a = some (.object below fields.toArray) ∧
        fields.length = known.members.length ∧ ∀ (i : Nat) (v : Value) (m : Member),
          fields[i]? = some v → known.members[i]? = some m → v.Fits pool typed m.shape := by
  obtain ⟨i, hi, rfl, hfits⟩ := ht a _ ha
  cases hfits with
  | @object shape fields _ hs _ htype hlength hfields =>
    obtain rfl := Except.ok.inj (hs.symm.trans hb.descriptor)
    exact ⟨htype, fields.toList, hi, hlength, fun i v m hv hm =>
      hfields i v m (by simpa using hv) hm⟩
  | seq hs hkind' _ | items hs hkind' _ | live hs hkind' _ _ =>
    obtain rfl := Except.ok.inj (hs.symm.trans hb.descriptor)
    cases hkind.symm.trans hkind'

/-- What is filled into an object is a record of its shape, and what is filled in from there on is
filled in on the whole. -/
theorem Heap.Fills.exists_own (hpool : Pool.initial.GrowsTo pool)
    (h : heap.Fills pool place v d u a) (hv : heap.Plain pool v place)
    (hd : d.Fits pool typed place) :
    ∃ own known, pool.Below own own known ∧ known.kind = .record ∧ known.valueType = false ∧
      u ≠ .null ∧ heap.Plain pool u own ∧ typed a own ∧ heap.Reaches d a ∧
      ∀ u' a', heap.Fills pool own u (.ref a) u' a' → heap.Fills pool place v d u' a' := by
  induction h with
  | @here place below known v a hb hkind htype hnull =>
    refine ⟨below, known, hb.self, hkind, htype, hnull, (Heap.Plain.below_iff hb).mpr hv, ?_,
      .here (.ref a), fun _ _ => (below_iff hb).mp⟩
    cases hd with
    | @primitive p _ _ hv _ => exact hv.isContent.elim
    | ref ha hp =>
      obtain rfl := hp.eq hb (by simp [hkind])
      exact ha
  | inside hb hkind hm hw he _ ih =>
    obtain ⟨own, known, hown, hrecord, htype, hnull, hu, ha, hreaches, htrans⟩ :=
      ih (hv.member hpool hb hkind hm hw) (ht.fits_of_member hb hkind hd hm he)
    exact ⟨own, known, hown, hrecord, htype, hnull, hu, ha, hreaches.of_member he,
      fun u' a' h => .inside hb hkind hm hw he (htrans u' a' h)⟩

/-- What `d` leads to is ready for a plain value, which is alike what is filled in if `strict`. -/
theorem Heap.assignment_ready {strict : Prop} {shape : ShapeId} {d : Address} {v e : Value}
    (hpool : Pool.initial.GrowsTo pool) (he : e.Fits pool typed place)
    (hu : heap.Plain pool u place) (hreaches : ∀ a, heap.Reaches e a → heap.Reaches (.ref d) a)
    (halike : strict → ∃ w, heap.Alike u w ∧ ∀ u' a, heap.Fills pool place w e u' a →
      heap.Fills pool shape v (.ref d) u' a) :
    (heap.assignment strict pool typed shape d v).Ready pool place e u := by
  induction he generalizing u with
  | null => exact .blank .null
  | primitive _ hp =>
    obtain ⟨below, known, hb, hcase⟩ := hp
    refine .other hb ?_
    rcases hcase with hkind | hkind <;> simp [hkind]
  | @struct _ fields place known hp hs hkind htype hlength hfields ih =>
    obtain ⟨below, known', hb, hany | rfl⟩ := hp
    · exact .other hb (by simp [hany])
    · obtain rfl := Except.ok.inj (hs.symm.trans hb.descriptor)
      by_cases hnull : u = .null
      · exact hnull ▸ .null
      · obtain ⟨us, -, hplain, hvalues⟩ :=
          ((Heap.Plain.below_iff hb).mpr hu).record_cases hpool hb.self hkind hnull
        have hbare : u.bare = .struct below us := Heap.Presents.bare hvalues htype
        refine .struct hb hkind htype rfl hbare hlength fun i f x m hf hx hm => ?_
        refine ih i f m hf hm (hplain i x m hx hm) (fun a ha => hreaches a ?_) fun hstrict => ?_
        · exact ha.of_member (i := i) hf
        · obtain ⟨w, huw, hfills⟩ := halike hstrict
          obtain ⟨ws, hw, hsize, hws⟩ := huw.of_struct hbare
          have hy := List.getElem?_eq_getElem (hsize ▸ (List.getElem?_eq_some_iff.mp hx).1)
          refine ⟨_, hws i x _ hx hy, fun u' a h => hfills u' a ?_⟩
          refine .inside hb hkind hm ?_ hf h
          rw [← Heap.member?_bare, hw]
          exact hy
  | boxed hc _ ih =>
    refine (ih hu (fun a ha => hreaches a ?_) fun hstrict => ?_).boxed hc
    · exact ha.of_within fun b hb => .here (.boxed hb)
    · obtain ⟨w, huw, hfills⟩ := halike hstrict
      refine ⟨w, huw, fun u' a h => hfills u' a ?_⟩
      cases h with
      | here _ _ _ _ => exact hc.elim
      | inside hb hkind hm hw he h => exact .inside hb hkind hm hw he h
  | @ref a own place ha hp =>
    obtain ⟨below, known, hb, hany | rfl⟩ := hp
    · exact .other hb (by simp [hany])
    · by_cases hkind : known.kind = .record
      · by_cases hnull : u = .null
        · exact hnull ▸ .null
        · have htype : known.valueType = false := (ht.object_of_typed hb.self hkind ha).1
          refine .object hb hkind htype ⟨ha, ⟨known, hb.self, hkind⟩, hreaches a (.here (.ref a)),
            (Heap.Plain.below_iff hb).mpr hu, hnull, fun hstrict => ?_⟩
          obtain ⟨w, huw, hfills⟩ := halike hstrict
          refine ⟨w, hfills w a (.here hb hkind htype ?_), huw⟩
          rintro rfl
          exact hnull huw.symm.eq_null
      · exact .other hb hkind

/-- What may be filled into an object is on its way, and nothing of it is written yet. -/
theorem Heap.assignment_tends {strict : Prop} {shape : ShapeId} {d a : Address} {v u : Value}
    {own : ShapeId} (hpool : Pool.initial.GrowsTo pool) (hv : heap.Plain pool v shape)
    (hd : (Value.ref d).Fits pool typed shape)
    (h : heap.MayFill strict pool typed shape d v a own u) :
    (heap.assignment strict pool typed shape d v).Tends strict pool heap heap a own u := by
  obtain ⟨known, hb, hkind⟩ := h.record
  obtain ⟨htype, fields, hget, hlength, hfits⟩ := ht.object_of_typed hb hkind h.typed
  obtain ⟨vs, hlength', hplain, hvalues⟩ := h.plain.record_cases hpool hb hkind h.ne_null
  obtain ⟨b, rfl, hb'⟩ := Heap.Presents.exists_ref hvalues htype
  refine .intro hb hkind htype hget hb' hlength hlength' (fun i f x m hf hx hm => ?_)
    fun _ _ _ _ _ _ hi => hi.elim
  have hmember : heap.member? (.ref a) i = some f := by
    rw [Heap.member?_ref, hget]
    exact List.getElem?_toArray.trans hf
  refine Heap.assignment_ready ht hpool (hfits i f m hf hm) (hplain i x m hx hm)
    (fun c hc => ?_) fun hstrict => ?_
  · refine (hc.of_member hmember).of_within fun c hc => ?_
    cases hc
    exact h.reaches
  · obtain ⟨w, hfills, halike⟩ := h.alike hstrict
    obtain ⟨own', _, _, _, _, _, hw, ha, _, htrans⟩ := hfills.exists_own ht hpool hv hd
    obtain ⟨c, ws, rfl, hc, hsize, hws⟩ := halike.of_object hb'
    have hy := List.getElem?_eq_getElem (hsize ▸ (List.getElem?_eq_some_iff.mp hx).1)
    refine ⟨_, hws i x _ hx hy, fun u' a' h' => htrans u' a' ?_⟩
    obtain rfl : own' = own := by
      obtain ⟨j, hj, rfl, -⟩ := ht a own' ha
      obtain rfl := Option.some.inj (hget.symm.trans hj)
      rfl
    refine .inside hb hkind hm ?_ hmember h'
    rw [Heap.member?_ref, hc]
    exact List.getElem?_toArray.trans hy

/-- What may be filled into the objects can be assigned. -/
theorem Heap.assignment_holds {shape : ShapeId} {d : Address} {v : Value}
    (hpool : Pool.initial.GrowsTo pool) (hv : heap.Plain pool v shape)
    (hd : (Value.ref d).Fits pool typed shape)
    (hdisjoint : ∀ a, heap.Reaches v a → ¬ heap.Reaches (.ref d) a) :
    (heap.assignment (heap.Consistent pool shape d v) pool typed shape d v).Holds
      (heap.Consistent pool shape d v) pool heap heap (heap.Reaches v) where
  kept _ _ _ hi := hi
  apart a ha _ _ h := hdisjoint a ha h.reaches
  tends _ _ _ h := heap.assignment_tends ht hpool hv hd h
  closed a own u u' h hu hnull := by
    refine ⟨h.typed, h.record, h.reaches, hu.right, hnull, fun hstrict => ?_⟩
    obtain ⟨w, hfills, halike⟩ := h.alike hstrict
    exact ⟨w, hfills, (hu.alike hstrict).symm.trans halike⟩
  exchanges a own u u' h h' := by
    refine ⟨h.plain, h'.plain, fun hstrict => ?_⟩
    obtain ⟨w, hfills, halike⟩ := h.alike hstrict
    obtain ⟨w', hfills', halike'⟩ := h'.alike hstrict
    obtain ⟨_, _, _, _, _, _, hw, _⟩ := hfills.exists_own ht hpool hv hd
    obtain ⟨_, _, _, _, _, _, hw', _⟩ := hfills'.exists_own ht hpool hv hd
    have hsame : heap.Alike w w' := hw.alike_of_equal hw' (hstrict w w' a hfills hfills')
    exact (halike.trans hsame).trans halike'.symm

end

/-- What a plain value reaches is there, and leads to nothing else. -/
theorem Heap.Plain.closed (hv : heap.Plain pool v place) : heap.Closed (heap.Reaches v) := by
  intro a ha
  obtain ⟨_, hplain⟩ := hv.exists_of_reaches (.refl heap) ha
  obtain ⟨i, hi, -⟩ := hplain.exists_instance
  exact ⟨i, hi, fun u hu b hb => .step ha hi hu hb⟩

end

/-! ## Runs -/

/-- Run on the value with the object in its place, the routine ends, if there is depth enough, with
that object and the second session. -/
def Routine.Returns (r : Routine) (s : Session) (d : Address) (v state : Value) (s' : Session) :
    Prop :=
  ∃ depth, ∀ more, depth ≤ more → r.run more v (.ref d) state s = .ok (.ref d) s'

/-- The routine ends with the object, which is equal to the value then. -/
def Routine.Overwrites (r : Routine) (s : Session) (d : Address) (v state : Value) : Prop :=
  ∃ s', r.Returns s d v state s' ∧ s'.heap.equal (.ref d) v = true

/-- The run of this depth is too deep, or leaves the object equal to the value. -/
def Routine.overwritesAt (r : Routine) (s : Session) (d : Address) (v state : Value) (depth : Nat) :
    Bool :=
  match r.run depth v (.ref d) state s with
  | .ok _ s' => s'.heap.equal (.ref d) v
  | .error .tooDeep _ => true
  | .error (.failed _) _ => false

theorem Routine.Overwrites.overwritesAt {r : Routine} {s : Session} {d : Address} {v state : Value}
    (h : r.Overwrites s d v state) (depth : Nat) : r.overwritesAt s d v state depth = true := by
  obtain ⟨s', ⟨least, hrun⟩, hequal⟩ := h
  have hmost := hrun _ (Nat.le_max_right depth least)
  unfold Routine.overwritesAt
  cases hends : r.run depth v (.ref d) state s with
  | ok w s'' =>
    rw [run_of_le (Nat.le_max_left depth least) fun s' => by simp [hends], hends] at hmost
    cases hmost
    exact hequal
  | error stop s'' =>
    cases stop with
    | tooDeep => rfl
    | failed e =>
      rw [run_of_le (Nat.le_max_left depth least) fun s' => by simp [hends], hends] at hmost
      cases hmost

/-- A routine from a record shape into itself fills objects in place. -/
theorem Routine.Live.exists_returns {mappings : Mapping → Prop} {id : MappingId} {s : Session}
    {r : Routine} (hc : Copier mappings id s.pool) (hs : s.Coherent mappings) (hr : r.Live id s)
    (hself : r.key.target = r.key.source)
    (hinsertable : ∀ shape known element, s.pool.descriptor shape = .ok known →
      known.kind ≠ .collection .insertable element) {below : ShapeId} {known : Descriptor}
    (hb : s.pool.Below r.key.source below known) (hkind : known.kind = .record)
    {d : Address} {v : Value} (h : s.heap.Offers s.pool r.key.source d v) (hnull : v ≠ .null)
    (state : Value) : ∃ s', r.Returns s d v state s' ∧
      (s.heap.Consistent s.pool r.key.source d v → s'.heap.equal (.ref d) v = true) := by
  obtain ⟨hplain, ⟨typed, ht, hd⟩, hdisjoint⟩ := h
  have hp := hplain.closed
  have hwithin : v.Within (s.heap.Reaches v) := fun a ha => .here ha
  obtain ⟨A, hholds, hready⟩ : ∃ A : Assignment,
      A.Holds (s.heap.Consistent s.pool r.key.source d v) s.pool s.heap s.heap (s.heap.Reaches v) ∧
        A.Ready s.pool r.key.source (.ref d) v :=
    ⟨_, s.heap.assignment_holds ht hc.grows hplain hd hdisjoint,
      s.heap.assignment_ready ht hc.grows hd hplain (fun _ ha => ha)
        fun _ => ⟨v, hplain.alike_self, fun _ _ hfills => hfills⟩⟩
  have hparts (u : Value) (hu : u ∈ s.heap.parts v) :
      Populated mappings id (s.heap.Consistent s.pool r.key.source d v) s.pool s.heap
        (s.heap.Reaches v) state u := by
    obtain ⟨_, hplain⟩ := hplain.exists_of_mem_parts hu
    exact hplain.populated hc hp hinsertable
  obtain ⟨depth, w, s', hrun, A', hadvances, hsettled, -, hsame⟩ :=
    hr.populates_record hc hp ⟨hs, rfl, hholds⟩ hplain hwithin (hself ▸ hb.includes_self)
      (hself ▸ hready) (hself ▸ hb) hkind hnull hparts
  obtain rfl := hsame d rfl
  exact ⟨s', ⟨depth, hrun⟩, fun hconsistent =>
    hadvances.filling.holds.equal hp hconsistent hplain hwithin (hsettled hconsistent)⟩

/-- Under a standard mapping, in a copyable pool without containers that may be supplied, there is a
routine from each record shape into itself that fills objects in place. It answers null with null.
-/
theorem Session.Reachable.exists_overwrites {mappings : Mapping → Prop} {s : Session}
    (h : s.Reachable mappings) {mapping : Mapping} (hmapping : mappings mapping)
    (hstandard : ∀ m, mappings m → m.id = mapping.id → m.Standard) {registry : RegistryId}
    (halive : s.registryAlive registry = true) (hpool : s.pool.Copyable)
    (hinsertable : ∀ shape known element, s.pool.descriptor shape = .ok known →
      known.kind ≠ .collection .insertable element) {shape : ShapeId} {known : Descriptor}
    (hshape : s.pool.descriptor shape = .ok known) (hkind : known.kind = .record) :
    ∃ r s', Session.getOrCompile registry shape shape mapping s = .ok r s' ∧ s'.heap = s.heap ∧
      (∀ depth d state, r.run (depth + 1) .null (.ref d) state s' = .ok .null s') ∧
      ∀ d v state, s.heap.Offers s.pool shape d v → v ≠ .null →
        ∃ s'', r.Returns s' d v state s'' ∧
          (s.heap.Consistent s.pool shape d v → s''.heap.equal (.ref d) v = true) := by
  obtain ⟨r, s', hrun, hheap, hpool', hs', hr, hsource, htarget⟩ :=
    h.exists_live hmapping hstandard halive hpool hshape
  have hc : Copier mappings mapping.id s'.pool :=
    ⟨hpool'.symm ▸ h.growsTo, hpool'.symm ▸ hpool, hstandard⟩
  have hself : r.key.target = r.key.source := htarget.trans hsource.symm
  have hb : s'.pool.Below r.key.source shape known := by
    rw [hsource, hpool']
    exact .of_descriptor hshape (by simp [hkind])
  refine ⟨r, s', hrun, hheap, fun depth d state => ?_, fun d v state hv hnull => ?_⟩
  · have hholds : s'.Holds mappings s'.pool s'.heap := ⟨hs', rfl, .refl _⟩
    exact hr.run_null hc hholds (hself ▸ hb.includes_self) (hself ▸ hb) hkind depth (.ref d) state
  · rw [← hheap, ← hpool', ← hsource] at hv ⊢
    exact hr.exists_returns hc hs' hself (hpool'.symm ▸ hinsertable) hb hkind hv hnull state

/-! ## Members that are one record -/

namespace Twins

def point : Descriptor :=
  .ofRecord "Point" [⟨"x", ShapeId.int, {}⟩]

def pair : Descriptor :=
  .ofRecord "Pair" [⟨"a", ⟨7⟩, {}⟩, ⟨"b", ⟨7⟩, {}⟩]

def operations : List Pool.Operation := [.register point, .register pair]

def pool : Pool :=
  (Pool.initial.push ⟨"Point", some point⟩).push ⟨"Pair", some pair⟩

theorem pool_eq : operations.foldl Pool.Operation.apply Pool.initial = pool := by decide +kernel

/-- A pair that holds one point twice, and one of two points. -/
def heap (n : Int64) : Heap where
  instances := #[.object ⟨7⟩ #[.int 0], .object ⟨8⟩ #[.ref ⟨0⟩, .ref ⟨0⟩], .object ⟨7⟩ #[.int 1],
    .object ⟨7⟩ #[.int n], .object ⟨8⟩ #[.ref ⟨2⟩, .ref ⟨3⟩]]

theorem copyable : pool.Copyable :=
  Pool.copyable_of_admits (by decide +kernel)

theorem below_point : pool.Below ⟨7⟩ ⟨7⟩ point :=
  ⟨rfl, rfl⟩

theorem below_pair : pool.Below ⟨8⟩ ⟨8⟩ pair :=
  ⟨rfl, rfl⟩

variable (n : Int64)

theorem plain_point {a : Address} {m : Int64}
    (ha : (heap n).get? a = some (.object ⟨7⟩ #[.int m])) : (heap n).Plain pool (.ref a) ⟨7⟩ := by
  refine .object ha ⟨_, _, below_point, Or.inr rfl⟩ rfl rfl rfl rfl fun i w m hw hm => ?_
  match i with
  | 0 =>
    cases hw
    cases hm
    exact .primitive (p := .int) trivial ⟨_, _, ⟨rfl, rfl⟩, Or.inr rfl⟩ nofun
  | i + 1 => cases hw

theorem plain_pair : (heap n).Plain pool (.ref ⟨4⟩) ⟨8⟩ := by
  refine .object rfl ⟨_, _, below_pair, Or.inr rfl⟩ rfl rfl rfl rfl fun i w m hw hm => ?_
  match i with
  | 0 | 1 =>
    cases hw
    cases hm
    exact plain_point n rfl
  | i + 2 => cases hw

theorem typedBy : (heap n).TypedBy pool (heap n).shapes :=
  Heap.typedBy_shapes rfl

/-- The pairs lead to their points, and the points lead nowhere. -/
theorem leads_cases {a b : Address} (h : (heap n).Leads b a) :
    a = ⟨1⟩ ∧ b = ⟨0⟩ ∨ a = ⟨4⟩ ∧ (b = ⟨2⟩ ∨ b = ⟨3⟩) := by
  obtain ⟨k⟩ := a
  obtain ⟨i, w, hi, hw, hb⟩ := h
  match k with
  | 0 | 2 | 3 =>
    obtain rfl := Option.some.inj hi
    obtain rfl := List.mem_singleton.mp hw
    cases hb
  | 1 =>
    obtain rfl := Option.some.inj hi
    change w ∈ [Value.ref ⟨0⟩, .ref ⟨0⟩] at hw
    obtain rfl : w = .ref ⟨0⟩ := by simpa using hw
    cases hb
    exact Or.inl ⟨rfl, rfl⟩
  | 4 =>
    obtain rfl := Option.some.inj hi
    change w ∈ [Value.ref ⟨2⟩, .ref ⟨3⟩] at hw
    obtain rfl | rfl : w = .ref ⟨2⟩ ∨ w = .ref ⟨3⟩ := by simpa using hw
    · cases hb
      exact Or.inr ⟨rfl, Or.inl rfl⟩
    · cases hb
      exact Or.inr ⟨rfl, Or.inr rfl⟩
  | k + 5 => cases hi

theorem disjoint (a : Address) (hv : (heap n).Reaches (.ref ⟨4⟩) a) :
    ¬ (heap n).Reaches (.ref ⟨1⟩) a := by
  intro hd
  have hsource : 2 ≤ a.index := by
    refine hv.within (p := fun a => 2 ≤ a.index) (fun b i hb hi w hw c hc => ?_)
      (Value.Within.ref.mpr (by decide))
    rcases leads_cases n ⟨i, w, hi, hw, hc⟩ with ⟨rfl, -⟩ | ⟨-, rfl | rfl⟩
    · exact absurd hb (by decide)
    · decide
    · decide
  have hdestination : a.index < 2 := by
    refine hd.within (p := fun a => a.index < 2) (fun b i hb hi w hw c hc => ?_)
      (Value.Within.ref.mpr (by decide))
    rcases leads_cases n ⟨i, w, hi, hw, hc⟩ with ⟨-, rfl⟩ | ⟨rfl, -⟩
    · decide
    · exact absurd hb (by decide)
  exact absurd hsource (Nat.not_le.mpr hdestination)

theorem offers : (heap n).Offers pool ⟨8⟩ ⟨1⟩ (.ref ⟨4⟩) where
  plain := plain_pair n
  fits := ⟨_, typedBy n, .ref ⟨_, rfl, rfl⟩ ⟨_, _, below_pair, Or.inr rfl⟩⟩
  disjoint := disjoint n

/-- The one point that the pair holds is filled from a point. -/
theorem fills_point {u : Value} {a b : Address}
    (h : (heap n).Fills pool ⟨7⟩ (.ref b) (.ref ⟨0⟩) u a) : u = .ref b ∧ a = ⟨0⟩ := by
  cases h with
  | here _ _ _ _ => exact ⟨rfl, rfl⟩
  | @inside _ _ _ i _ _ _ w e _ _ _ _ _ _ he h =>
    match i with
    | 0 =>
      cases he
      cases h with
      | inside _ _ _ _ he _ => cases he
    | i + 1 => cases he

theorem fills_pair {u : Value} {a : Address}
    (h : (heap n).Fills pool ⟨8⟩ (.ref ⟨4⟩) (.ref ⟨1⟩) u a) :
    u = .ref ⟨4⟩ ∧ a = ⟨1⟩ ∨ (u = .ref ⟨2⟩ ∨ u = .ref ⟨3⟩) ∧ a = ⟨0⟩ := by
  cases h with
  | here _ _ _ _ => exact Or.inl ⟨rfl, rfl⟩
  | @inside _ _ _ i _ _ _ w e _ _ hb _ hm hw he h =>
    obtain ⟨rfl, rfl⟩ := hb.unique below_pair
    match i with
    | 0 =>
      cases hm
      cases hw
      cases he
      obtain ⟨rfl, rfl⟩ := fills_point n h
      exact Or.inr ⟨Or.inl rfl, rfl⟩
    | 1 =>
      cases hm
      cases hw
      cases he
      obtain ⟨rfl, rfl⟩ := fills_point n h
      exact Or.inr ⟨Or.inr rfl, rfl⟩
    | i + 2 => cases he

/-- Equal points may be filled into one. -/
theorem consistent : (heap 1).Consistent pool ⟨8⟩ ⟨1⟩ (.ref ⟨4⟩) := by
  intro u u' a h h'
  have hequal : ∀ u ∈ [Value.ref ⟨2⟩, .ref ⟨3⟩], ∀ u' ∈ [Value.ref ⟨2⟩, .ref ⟨3⟩],
      (heap 1).equal u u' = true := by decide +kernel
  rcases fills_pair 1 h with ⟨rfl, rfl⟩ | ⟨hu, rfl⟩
  · rcases fills_pair 1 h' with ⟨rfl, -⟩ | ⟨-, ha⟩
    · decide +kernel
    · cases ha
  · rcases fills_pair 1 h' with ⟨-, ha⟩ | ⟨hu', -⟩
    · cases ha
    · exact hequal u (by simpa using hu) u' (by simpa using hu')

theorem no_insertable (shape : ShapeId) (known : Descriptor) (element : Option ShapeId)
    (h : pool.descriptor shape = .ok known) : known.kind ≠ .collection .insertable element := by
  have hall : pool.slots.all (fun slot => slot.descriptor?.all
    fun d => d.family? != some .insertable) = true := by decide +kernel
  have hfamily := Pool.of_descriptors hall h
  intro hkind
  simp [Descriptor.family?, hkind] at hfamily

end Twins

/-- A pair that holds one point twice is filled from a pair of equal points. -/
theorem Session.Reachable.exists_overwrites_twins :
    (Twins.heap 1).Offers Twins.pool ⟨8⟩ ⟨1⟩ (.ref ⟨4⟩) ∧
    (Twins.heap 1).Consistent Twins.pool ⟨8⟩ ⟨1⟩ (.ref ⟨4⟩) ∧
    ∃ r s', Session.getOrCompile ⟨0⟩ ⟨8⟩ ⟨8⟩ Mapping.initial
        (Session.opening Twins.operations (Twins.heap 1)) = .ok r s' ∧
      s'.heap = Twins.heap 1 ∧ ∀ state, r.Overwrites s' ⟨1⟩ (.ref ⟨4⟩) state := by
  have hpool : (Session.opening Twins.operations (Twins.heap 1)).pool = Twins.pool := Twins.pool_eq
  have hdescriptor : Twins.pool.descriptor ⟨8⟩ = .ok Twins.pair := rfl
  have h := Session.reachable_opening Twins.operations (Twins.heap 1) (· = Mapping.initial)
  have halive : (Session.opening Twins.operations (Twins.heap 1)).registryAlive ⟨0⟩ = true := rfl
  obtain ⟨r, s', hrun, hheap, -, hall⟩ := Session.Reachable.exists_overwrites h rfl
    (fun m hm _ => hm ▸ Mapping.standard_initial) halive (hpool ▸ Twins.copyable)
    (hpool ▸ Twins.no_insertable) (hpool ▸ hdescriptor) rfl
  refine ⟨Twins.offers 1, Twins.consistent, r, s', hrun, hheap, fun state => ?_⟩
  obtain ⟨s'', hreturns, hequal⟩ := hall ⟨1⟩ (.ref ⟨4⟩) state (hpool ▸ Twins.offers 1) nofun
  exact ⟨s'', hreturns, hequal (hpool ▸ Twins.consistent)⟩

/-- A pair that holds one point twice cannot be filled from a pair of two different points, and no
pair can be filled from null. -/
theorem Routine.exists_not_overwrites :
    Twins.pool.Copyable ∧
    (∀ shape known element, Twins.pool.descriptor shape = .ok known →
      known.kind ≠ .collection .insertable element) ∧
    Twins.pool.descriptor ⟨8⟩ = .ok Twins.pair ∧ Twins.pair.kind = .record ∧
    Twins.pair.valueType = false ∧
    (Twins.heap 2).Offers Twins.pool ⟨8⟩ ⟨1⟩ (.ref ⟨4⟩) ∧
    (Twins.heap 2).Offers Twins.pool ⟨8⟩ ⟨1⟩ .null ∧
    ∃ r s', Session.getOrCompile ⟨0⟩ ⟨8⟩ ⟨8⟩ Mapping.initial
        (Session.opening Twins.operations (Twins.heap 2)) = .ok r s' ∧
      s'.pool = Twins.pool ∧ s'.heap = Twins.heap 2 ∧
      ¬ r.Overwrites s' ⟨1⟩ (.ref ⟨4⟩) .null ∧ ¬ r.Overwrites s' ⟨1⟩ .null .null := by
  refine ⟨Twins.copyable, Twins.no_insertable, rfl, rfl, rfl, Twins.offers 2,
    ⟨.null, (Twins.offers 2).fits, fun a ha => absurd ha (Heap.not_reaches .null a)⟩, ?_⟩
  obtain ⟨hpool, hheap⟩ := Session.pool_and_heap_compiling Twins.operations (Twins.heap 2)
    Mapping.initial ⟨8⟩ ⟨8⟩
  refine ⟨Session.compiled Twins.operations (Twins.heap 2) Mapping.initial ⟨8⟩ ⟨8⟩,
    Session.compiling Twins.operations (Twins.heap 2) Mapping.initial ⟨8⟩ ⟨8⟩, rfl,
    hpool.trans Twins.pool_eq, hheap, fun h => ?_, fun h => ?_⟩
  · exact absurd (h.overwritesAt 3) (by decide +kernel)
  · exact absurd (h.overwritesAt 3) (by decide +kernel)

end Reshape
