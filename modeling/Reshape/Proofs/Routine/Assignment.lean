import Reshape.Proofs.Routine.Copying
import Reshape.Proofs.Value.Alike

/-!
# Objects that are being filled

A supplied record is filled where it is, and so are the records that it holds. Some of these may be
one object, met on several ways. An `Assignment` says which records may be filled into each object,
and which of its members are written already.

Any plain value may come where another one does (`Heap.Exchanges`). Filling is strict if the two are
to be alike, so that all records that are filled into one object are alike. Then a settled value
(`Assignment.Settled`) holds what it is to hold, if only it leads to objects all of whose members
are written.

What stands in a member is ready (`Assignment.Ready`) for a value if that may be filled into the
objects that it holds. `Assignment.Holds` is the invariant of a run. Instances are made
(`Assignment.Holds.alloc`) and members are written (`Assignment.Holds.write`) one after the other,
and some more is assigned and written from step to step (`Assignment.Extends`). If filling is
strict, what is settled in the end is equal to what it was made from (`Assignment.Holds.equal`).
-/

set_option linter.unusedSectionVars false

namespace Reshape

/-- The instances of the set are there, and refer to nothing outside it. -/
def Heap.Closed (heap : Heap) (p : Address → Prop) : Prop :=
  ∀ a, p a → ∃ i, heap.get? a = some i ∧ ∀ w ∈ i.parts, w.Within p

/-! ## Values that come in the same places -/

/-- The value is a record of the shape, held in place or as an object, that has the fields. -/
def Heap.Presents (heap : Heap) (shape : ShapeId) (known : Descriptor) (u : Value)
    (vs : List Value) : Prop :=
  known.valueType = true ∧ u.bare = .struct shape vs ∨ known.valueType = false ∧
    ∃ b, u = .ref b ∧ heap.get? b = some (.object shape vs.toArray)

/-- Where one of the plain values comes, the other one may come. If `strict`, they are alike. -/
structure Heap.Exchanges (strict : Prop) (pool : Pool) (heap : Heap) (place : ShapeId)
    (u v : Value) : Prop where
  left : heap.Plain pool u place
  right : heap.Plain pool v place
  alike : strict → heap.Alike u v

namespace Heap

variable {strict : Prop} {pool : Pool} {heap : Heap} {place shape : ShapeId} {known : Descriptor}
  {u v w : Value} {us vs : List Value}

namespace Presents

theorem ne_null (h : heap.Presents shape known u vs) : u ≠ .null := by
  rintro rfl
  rcases h with ⟨-, hu⟩ | ⟨-, _, hu, -⟩ <;> cases hu

theorem unique (h : heap.Presents shape known u us) (h' : heap.Presents shape known u vs) :
    us = vs := by
  rcases h with ⟨htype, hu⟩ | ⟨htype, b, rfl, hb⟩
  · rcases h' with ⟨-, hu'⟩ | ⟨htype', -⟩
    · cases hu.symm.trans hu'
      rfl
    · cases htype.symm.trans htype'
  · rcases h' with ⟨htype', -⟩ | ⟨-, c, hc, hb'⟩
    · cases htype.symm.trans htype'
    · cases hc
      cases hb.symm.trans hb'
      rfl

theorem bare (h : heap.Presents shape known u vs) (htype : known.valueType = true) :
    u.bare = .struct shape vs := by
  rcases h with ⟨-, hu⟩ | ⟨htype', -⟩
  · exact hu
  · cases htype.symm.trans htype'

theorem exists_ref (h : heap.Presents shape known u vs) (htype : known.valueType = false) :
    ∃ b, u = .ref b ∧ heap.get? b = some (.object shape vs.toArray) := by
  rcases h with ⟨htype', -⟩ | ⟨-, hu⟩
  · cases htype.symm.trans htype'
  · exact hu

/-- Records that are alike have fields that are. -/
theorem alike_fields (hu : heap.Presents shape known u us) (hv : heap.Presents shape known v vs)
    (h : heap.Alike u v) {i : Nat} {x y : Value} (hx : us[i]? = some x) (hy : vs[i]? = some y) :
    heap.Alike x y := by
  cases htype : known.valueType with
  | true =>
    obtain ⟨vs', hv', -, hfields⟩ := h.of_struct (hu.bare htype)
    cases (hv.bare htype).symm.trans hv'
    exact hfields i x y hx hy
  | false =>
    obtain ⟨b, rfl, hb⟩ := hu.exists_ref htype
    obtain ⟨c, rfl, hc⟩ := hv.exists_ref htype
    obtain ⟨c', vs', heq, hc', -, hfields⟩ := h.of_object hb
    cases heq
    cases hc.symm.trans hc'
    exact hfields i x y hx hy

end Presents

namespace Exchanges

theorem refl (h : heap.Plain pool u place) : heap.Exchanges strict pool place u u :=
  ⟨h, h, fun _ => h.alike_self⟩

theorem symm (h : heap.Exchanges strict pool place u v) : heap.Exchanges strict pool place v u :=
  ⟨h.right, h.left, fun hstrict => (h.alike hstrict).symm⟩

theorem trans (h : heap.Exchanges strict pool place u v)
    (h' : heap.Exchanges strict pool place v w) : heap.Exchanges strict pool place u w :=
  ⟨h.left, h'.right, fun hstrict => (h.alike hstrict).trans (h'.alike hstrict)⟩

theorem below_iff {below : ShapeId} (hb : pool.Below place below known) :
    heap.Exchanges strict pool below u v ↔ heap.Exchanges strict pool place u v := by
  constructor
  · exact fun h => ⟨(Plain.below_iff hb).mp h.left, (Plain.below_iff hb).mp h.right, h.alike⟩
  · exact fun h => ⟨(Plain.below_iff hb).mpr h.left, (Plain.below_iff hb).mpr h.right, h.alike⟩

/-- Where a record comes, others come whose fields may come where its own do. -/
theorem exists_presented (hpool : Pool.initial.GrowsTo pool) (hb : pool.Below shape shape known)
    (hkind : known.kind = .record) (h : heap.Exchanges strict pool shape u v)
    (hu : heap.Presents shape known u us) (hv : v ≠ .null) : ∃ vs,
      vs.length = known.members.length ∧ heap.Presents shape known v vs ∧
      ∀ (i : Nat) (x y : Value) (m : Member), us[i]? = some x → vs[i]? = some y →
        known.members[i]? = some m → heap.Exchanges strict pool m.shape x y := by
  obtain ⟨us', -, hplain, hu'⟩ := h.left.record_cases hpool hb hkind hu.ne_null
  obtain ⟨vs, hlength, hplain', hv'⟩ := h.right.record_cases hpool hb hkind hv
  obtain rfl : us = us' := hu.unique hu'
  refine ⟨vs, hlength, hv', fun i x y m hx hy hm => ?_⟩
  exact ⟨hplain i x m hx hm, hplain' i y m hy hm,
    fun hstrict => hu.alike_fields hv' (h.alike hstrict) hx hy⟩

end Exchanges

end Heap

/-- Which records may be filled into each object of a shape, and which members are written. -/
structure Assignment where
  given : Address → ShapeId → Value → Prop
  written : Address → Nat → Prop

namespace Assignment

/-- The records may be filled into the object, of which nothing is written. -/
def withRecords (A : Assignment) (a : Address) (records : ShapeId → Value → Prop) : Assignment where
  given c own u := A.given c own u ∨ c = a ∧ records own u
  written c i := A.written c i ∧ c ≠ a

/-- Members of the object are written. -/
def withWritten (A : Assignment) (a : Address) (numbers : Nat → Prop) : Assignment where
  given := A.given
  written c i := A.written c i ∨ c = a ∧ numbers i

/-! ## Values -/

/-- Nothing is to be filled into the instance. -/
def Free (A : Assignment) (a : Address) : Prop :=
  ∀ own u, ¬ A.given a own u

/-- All members of the object are written, and it is filled from records that the value is alike. -/
def Filled (A : Assignment) (start : Heap) (a : Address) (u : Value) : Prop :=
  (∃ own v, A.given a own v ∧ start.Alike u v) ∧ ∀ i, A.written a i

/-- The first value holds what the second held at the start, where objects that are filled from the
right record are taken to do so. -/
def Settled (A : Assignment) (start heap : Heap) : Value → Value → Prop :=
  start.Resembles heap A.Free (A.Filled start)

/-- In a place of the shape, the first value may be there when the second one comes, which may be
filled into the objects that it holds. -/
inductive Ready (A : Assignment) (pool : Pool) : ShapeId → Value → Value → Prop
  | null {place : ShapeId} {f : Value} : Ready A pool place f .null
  | blank {place : ShapeId} {f u : Value} (hf : f.Blank pool place) : Ready A pool place f u
  | other {place below : ShapeId} {known : Descriptor} {f u : Value}
    (hb : pool.Below place below known) (hkind : known.kind ≠ .record) : Ready A pool place f u
  | struct {place below : ShapeId} {known : Descriptor} {f u : Value} {fs us : List Value}
    (hb : pool.Below place below known) (hkind : known.kind = .record)
    (htype : known.valueType = true) (hf : f.unboxed = .struct below fs)
    (hu : u.bare = .struct below us) (hlength : fs.length = known.members.length)
    (hfields : ∀ (i : Nat) (f u : Value) (m : Member), fs[i]? = some f → us[i]? = some u →
      known.members[i]? = some m → Ready A pool m.shape f u) : Ready A pool place f u
  | object {place below : ShapeId} {known : Descriptor} {a : Address} {u : Value}
    (hb : pool.Below place below known) (hkind : known.kind = .record)
    (htype : known.valueType = false) (ha : A.given a below u) : Ready A pool place (.ref a) u

/-- It may be there when any value comes that may come where the second one does. -/
def Awaits (A : Assignment) (strict : Prop) (pool : Pool) (start : Heap) (place : ShapeId)
    (f u : Value) : Prop :=
  ∀ v, start.Exchanges strict pool place u v → A.Ready pool place f v

/-- The object is on its way to hold what the record held at the start. -/
inductive Tends (A : Assignment) (strict : Prop) (pool : Pool) (start heap : Heap) :
    Address → ShapeId → Value → Prop
  | intro {a b : Address} {shape : ShapeId} {known : Descriptor} {fields vs : List Value}
    (hb : pool.Below shape shape known) (hkind : known.kind = .record)
    (htype : known.valueType = false)
    (ha : heap.get? a = some (.object shape fields.toArray))
    (hv : start.get? b = some (.object shape vs.toArray))
    (hlength : fields.length = known.members.length) (hlength' : vs.length = known.members.length)
    (hready : ∀ (i : Nat) (f u : Value) (m : Member), fields[i]? = some f → vs[i]? = some u →
      known.members[i]? = some m → A.Ready pool m.shape f u)
    (hsettled : strict → ∀ (i : Nat) (f u : Value), fields[i]? = some f → vs[i]? = some u →
      A.written a i → A.Settled start heap f u) : Tends A strict pool start heap a shape (.ref b)

/-- The instances of the set are as at the start, and nothing is filled into them. All objects that
something is filled into are on their way. -/
structure Holds (A : Assignment) (strict : Prop) (pool : Pool) (start heap : Heap)
    (p : Address → Prop) : Prop where
  kept : ∀ a i, p a → start.get? a = some i → heap.get? a = some i
  apart : ∀ a, p a → A.Free a
  tends : ∀ a own u, A.given a own u → A.Tends strict pool start heap a own u
  closed : ∀ a own u v, A.given a own u → start.Exchanges strict pool own u v → v ≠ .null →
    A.given a own v
  exchanges : ∀ a own u v, A.given a own u → A.given a own v →
    start.Exchanges strict pool own u v

/-- More is assigned and written, and what is free stays as it is. -/
structure Extends (A : Assignment) (heap : Heap) (A' : Assignment) (heap' : Heap) : Prop where
  given : ∀ a own u, A.given a own u → A'.given a own u
  written : ∀ a own u i, A.given a own u → A.written a i → A'.written a i
  free : ∀ a i, A.Free a → heap.get? a = some i → A'.Free a ∧ heap'.get? a = some i

variable {strict : Prop} {A A' A'' : Assignment} {pool : Pool} {start heap heap' heap'' : Heap}
  {p : Address → Prop} {place own : ShapeId} {f u v w : Value} {a : Address}

namespace Extends

theorem of_kept (A : Assignment) (hk : heap.Kept heap') : A.Extends heap A heap' :=
  ⟨fun _ _ _ h => h, fun _ _ _ _ _ h => h, fun a i h hi => ⟨h, hk a i hi⟩⟩

theorem refl (A : Assignment) (heap : Heap) : A.Extends heap A heap :=
  of_kept A (.refl heap)

theorem trans (h : A.Extends heap A' heap') (h' : A'.Extends heap' A'' heap'') :
    A.Extends heap A'' heap'' := by
  refine ⟨fun a own u ha => h'.given a own u (h.given a own u ha), fun a own u i ha hi => ?_,
    fun a i ha hi => ?_⟩
  · exact h'.written a own u i (h.given a own u ha) (h.written a own u i ha hi)
  · obtain ⟨ha', hi'⟩ := h.free a i ha hi
    exact h'.free a i ha' hi'

/-- Members of an object are written, and nothing that is free is changed. -/
theorem withWritten (numbers : Nat → Prop)
    (hfree : ∀ c i, A.Free c → heap.get? c = some i → heap'.get? c = some i) :
    A.Extends heap (A.withWritten a numbers) heap' :=
  ⟨fun _ _ _ h => h, fun _ _ _ _ _ hi => Or.inl hi, fun c i hc hi => ⟨hc, hfree c i hc hi⟩⟩

end Extends

namespace Settled

theorem of_extends (h : A.Extends heap A' heap') (hw : A.Settled start heap w u) :
    A'.Settled start heap' w u := by
  refine Heap.Resembles.mono (fun a i => h.free a i) (fun a u ha => ?_) hw
  obtain ⟨⟨own, v, hv, halike⟩, hwritten⟩ := ha
  exact ⟨⟨own, v, h.given a own v hv, halike⟩, fun i => h.written a own v i hv (hwritten i)⟩

theorem of_alike (hv : start.Alike u v) (hw : A.Settled start heap w u) :
    A.Settled start heap w v := by
  refine Heap.Resembles.trans (fun a u v ha halike => ?_) hw hv
  obtain ⟨⟨own, v', hv', halike'⟩, hwritten⟩ := ha
  exact ⟨⟨own, v', hv', halike.symm.trans halike'⟩, hwritten⟩

end Settled

namespace Ready

theorem of_extends (h : A.Extends heap A' heap') (hf : A.Ready pool place f u) :
    A'.Ready pool place f u := by
  induction hf with
  | null => exact .null
  | blank hf => exact .blank hf
  | other hb hkind => exact .other hb hkind
  | struct hb hkind htype hf hu hlength _ ih => exact .struct hb hkind htype hf hu hlength ih
  | object hb hkind htype ha => exact .object hb hkind htype (h.given _ _ _ ha)

/-- Places with the same shape below them are alike. -/
theorem below_iff {below : ShapeId} {known : Descriptor} (hb : pool.Below place below known) :
    A.Ready pool below f u ↔ A.Ready pool place f u := by
  constructor
  · intro h
    cases h with
    | null => exact .null
    | blank hf => exact .blank ((Value.Fits.below_iff hb).mp hf)
    | other hb' hkind =>
      obtain ⟨rfl, rfl⟩ := hb.self.unique hb'
      exact .other hb hkind
    | struct hb' hkind htype hf hu hlength hfields =>
      obtain ⟨rfl, rfl⟩ := hb.self.unique hb'
      exact .struct hb hkind htype hf hu hlength hfields
    | object hb' hkind htype ha =>
      obtain ⟨rfl, rfl⟩ := hb.self.unique hb'
      exact .object hb hkind htype ha
  · intro h
    cases h with
    | null => exact .null
    | blank hf => exact .blank ((Value.Fits.below_iff hb).mpr hf)
    | other hb' hkind =>
      obtain ⟨rfl, rfl⟩ := hb.unique hb'
      exact .other hb.self hkind
    | struct hb' hkind htype hf hu hlength hfields =>
      obtain ⟨rfl, rfl⟩ := hb.unique hb'
      exact .struct hb.self hkind htype hf hu hlength hfields
    | object hb' hkind htype ha =>
      obtain ⟨rfl, rfl⟩ := hb.unique hb'
      exact .object hb.self hkind htype ha

theorem unboxed (hf : A.Ready pool place f u) : A.Ready pool place f.unboxed u := by
  cases hf with
  | null => exact .null
  | blank hf => exact .blank hf.unboxed
  | other hb hkind => exact .other hb hkind
  | struct hb hkind htype hf hu hlength hfields =>
    refine .struct hb hkind htype ?_ hu hlength hfields
    rw [hf]
    rfl
  | object hb hkind htype ha => exact .object hb hkind htype ha

theorem box (hf : A.Ready pool place f u) (h : Heap) : A.Ready pool place (h.box f).1 u := by
  cases hf with
  | null => exact .null
  | blank hf => exact .blank (hf.box h)
  | other hb hkind => exact .other hb hkind
  | struct hb hkind htype hf hu hlength hfields =>
    exact .struct hb hkind htype ((Heap.unboxed_box f h).trans hf) hu hlength hfields
  | object hb hkind htype ha => exact .object hb hkind htype ha

/-- A box around a primitive or a struct makes no difference. -/
theorem boxed {token : Token} {content : Value} (hc : content.IsContent)
    (hf : A.Ready pool place content u) : A.Ready pool place (.boxed token content) u := by
  cases hf with
  | null => exact .null
  | blank hf => exact .blank (.boxed hc hf)
  | other hb hkind => exact .other hb hkind
  | struct hb hkind htype hf hu hlength hfields =>
    have hcontent : content.unboxed = content := by cases content <;> first | rfl | exact hc.elim
    exact .struct hb hkind htype (hcontent.symm.trans hf) hu hlength hfields
  | object _ _ _ _ => exact hc.elim

/-- What is ready in the place of a record is a struct with fields that are, or an object. -/
theorem record_cases {shape : ShapeId} {known : Descriptor} (hb : pool.Below shape shape known)
    (hkind : known.kind = .record) (h : A.Ready pool shape f u) (hu : u ≠ .null) (hf : f ≠ .null) :
    (known.valueType = true ∧ ∃ fields, f.unboxed = .struct shape fields ∧
      fields.length = known.members.length ∧ ∀ us, u.bare = .struct shape us →
        ∀ (i : Nat) (f u : Value) (m : Member), fields[i]? = some f → us[i]? = some u →
          known.members[i]? = some m → A.Ready pool m.shape f u) ∨
      known.valueType = false ∧ ∃ a, f = .ref a ∧ A.given a shape u := by
  cases h with
  | null => exact absurd rfl hu
  | blank hf' =>
    obtain ⟨htype, fields, hd, hlength, hfields⟩ := hf'.record_cases hb hkind hf
    exact Or.inl ⟨htype, fields, hd, hlength, fun _ _ i f _ m hf _ hm =>
      .blank (hfields i f m hf hm)⟩
  | other hb' hkind' =>
    obtain ⟨-, rfl⟩ := hb.unique hb'
    exact absurd hkind hkind'
  | struct hb' _ htype hd hu' hlength hfields =>
    obtain ⟨rfl, rfl⟩ := hb.unique hb'
    refine Or.inl ⟨htype, _, hd, hlength, fun us hu => ?_⟩
    cases hu.symm.trans hu'
    exact hfields
  | object hb' _ htype ha =>
    obtain ⟨rfl, rfl⟩ := hb.unique hb'
    exact Or.inr ⟨htype, _, rfl, ha⟩

end Ready

namespace Awaits

theorem of_extends (h : A.Extends heap A' heap') (hf : A.Awaits strict pool start place f u) :
    A'.Awaits strict pool start place f u :=
  fun v hv => (hf v hv).of_extends h

theorem blank (hf : f.Blank pool place) : A.Awaits strict pool start place f u :=
  fun _ _ => .blank hf

theorem other {below : ShapeId} {known : Descriptor} (hb : pool.Below place below known)
    (hkind : known.kind ≠ .record) : A.Awaits strict pool start place f u :=
  fun _ _ => .other hb hkind

theorem below_iff {below : ShapeId} {known : Descriptor} (hb : pool.Below place below known) :
    A.Awaits strict pool start below f u ↔ A.Awaits strict pool start place f u := by
  constructor
  · exact fun h v hv => (Ready.below_iff hb).mp (h v ((Heap.Exchanges.below_iff hb).mpr hv))
  · exact fun h v hv => (Ready.below_iff hb).mpr (h v ((Heap.Exchanges.below_iff hb).mp hv))

theorem unboxed (hf : A.Awaits strict pool start place f u) :
    A.Awaits strict pool start place f.unboxed u :=
  fun v hv => (hf v hv).unboxed

theorem box (hf : A.Awaits strict pool start place f u) (h : Heap) :
    A.Awaits strict pool start place (h.box f).1 u :=
  fun v hv => (hf v hv).box h

end Awaits

/-! ## Steps -/

/-- An object that stays as it is stays on its way. -/
theorem Tends.of_extends (h : A.Extends heap A' heap')
    (hget : ∀ i, heap.get? a = some i → heap'.get? a = some i)
    (hwritten : ∀ i, A'.written a i → A.written a i)
    (ha : A.Tends strict pool start heap a own u) : A'.Tends strict pool start heap' a own u := by
  cases ha with
  | intro hb hkind htype ha hv hlength hlength' hready hsettled =>
    refine .intro hb hkind htype (hget _ ha) hv hlength hlength' ?_ fun hstrict => ?_
    · exact fun i f u m hf hu hm => (hready i f u m hf hu hm).of_extends h
    · exact fun i f u hf hu hi => (hsettled hstrict i f u hf hu (hwritten i hi)).of_extends h

/-- An object stays on its way if what is written to a member may come there. -/
theorem Tends.write {known : Descriptor} {number : Nat} {m : Member} {fields : List Value}
    (h : A.Extends heap A' heap') (hs : pool.descriptor own = .ok known)
    (hm : known.members[number]? = some m)
    (hget : heap.get? a = some (.object own fields.toArray))
    (hget' : heap'.get? a = some (.object own (fields.set number w).toArray))
    (hwritten : ∀ i, i ≠ number → A'.written a i → A.written a i)
    (hcomes : ∀ (b : Address) (vs : List Value) (v : Value), u = .ref b →
      start.get? b = some (.object own vs.toArray) → vs[number]? = some v →
        A.Ready pool m.shape w v ∧ (strict → A.Settled start heap w v))
    (ha : A.Tends strict pool start heap a own u) : A'.Tends strict pool start heap' a own u := by
  cases ha with
  | @intro b _ known' fields' vs hb hkind htype ha hv hlength hlength' hready hsettled =>
    cases hget.symm.trans ha
    obtain rfl := Except.ok.inj (hs.symm.trans hb.descriptor)
    have hlt : number < fields.length := hlength ▸ (List.getElem?_eq_some_iff.mp hm).1
    have hcases {i : Nat} {f : Value} (hf : (fields.set number w)[i]? = some f) :
        i = number ∧ f = w ∨ i ≠ number ∧ fields[i]? = some f := by
      by_cases hi : i = number
      · subst hi
        rw [List.getElem?_set_self hlt] at hf
        exact Or.inl ⟨rfl, (Option.some.inj hf).symm⟩
      · rw [List.getElem?_set_ne (Ne.symm hi)] at hf
        exact Or.inr ⟨hi, hf⟩
    refine .intro hb hkind htype hget' hv ((List.length_set ..).trans hlength) hlength' ?_
      fun hstrict => ?_
    · intro i f v m' hf hx hm'
      rcases hcases hf with ⟨rfl, rfl⟩ | ⟨-, hf⟩
      · obtain rfl := Option.some.inj (hm.symm.trans hm')
        exact (hcomes b vs v rfl hv hx).1.of_extends h
      · exact (hready i f v m' hf hx hm').of_extends h
    · intro i f v hf hx hi
      rcases hcases hf with ⟨rfl, rfl⟩ | ⟨hne, hf⟩
      · exact ((hcomes b vs v rfl hv hx).2 hstrict).of_extends h
      · exact (hsettled hstrict i f v hf hx (hwritten i hne hi)).of_extends h

theorem Tends.exists_get? (ha : A.Tends strict pool start heap a own u) :
    ∃ i, heap.get? a = some i ∧ i.shape = own := by
  cases ha with
  | intro _ _ _ ha _ _ _ _ _ => exact ⟨_, ha, rfl⟩

namespace Holds

/-- An instance that is not there yet is free. -/
theorem free_of_le (h : A.Holds strict pool start heap p) (ha : heap.size ≤ a.index) :
    A.Free a := by
  intro own u hu
  obtain ⟨_, hget, -⟩ := (h.tends a own u hu).exists_get?
  exact absurd (Heap.lt_size_of_get? hget) (Nat.not_lt.mpr ha)

/-- In the set, plain values are as plain as at the start. -/
theorem plain (hp : start.Closed p) (h : A.Holds strict pool start heap p) (hwithin : u.Within p)
    (hu : start.Plain pool u place) : heap.Plain pool u place := by
  induction hu with
  | null => exact .null
  | primitive hv hp hnan => exact .primitive hv hp hnan
  | @struct _ _ _ _ known hv hp hs hkind htype hlength _ ih =>
    refine .struct hv hp hs hkind htype hlength fun i w m hw hm => ih i w m hw hm fun a ha => ?_
    exact hwithin a (Value.mentions_of_bare (hv ▸ .struct (List.mem_of_getElem? hw) ha))
  | @object a _ _ _ known ha hp' hs hkind htype hlength _ ih =>
    have hpa : p a := Value.Within.ref.mp hwithin
    obtain ⟨i, hi, hparts⟩ := hp a hpa
    obtain rfl := Option.some.inj (ha.symm.trans hi)
    refine .object (h.kept a _ hpa ha) hp' hs hkind htype hlength fun i w m hw hm => ?_
    exact ih i w m hw hm (hparts w (Array.mem_toList_iff.mpr (Array.mem_of_getElem? hw)))
  | @seq a _ _ _ _ _ _ ha hp' hs hkind hfamily _ ih =>
    have hpa : p a := Value.Within.ref.mp hwithin
    obtain ⟨i, hi, hparts⟩ := hp a hpa
    obtain rfl := Option.some.inj (ha.symm.trans hi)
    refine .seq (h.kept a _ hpa ha) hp' hs hkind hfamily fun w hw => ih w hw ?_
    exact hparts w (Array.mem_toList_iff.mpr hw)

/-- In the set, values have the shapes that they had at the start. -/
theorem shape?_eq (hp : start.Closed p) (h : A.Holds strict pool start heap p)
    (hwithin : u.Within p) : start.shape? u = heap.shape? u := by
  refine (Heap.shape?_and_member?_eq fun a ha => ?_).1
  have hpa : p a := hwithin a (Value.mentions_of_bare (ha ▸ .ref a))
  obtain ⟨i, hi, -⟩ := hp a hpa
  exact hi.trans (h.kept a i hpa hi).symm

/-- A copy that is made of new instances is settled. -/
theorem settled_of_copied (hp : start.Closed p) (h : A.Holds strict pool start heap p)
    (hwithin : u.Within p) (hw : heap.Copied heap' heap.size w u) : A.Settled start heap' w u := by
  have hclosed (a : Address) (i : Instance) (ha : p a) (hi : heap.get? a = some i) :
      start.get? a = some i ∧ ∀ w ∈ i.parts, w.Within p := by
    obtain ⟨j, hj, hparts⟩ := hp a ha
    obtain rfl := Option.some.inj (hi.symm.trans (h.kept a j ha hj))
    exact ⟨hj, hparts⟩
  have hresembles := hw.resembles.of_start (fun a i ha hi => (hclosed a i ha hi).2)
    (fun a i ha hi => (hclosed a i ha hi).1) hwithin
  exact hresembles.mono (fun a i ha hi => ⟨h.free_of_le ha, hi⟩) fun _ _ h => h.elim

/-- Instances may be added, as long as none is changed. -/
theorem of_kept (hk : heap.Kept heap') (h : A.Holds strict pool start heap p) :
    A.Holds strict pool start heap' p := by
  refine ⟨fun a i ha hi => hk a i (h.kept a i ha hi), h.apart, fun a own u hu => ?_, h.closed,
    h.exchanges⟩
  exact (h.tends a own u hu).of_extends (.of_kept A hk) (hk a) fun _ hi => hi

/-- Whatever may come where the record does may be filled into a new object of zero values. -/
theorem alloc {b : Address} {shape : ShapeId} {known : Descriptor} {fields vs : List Value}
    (hpool : Pool.initial.GrowsTo pool) (hp : start.Closed p)
    (h : A.Holds strict pool start heap p) (hb : pool.Below shape shape known)
    (hkind : known.kind = .record) (htype : known.valueType = false)
    (hu : start.Plain pool (.ref b) shape)
    (hv : start.get? b = some (.object shape vs.toArray))
    (hlength : fields.length = known.members.length)
    (hblank : ∀ (i : Nat) (f : Value) (m : Member), fields[i]? = some f →
      known.members[i]? = some m → f.Blank pool m.shape) :
    ∃ A', A.Extends heap A' (heap.alloc (.object shape fields.toArray)).2 ∧
      A'.Holds strict pool start (heap.alloc (.object shape fields.toArray)).2 p ∧
      A'.given ⟨heap.size⟩ shape (.ref b) := by
  have hk : heap.Kept (heap.alloc (.object shape fields.toArray)).2 := .alloc heap _
  have hne {a : Address} {i : Instance} (hi : heap.get? a = some i) : a ≠ ⟨heap.size⟩ := by
    rintro rfl
    cases (heap.get?_size).symm.trans hi
  have hnew : A.Free ⟨heap.size⟩ := h.free_of_le (Nat.le_refl _)
  have hextends : A.Extends heap
      (A.withRecords ⟨heap.size⟩ fun own u => own = shape ∧ u ≠ .null ∧
        start.Exchanges strict pool shape (.ref b) u)
      (heap.alloc (.object shape fields.toArray)).2 := by
    refine ⟨fun a own u hu => Or.inl hu, fun a own u i hu hi => ⟨hi, ?_⟩,
      fun a i ha hi => ⟨?_, hk a i hi⟩⟩
    · rintro rfl
      exact hnew own u hu
    · rintro own u (hu | ⟨heq, -⟩)
      · exact ha own u hu
      · exact hne hi heq
  refine ⟨_, hextends, ⟨fun a i ha hi => hk a i (h.kept a i ha hi), fun a ha => ?_,
    fun a own u hgiven => ?_, ?_, ?_⟩, Or.inr ⟨rfl, rfl, nofun, .refl hu⟩⟩
  · obtain ⟨i, hi, -⟩ := hp a ha
    exact (hextends.free a i (h.apart a ha) (h.kept a i ha hi)).1
  · rcases hgiven with hgiven | ⟨rfl, rfl, hnull, hexchanges⟩
    · exact (h.tends a own u hgiven).of_extends hextends (hk a) fun i hi => hi.1
    · obtain ⟨us, hlength', hus, -⟩ := hexchanges.exists_presented hpool hb hkind
        (Or.inr ⟨htype, b, rfl, hv⟩) hnull
      obtain ⟨c, rfl, hc⟩ := hus.exists_ref htype
      refine .intro hb hkind htype (heap.get?_alloc_size _) hc hlength hlength' ?_ fun _ => ?_
      · exact fun i f u m hf _ hm => .blank (hblank i f m hf hm)
      · exact fun i f u _ _ hi => absurd rfl hi.2
  · rintro a own u v (hgiven | ⟨rfl, rfl, -, hexchanges⟩) hv hnull
    · exact Or.inl (h.closed a own u v hgiven hv hnull)
    · exact Or.inr ⟨rfl, rfl, hnull, hexchanges.trans hv⟩
  · rintro a own u v (hu | ⟨rfl, rfl, -, hu⟩) (hv | ⟨heq, -, -, hv⟩)
    · exact h.exchanges a own u v hu hv
    · exact absurd hu (heq ▸ hnew own u)
    · exact absurd hv (hnew own v)
    · exact hu.symm.trans hv

/-- What comes in a member of a record may come in that of another one filled into the object. -/
theorem exchanges_field {shape : ShapeId} {known : Descriptor} {us vs : List Value} {number : Nat}
    {m : Member} {x y : Value} (hpool : Pool.initial.GrowsTo pool)
    (h : A.Holds strict pool start heap p) (hb : pool.Below shape shape known)
    (hkind : known.kind = .record) (hu : A.given a shape u) (hv : A.given a shape v)
    (hus : start.Presents shape known u us) (hvs : start.Presents shape known v vs)
    (hx : us[number]? = some x) (hy : vs[number]? = some y) (hm : known.members[number]? = some m) :
    start.Exchanges strict pool m.shape x y := by
  obtain ⟨vs', -, hvs', hfields⟩ :=
    (h.exchanges a shape u v hu hv).exists_presented hpool hb hkind hus hvs.ne_null
  obtain rfl := hvs'.unique hvs
  exact hfields number x y m hx hy hm

/-- A member of an object is written. -/
theorem write {number : Nat} {known : Descriptor} {m : Member} {b : Address} {shape : ShapeId}
    {vs : List Value} (hpool : Pool.initial.GrowsTo pool) (h : A.Holds strict pool start heap p)
    (ha : A.given a shape (.ref b)) (hv : start.get? b = some (.object shape vs.toArray))
    (hs : pool.descriptor shape = .ok known) (hm : known.members[number]? = some m)
    (hu : vs[number]? = some u) (hready : A.Awaits strict pool start m.shape w u)
    (hsettled : strict → A.Settled start heap w u) :
    (heap.writeMember (.ref a) number w).1 = .ref a ∧
      ∃ A', A.Extends heap A' (heap.writeMember (.ref a) number w).2 ∧
        A'.Holds strict pool start (heap.writeMember (.ref a) number w).2 p ∧
        A'.written a number := by
  cases h.tends a _ _ ha with
  | @intro _ _ known' fields vs' hb hkind htype hget hv' _ _ _ _ =>
    cases hv.symm.trans hv'
    obtain rfl := Except.ok.inj (hs.symm.trans hb.descriptor)
    have hwrite : heap.writeMember (.ref a) number w = (.ref a, heap.replace a number w) := by
      simp only [Heap.writeMember, hget]
    rw [hwrite]
    have hself : (heap.replace a number w).get? a =
        some (.object shape (fields.set number w).toArray) := by
      rw [Heap.replace, Heap.get?_modifyContents, if_pos rfl, hget]
      simp [Instance.mapContents]
    have hother (c : Address) (hc : c ≠ a) : (heap.replace a number w).get? c = heap.get? c := by
      rw [Heap.replace, Heap.get?_modifyContents, if_neg (Ne.symm hc)]
    have hfree (c : Address) (i : Instance) (hc : A.Free c) (hi : heap.get? c = some i) :
        (heap.replace a number w).get? c = some i := by
      refine (hother c ?_).trans hi
      rintro rfl
      exact hc shape _ ha
    have hextends : A.Extends heap (A.withWritten a (· = number)) (heap.replace a number w) :=
      .withWritten _ hfree
    refine ⟨rfl, _, hextends, ⟨fun c i hc hi => hfree c i (h.apart c hc) (h.kept c i hc hi),
      h.apart, fun c own u' hu' => ?_, h.closed, h.exchanges⟩, Or.inr ⟨rfl, rfl⟩⟩
    by_cases hc : c = a
    · subst hc
      obtain ⟨i, hi, rfl⟩ := (h.tends c own u' hu').exists_get?
      obtain rfl := Option.some.inj (hget.symm.trans hi)
      refine (h.tends c _ u' hu').write hextends hs hm hget hself
        (fun i hne hi => hi.resolve_right fun heq => hne heq.2) fun b' us v href hus hx => ?_
      -- What is written for the one record may come where the other one is filled in.
      have hcomes : start.Exchanges strict pool m.shape u v :=
        h.exchanges_field hpool hb hkind ha hu' (Or.inr ⟨htype, b, rfl, hv'⟩)
          (Or.inr ⟨htype, b', href, hus⟩) hu hx hm
      exact ⟨hready v hcomes, fun hstrict => (hsettled hstrict).of_alike (hcomes.alike hstrict)⟩
    · exact (h.tends c own u' hu').of_extends hextends (fun i hi => (hother c hc).trans hi)
        fun i hi => hi.resolve_right fun heq => hc heq.1

/-- All members of an object are written, once those that it has are. -/
theorem complete {known : Descriptor} {shape : ShapeId} (h : A.Holds strict pool start heap p)
    (ha : A.given a shape u) (hs : pool.descriptor shape = .ok known)
    (hwritten : ∀ i, i < known.members.length → A.written a i) :
    ∃ A', A.Extends heap A' heap ∧ A'.Holds strict pool start heap p ∧ A'.given a shape u ∧
      ∀ i, A'.written a i := by
  have hextends : A.Extends heap (A.withWritten a fun _ => True) heap :=
    .withWritten _ fun _ _ _ hi => hi
  refine ⟨_, hextends, ⟨h.kept, h.apart, fun c own u' hu' => ?_, h.closed, h.exchanges⟩, ha,
    fun i => Or.inr ⟨rfl, trivial⟩⟩
  by_cases hc : c = a
  · subst hc
    obtain ⟨i, hi, rfl⟩ := (h.tends c _ _ ha).exists_get?
    cases h.tends c own u' hu' with
    | @intro _ _ known' fields vs hb hkind htype hget hv hlength hlength' hready hsettled =>
      obtain rfl := Option.some.inj (hi.symm.trans hget)
      obtain rfl := Except.ok.inj (hs.symm.trans hb.descriptor)
      refine .intro hb hkind htype hget hv hlength hlength' ?_ fun hstrict => ?_
      · exact fun i f u m hf hu hm => (hready i f u m hf hu hm).of_extends hextends
      · intro i f u hf hu _
        have hlt : i < known.members.length := hlength ▸ (List.getElem?_eq_some_iff.mp hf).1
        exact (hsettled hstrict i f u hf hu (hwritten i hlt)).of_extends hextends
  · exact (h.tends c own u' hu').of_extends hextends (fun i hi => hi)
      fun i hi => hi.resolve_right fun heq => hc heq.1

end Holds

/-! ## Records -/

/-- The members of the record before the number are settled for the values `vs` of the record `u`,
and those from it on are ready for them. -/
inductive Underway (A : Assignment) (strict : Prop) (pool : Pool) (start heap : Heap)
    (shape : ShapeId) (known : Descriptor) (u : Value) (vs : List Value) : Value → Nat → Prop
  | struct {fields : List Value} {number : Nat} (htype : known.valueType = true)
    (hu : u.bare = .struct shape vs) (hlength : fields.length = known.members.length)
    (hready : ∀ (i : Nat) (f v : Value) (m : Member), number ≤ i → fields[i]? = some f →
      vs[i]? = some v → known.members[i]? = some m → A.Ready pool m.shape f v)
    (hawaits : ∀ (i : Nat) (f v : Value) (m : Member), i < number → fields[i]? = some f →
      vs[i]? = some v → known.members[i]? = some m → A.Awaits strict pool start m.shape f v)
    (hsettled : strict → ∀ (i : Nat) (f v : Value), i < number → fields[i]? = some f →
      vs[i]? = some v → A.Settled start heap f v) :
    Underway A strict pool start heap shape known u vs (.struct shape fields) number
  | object {a b : Address} {number : Nat} (htype : known.valueType = false)
    (hu : u = .ref b) (hb : start.get? b = some (.object shape vs.toArray))
    (ha : A.given a shape u) (hwritten : ∀ i, i < number → A.written a i) :
    Underway A strict pool start heap shape known u vs (.ref a) number

namespace Underway

variable {shape : ShapeId} {known : Descriptor} {vs : List Value} {record : Value} {number : Nat}

/-- A struct whose fields are ready is to be filled. -/
theorem of_ready {fields : List Value} (htype : known.valueType = true)
    (hu : u.bare = .struct shape vs) (hlength : fields.length = known.members.length)
    (hready : ∀ (i : Nat) (f v : Value) (m : Member), fields[i]? = some f → vs[i]? = some v →
      known.members[i]? = some m → A.Ready pool m.shape f v) :
    A.Underway strict pool start heap shape known u vs (.struct shape fields) 0 :=
  .struct htype hu hlength (fun i f v m _ => hready i f v m)
    (fun _ _ _ _ hi => absurd hi (Nat.not_lt_zero _)) fun _ _ _ _ hi =>
      absurd hi (Nat.not_lt_zero _)

theorem ne_null (h : A.Underway strict pool start heap shape known u vs record number) :
    record ≠ .null := by
  cases h <;> exact nofun

theorem of_extends (hmore : A.Extends heap A' heap')
    (h : A.Underway strict pool start heap shape known u vs record number) :
    A'.Underway strict pool start heap' shape known u vs record number := by
  cases h with
  | struct htype hu hlength hready hawaits hsettled =>
    refine .struct htype hu hlength ?_ ?_ fun hstrict => ?_
    · exact fun i f v m hi hf hv hm => (hready i f v m hi hf hv hm).of_extends hmore
    · exact fun i f v m hi hf hv hm => (hawaits i f v m hi hf hv hm).of_extends hmore
    · exact fun i f v hi hf hv => (hsettled hstrict i f v hi hf hv).of_extends hmore
  | object htype hu hb ha hwritten =>
    exact .object htype hu hb (hmore.given _ _ _ ha)
      fun i hi => hmore.written _ _ _ i ha (hwritten i hi)

/-- The next member of the record is ready. -/
theorem shows (hA : A.Holds strict pool start heap p) (hshape : pool.Below shape shape known)
    (h : A.Underway strict pool start heap shape known u vs record number) {m : Member}
    (hm : known.members[number]? = some m) (hv : vs[number]? = some v) :
    heap.shape? record = some shape ∧
      ∃ f, heap.member? record number = some f ∧ A.Ready pool m.shape f v := by
  cases h with
  | struct htype hu hlength hready _ _ =>
    have hf := List.getElem?_eq_getElem (hlength ▸ (List.getElem?_eq_some_iff.mp hm).1)
    exact ⟨rfl, _, hf, hready number _ v m (Nat.le_refl _) hf hv hm⟩
  | @object a b _ htype hu hb ha _ =>
    subst hu
    cases hA.tends a _ _ ha with
    | @intro _ _ known' fields vs' hshape' _ _ hget hb' hlength _ hready _ =>
      cases hb.symm.trans hb'
      obtain ⟨-, rfl⟩ := hshape.unique hshape'
      have hf := List.getElem?_eq_getElem (hlength ▸ (List.getElem?_eq_some_iff.mp hm).1)
      refine ⟨congrArg (Option.map Instance.shape) hget, _, ?_, hready number _ v m hf hv hm⟩
      rw [Heap.member?_ref, hget]
      exact List.getElem?_toArray.trans hf

/-- One more member is written. -/
theorem write (hpool : Pool.initial.GrowsTo pool) (hA : A.Holds strict pool start heap p)
    (hshape : pool.Below shape shape known)
    (h : A.Underway strict pool start heap shape known u vs record number) {m : Member}
    (hm : known.members[number]? = some m) (hv : vs[number]? = some v)
    (hawaits : A.Awaits strict pool start m.shape w v)
    (hsettled : strict → A.Settled start heap w v) :
    ∃ A', A.Extends heap A' (heap.writeMember record number w).2 ∧
      A'.Holds strict pool start (heap.writeMember record number w).2 p ∧
      A'.Underway strict pool start (heap.writeMember record number w).2 shape known u vs
        (heap.writeMember record number w).1 (number + 1) ∧
      ∀ a, record = .ref a → (heap.writeMember record number w).1 = .ref a := by
  cases h with
  | @struct fields _ htype hu hlength hready hawaits' hsettled' =>
    have hcases {i : Nat} {f : Value} (hi : i < number + 1)
        (hf : (fields.set number w)[i]? = some f) :
        i = number ∧ f = w ∨ i < number ∧ fields[i]? = some f := by
      rcases Nat.lt_succ_iff_lt_or_eq.mp hi with hi | rfl
      · rw [List.getElem?_set_ne (by omega)] at hf
        exact Or.inr ⟨hi, hf⟩
      · have hlt : i < fields.length := hlength ▸ (List.getElem?_eq_some_iff.mp hm).1
        rw [List.getElem?_set_self hlt] at hf
        exact Or.inl ⟨rfl, (Option.some.inj hf).symm⟩
    refine ⟨A, .refl A heap, hA, .struct htype hu ((List.length_set ..).trans hlength) ?_ ?_
      (fun hstrict => ?_), nofun⟩
    · intro i f v' m' hi hf hv' hm'
      rw [List.getElem?_set_ne (by omega)] at hf
      exact hready i f v' m' (by omega) hf hv' hm'
    · intro i f v' m' hi hf hv' hm'
      rcases hcases hi hf with ⟨rfl, rfl⟩ | ⟨hi, hf⟩
      · obtain rfl := Option.some.inj (hv.symm.trans hv')
        obtain rfl := Option.some.inj (hm.symm.trans hm')
        exact hawaits
      · exact hawaits' i f v' m' hi hf hv' hm'
    · intro i f v' hi hf hv'
      rcases hcases hi hf with ⟨rfl, rfl⟩ | ⟨hi, hf⟩
      · obtain rfl := Option.some.inj (hv.symm.trans hv')
        exact hsettled hstrict
      · exact hsettled' hstrict i f v' hi hf hv'
  | @object a b _ htype hu hb ha hwritten =>
    subst hu
    obtain ⟨heq, A', hmore, hA', hnumber⟩ :=
      hA.write hpool ha hb hshape.descriptor hm hv hawaits hsettled
    rw [heq]
    refine ⟨A', hmore, hA', .object htype rfl hb (hmore.given a _ _ ha) fun i hi => ?_,
      fun _ h => h⟩
    rcases Nat.lt_succ_iff_lt_or_eq.mp hi with hi | rfl
    · exact hmore.written a _ _ i ha (hwritten i hi)
    · exact hnumber

/-- A record all of whose members are written is settled. -/
theorem complete (hpool : Pool.initial.GrowsTo pool) (hA : A.Holds strict pool start heap p)
    (hshape : pool.Below shape shape known) (hkind : known.kind = .record)
    (hlength : vs.length = known.members.length)
    (h : A.Underway strict pool start heap shape known u vs record known.members.length) :
    ∃ A', A.Extends heap A' heap ∧ A'.Holds strict pool start heap p ∧
      (strict → A'.Settled start heap record u) ∧
      A'.Awaits strict pool start shape record u := by
  cases h with
  | @struct fields _ htype hu hlength' hready hawaits hsettled =>
    have hlt {i : Nat} {f : Value} (hf : fields[i]? = some f) : i < known.members.length :=
      hlength' ▸ (List.getElem?_eq_some_iff.mp hf).1
    refine ⟨A, .refl A heap, hA, fun hstrict => ?_, fun v hv => ?_⟩
    · refine .struct rfl hu (hlength'.trans hlength.symm) fun i f v hf hv => ?_
      exact hsettled hstrict i f v (hlt hf) hf hv
    · by_cases hnull : v = .null
      · exact hnull ▸ .null
      · obtain ⟨us, -, hus, hfields⟩ :=
          hv.exists_presented hpool hshape hkind (Or.inl ⟨htype, hu⟩) hnull
        refine .struct hshape hkind htype rfl (hus.bare htype) hlength' fun i f x m hf hx hm => ?_
        have hi := List.getElem?_eq_getElem (hlength ▸ hlt hf)
        exact hawaits i f _ m (hlt hf) hf hi hm x (hfields i _ x m hi hx hm)
  | @object a b _ htype hu hb ha hwritten =>
    obtain ⟨A', hmore, hA', ha', hall⟩ := hA.complete ha hshape.descriptor hwritten
    refine ⟨A', hmore, hA', fun _ => ?_, fun v hv => ?_⟩
    · have hplain := (hA'.exchanges a shape u u ha' ha').left
      exact .taken ⟨⟨shape, u, ha', hplain.alike_self⟩, hall⟩
    · by_cases hnull : v = .null
      · exact hnull ▸ .null
      · exact .object hshape hkind htype (hA'.closed a shape u v ha' hv hnull)

end Underway

/-! ## The end -/

/-- What is settled in the end is alike the plain value that it is to hold. -/
theorem Holds.resembles (h : A.Holds strict pool start heap p) (hstrict : strict)
    (hu : start.Plain pool u place) (hw : A.Settled start heap w u) :
    start.Resembles heap (fun _ => True) (fun _ _ => False) w u := by
  refine Heap.Plain.parts_induction (motive := fun u => ∀ w, A.Settled start heap w u →
    start.Resembles heap (fun _ => True) (fun _ _ => False) w u) (fun u place hu ih w hw => ?_) hu w
      hw
  cases hw with
  | null => exact .null
  | primitive h => exact .primitive h
  | struct hw hv hlength hfields =>
    refine .struct hw hv hlength fun i w v hi hj => ih v ?_ w (hfields i w v hi hj)
    rw [Heap.parts_of_struct start hv]
    exact List.mem_of_getElem? hj
  | ref _ ha hb hij hcontents =>
    refine .ref trivial ha hb hij fun n w v hi hj => ih v ?_ w (hcontents n w v hi hj)
    rw [Heap.parts_ref hb]
    exact Array.mem_toList_iff.mpr (Array.mem_of_getElem? hj)
  | @taken a u hfilled =>
    obtain ⟨⟨own, v, hv, halike⟩, hwritten⟩ := hfilled
    cases h.tends a own v hv with
    | @intro _ _ known fields vs _ _ _ ha hb hlength hlength' _ hsettled =>
      obtain ⟨c, us, rfl, hc, hsize, hfields⟩ := halike.symm.of_object hb
      have hsize' : fields.toArray.size = us.toArray.size :=
        (hlength.trans hlength'.symm).trans hsize
      refine .ref trivial ha hc (.object own hsize') fun n w u hw hu => ?_
      have hw' : fields[n]? = some w := by simpa [Instance.contents] using hw
      have hu' : us[n]? = some u := by simpa [Instance.contents] using hu
      have hlt : n < vs.length := hsize.symm ▸ (List.getElem?_eq_some_iff.mp hu').1
      have hv := List.getElem?_eq_getElem hlt
      have hsettled := hsettled hstrict n w _ hw' hv (hwritten n)
      refine ih u ?_ w (hsettled.of_alike (hfields n _ u hv hu'))
      rw [Heap.parts_ref hc]
      exact List.mem_of_getElem? hu'

/-- What is settled in the end is equal to the plain value that it is to hold. -/
theorem Holds.equal (hp : start.Closed p) (h : A.Holds strict pool start heap p)
    (hstrict : strict) (hu : start.Plain pool u place) (hwithin : u.Within p)
    (hw : A.Settled start heap w u) : heap.equal w u = true := by
  have halike : heap.Alike w u := (h.resembles hstrict hu hw).of_start
    (fun a i ha hi => by
      obtain ⟨j, hj, hparts⟩ := hp a ha
      obtain rfl := Option.some.inj (hi.symm.trans hj)
      exact hparts) h.kept hwithin
  exact halike.equal

end Assignment

end Reshape
