import Reshape.Proofs.Pool.Below
import Reshape.Proofs.Value.Heap

/-!
# Values of a shape

`Value.Fits` says that a value conforms to a shape : null always does ; a primitive, a struct or a
box around one does by its kind or its shape and the shapes of its fields ; a reference does by the
shape that `typed` gives to its address. `Heap.TypedBy` says that what stands at those addresses has
the shape given to it, and holds what conforms to the shapes of its members or elements.

Zero values conform to their shapes and refer to nothing (`Pool.fits_of_zeroValue`,
`Pool.within_of_zeroValue`), and so do the fields that an object starts with.
-/

set_option linter.unusedSectionVars false

namespace Reshape

/-! ## Values -/

/-- The value conforms to the shape. -/
inductive Value.Fits (pool : Pool) (typed : Address → ShapeId → Prop) : Value → ShapeId → Prop
  | null {place : ShapeId} : Fits pool typed .null place
  | primitive {p : Primitive} {v : Value} {place : ShapeId} (hv : v.IsPrimitive p)
    (hp : pool.TakesPrimitive place p) : Fits pool typed v place
  | struct {shape : ShapeId} {fields : List Value} {place : ShapeId} {known : Descriptor}
    (hp : pool.Takes place shape) (hs : pool.descriptor shape = .ok known)
    (hkind : known.kind = .record) (htype : known.valueType = true)
    (hlength : fields.length = known.members.length)
    (hfields : ∀ (i : Nat) (v : Value) (m : Member), fields[i]? = some v →
      known.members[i]? = some m → Fits pool typed v m.shape) :
    Fits pool typed (.struct shape fields) place
  | boxed {token : Token} {content : Value} {place : ShapeId} (hc : content.IsContent)
    (h : Fits pool typed content place) : Fits pool typed (.boxed token content) place
  | ref {a : Address} {own place : ShapeId} (h : typed a own) (hp : pool.Takes place own) :
    Fits pool typed (.ref a) place

/-- The instance holds what conforms to its shape. -/
inductive Instance.Fits (pool : Pool) (typed : Address → ShapeId → Prop) (heap : Heap) :
    Instance → Prop
  | object {shape : ShapeId} {fields : Array Value} {known : Descriptor}
    (hs : pool.descriptor shape = .ok known) (hkind : known.kind = .record)
    (htype : known.valueType = false) (hlength : fields.size = known.members.length)
    (hfields : ∀ (i : Nat) (v : Value) (m : Member), fields[i]? = some v →
      known.members[i]? = some m → v.Fits pool typed m.shape) :
    Fits pool typed heap (.object shape fields)
  | seq {shape : ShapeId} {items : Array Value} {known : Descriptor} {family : Family}
    {element : Option ShapeId} (hs : pool.descriptor shape = .ok known)
    (hkind : known.kind = .collection family element)
    (hitems : ∀ v ∈ items, v.Fits pool typed (element.getD ShapeId.any)) :
    Fits pool typed heap (.seq shape items)
  | items {shape : ShapeId} {items : List Value} {known : Descriptor} {family : Family}
    {element : Option ShapeId} (hs : pool.descriptor shape = .ok known)
    (hkind : known.kind = .collection family element)
    (hitems : ∀ v ∈ items, v.Fits pool typed (element.getD ShapeId.any)) :
    Fits pool typed heap (.stream shape (.items items))
  | live {shape : ShapeId} {a : Address} {own : ShapeId} {items : Array Value} {known : Descriptor}
    {family : Family} {element : Option ShapeId} (hs : pool.descriptor shape = .ok known)
    (hkind : known.kind = .collection family element)
    (hsource : heap.get? a = some (.seq own items))
    (hitems : ∀ v ∈ items, v.Fits pool typed (element.getD ShapeId.any)) :
    Fits pool typed heap (.stream shape (.sequence a))

/-- What stands at the typed addresses has the shape given to it, and conforms to that. -/
def Heap.TypedBy (pool : Pool) (typed : Address → ShapeId → Prop) (heap : Heap) : Prop :=
  ∀ a own, typed a own → ∃ i, heap.get? a = some i ∧ i.shape = own ∧ i.Fits pool typed heap

/-- All objects and sequences are typed. -/
def Heap.Covered (typed : Address → ShapeId → Prop) (heap : Heap) : Prop :=
  ∀ a i, heap.get? a = some i → (∀ shape source, i ≠ .stream shape source) → typed a i.shape

/-- The types that instances have by their own shapes. -/
def Heap.shapes (heap : Heap) (a : Address) (own : ShapeId) : Prop :=
  ∃ i, heap.get? a = some i ∧ i.shape = own

theorem Heap.covered_shapes (heap : Heap) : heap.Covered heap.shapes :=
  fun _ i hi _ => ⟨i, hi, rfl⟩

namespace Value.Fits

variable {pool : Pool} {typed typed' : Address → ShapeId → Prop} {v : Value}
  {place below : ShapeId} {known : Descriptor}

theorem mono (h : ∀ a own, typed a own → typed' a own) (hv : v.Fits pool typed place) :
    v.Fits pool typed' place := by
  induction hv with
  | null => exact .null
  | primitive hv hp => exact .primitive hv hp
  | struct hp hs hkind htype hlength _ ih => exact .struct hp hs hkind htype hlength ih
  | boxed hc _ ih => exact .boxed hc ih
  | ref ha hp => exact .ref (h _ _ ha) hp

/-- A place that takes as much holds as much. -/
theorem of_takes {place' : ShapeId} (hp : ∀ own, pool.Takes place own → pool.Takes place' own)
    (hp' : ∀ p, pool.TakesPrimitive place p → pool.TakesPrimitive place' p)
    (hv : v.Fits pool typed place) : v.Fits pool typed place' := by
  induction hv with
  | null => exact .null
  | primitive hv h => exact .primitive hv (hp' _ h)
  | struct h hs hkind htype hlength hfields _ =>
    exact .struct (hp _ h) hs hkind htype hlength hfields
  | boxed hc _ ih => exact .boxed hc (ih hp hp')
  | ref ha h => exact .ref ha (hp _ h)

theorem below_iff (h : pool.Below place below known) :
    v.Fits pool typed below ↔ v.Fits pool typed place := by
  constructor
  · exact of_takes (fun _ => (Pool.takes_below_iff h).mp)
      fun _ => (Pool.takesPrimitive_below_iff h).mp
  · exact of_takes (fun _ => (Pool.takes_below_iff h).mpr)
      fun _ => (Pool.takesPrimitive_below_iff h).mpr

/-- What conforms to a shape conforms to `any`. -/
theorem any {place' : ShapeId} (h : pool.Below place' below known) (hany : known.kind = .any)
    (hv : v.Fits pool typed place) : v.Fits pool typed place' :=
  hv.of_takes (fun _ _ => ⟨_, _, h, Or.inl hany⟩) fun _ _ => ⟨_, _, h, Or.inl hany⟩

theorem of_includes {place' : ShapeId} (h : pool.Includes place place')
    (hv : v.Fits pool typed place) : v.Fits pool typed place' := by
  obtain ⟨below, known, hb, hany | hb'⟩ := h
  · exact hv.any hb hany
  · exact (below_iff hb).mp ((below_iff hb').mpr hv)

theorem unboxed (hv : v.Fits pool typed place) : v.unboxed.Fits pool typed place := by
  cases hv with
  | boxed _ h => exact h
  | null => exact .null
  | struct hp hs hkind htype hlength hfields =>
    exact .struct hp hs hkind htype hlength hfields
  | ref ha hp => exact .ref ha hp
  | @primitive p _ _ hv hp =>
    cases v <;> first | exact .primitive hv hp | (cases p <;> exact hv.elim)

theorem box (hv : v.Fits pool typed place) (heap : Heap) :
    (heap.box v).1.Fits pool typed place := by
  unfold Heap.box
  split
  · rename_i hinline
    refine .boxed ?_ hv
    cases v <;> trivial
  · exact hv

end Value.Fits

/-- A conforming instance conforms where more is typed, if what it reads stays what it is. -/
theorem Instance.Fits.mono {pool : Pool} {typed typed' : Address → ShapeId → Prop}
    {heap heap' : Heap} {i : Instance} (h : ∀ a own, typed a own → typed' a own)
    (hseq : ∀ shape a own items, i = .stream shape (.sequence a) →
      heap.get? a = some (.seq own items) → heap'.get? a = some (.seq own items))
    (hi : i.Fits pool typed heap) : i.Fits pool typed' heap' := by
  cases hi with
  | object hs hkind htype hlength hfields =>
    exact .object hs hkind htype hlength fun i v m hv hm => (hfields i v m hv hm).mono h
  | seq hs hkind hitems => exact .seq hs hkind fun v hv => (hitems v hv).mono h
  | items hs hkind hitems => exact .items hs hkind fun v hv => (hitems v hv).mono h
  | live hs hkind hsource hitems =>
    exact .live hs hkind (hseq _ _ _ _ rfl hsource) fun v hv => (hitems v hv).mono h

/-! ## Typed heaps -/

namespace Heap.TypedBy

variable {pool : Pool} {typed : Address → ShapeId → Prop} {heap : Heap} {v : Value}
  {place below : ShapeId} {known : Descriptor} (ht : heap.TypedBy pool typed)

include ht

/-- Only records and collections are given to addresses. -/
theorem descriptor {a : Address} {own : ShapeId} (ha : typed a own) :
    ∃ known, pool.descriptor own = .ok known ∧
      (known.kind = .record ∨ ∃ family element, known.kind = .collection family element) := by
  obtain ⟨i, -, rfl, hi⟩ := ht a own ha
  cases hi with
  | object hs hkind _ _ _ => exact ⟨_, hs, Or.inl hkind⟩
  | seq hs hkind _ | items hs hkind _ | live hs hkind _ _ => exact ⟨_, hs, Or.inr ⟨_, _, hkind⟩⟩

/-- In a place of a primitive kind there is null, or such a primitive, or a box around one. -/
theorem primitive_cases {p : Primitive} (hb : pool.Below place below known)
    (hkind : known.kind = .primitive p) (hv : v.Fits pool typed place) :
    v = .null ∨ v.IsPrimitive p ∨ ∃ token content, v = .boxed token content ∧
      content.IsPrimitive p := by
  have hany : known.kind ≠ .any := by simp [hkind]
  have hcontent {v : Value} (hc : v.IsContent) (hv : v.Fits pool typed place) :
      v.IsPrimitive p := by
    cases hv with
    | null | boxed _ _ | ref _ _ => exact hc.elim
    | primitive hv hp => exact hp.eq hb hkind ▸ hv
    | struct hp hs hkind' _ _ _ =>
      obtain rfl := hp.eq hb hany
      obtain rfl := Except.ok.inj (hs.symm.trans hb.descriptor)
      simp [hkind] at hkind'
  cases hv with
  | null => exact Or.inl rfl
  | primitive hv hp => exact Or.inr (Or.inl (hp.eq hb hkind ▸ hv))
  | struct hp hs hkind' htype hlength hfields =>
    exact Or.inr (Or.inl (hcontent trivial (.struct hp hs hkind' htype hlength hfields)))
  | boxed hc h => exact Or.inr (Or.inr ⟨_, _, rfl, hcontent hc h⟩)
  | ref ha hp =>
    obtain rfl := hp.eq hb hany
    obtain ⟨known', hs, hcase⟩ := ht.descriptor ha
    obtain rfl := Except.ok.inj (hs.symm.trans hb.descriptor)
    simp [hkind] at hcase

/-- In a place of a collection there is null or a reference. -/
theorem collection_cases {family : Family} {element : Option ShapeId}
    (hb : pool.Below place below known) (hkind : known.kind = .collection family element)
    (hv : v.Fits pool typed place) : v = .null ∨ ∃ a, v = .ref a ∧ typed a below := by
  have hany : known.kind ≠ .any := by simp [hkind]
  have hcontent {v : Value} (hc : v.IsContent) (hv : v.Fits pool typed place) : False := by
    cases hv with
    | null | boxed _ _ | ref _ _ => exact hc
    | primitive hv hp =>
      obtain ⟨_, _, hb', hcase⟩ := hp
      obtain ⟨rfl, rfl⟩ := hb.unique hb'
      simp [hkind] at hcase
    | struct hp hs hkind' _ _ _ =>
      obtain rfl := hp.eq hb hany
      obtain rfl := Except.ok.inj (hs.symm.trans hb.descriptor)
      simp [hkind] at hkind'
  cases hv with
  | null => exact Or.inl rfl
  | primitive hv hp => exact (hcontent hv.isContent (.primitive hv hp)).elim
  | struct hp hs hkind' htype hlength hfields =>
    exact (@hcontent (.struct _ _) trivial (.struct hp hs hkind' htype hlength hfields)).elim
  | boxed hc h => exact (hcontent hc h).elim
  | ref ha hp =>
    obtain rfl := hp.eq hb hany
    exact Or.inr ⟨_, rfl, ha⟩

/-- A value conforms to the shape that it has itself. -/
theorem fits_own (hpool : Pool.initial.GrowsTo pool) {own : ShapeId}
    (hv : v.Fits pool typed place) (hown : heap.shape? v = some own) :
    v.Fits pool typed own := by
  induction hv with
  | null => cases hown
  | @primitive p v _ hv _ =>
    obtain rfl : own = p.shape := by
      cases p <;> cases v <;> first | exact hv.elim | exact (Option.some.inj hown).symm
    exact .primitive hv ⟨_, _, .of_primitive hpool p, Or.inr rfl⟩
  | struct _ hs hkind htype hlength hfields _ =>
    obtain rfl := Option.some.inj hown
    exact .struct (.self hs (by simp [hkind])) hs hkind htype hlength hfields
  | boxed hc _ ih => exact .boxed hc (ih hown)
  | @ref a own' _ ha _ =>
    obtain ⟨i, hi, rfl, -⟩ := ht a own' ha
    obtain rfl : i.shape = own := by
      rw [shape?, hi] at hown
      exact Option.some.inj hown
    obtain ⟨known', hs, hcase⟩ := ht.descriptor ha
    refine .ref ha (.self hs ?_)
    rcases hcase with hkind | ⟨_, _, hkind⟩ <;> simp [hkind]

/-- The members of a record conform to their shapes. -/
theorem fits_member (hs : pool.descriptor below = .ok known) {i : Nat} {m : Member}
    (hm : known.members[i]? = some m) (hv : v.Fits pool typed place)
    (hshape : heap.shape? v = some below) :
    ((heap.member? v i).getD .null).Fits pool typed m.shape := by
  induction hv with
  | null => cases hshape
  | @primitive p v _ hv _ =>
    cases v <;> first | exact .null | (cases p <;> exact hv.elim)
  | @struct _ fields _ _ _ hs' _ _ _ hfields _ =>
    obtain rfl := Option.some.inj hshape
    obtain rfl := Except.ok.inj (hs.symm.trans hs')
    rw [member?]
    cases hi : fields[i]? with
    | none => exact .null
    | some w => exact hfields i w m hi hm
  | boxed _ _ ih => exact ih hshape
  | @ref a own' _ ha _ =>
    obtain ⟨i', hi', rfl, hfits⟩ := ht a own' ha
    obtain rfl : i'.shape = below := by
      rw [shape?, hi'] at hshape
      exact Option.some.inj hshape
    cases hfits with
    | @object shape fields _ hs' _ _ _ hfields =>
      obtain rfl := Except.ok.inj (hs.symm.trans hs')
      rw [member?_ref, hi']
      dsimp only
      cases hi : fields[i]? with
      | none => exact .null
      | some w => exact hfields i w m hi hm
    | seq _ _ _ | items _ _ _ | live _ _ _ _ =>
      rw [member?_ref, hi']
      exact .null

/-- What has elements is a collection, and they conform to its element shape. -/
theorem fits_elements {a : Address} {own : ShapeId} {es : List Value} (ha : typed a own)
    (hes : heap.elements? (.ref a) = some es) :
    ∃ known family element, pool.descriptor own = .ok known ∧
      known.kind = .collection family element ∧
      ∀ e ∈ es, e.Fits pool typed (element.getD ShapeId.any) := by
  obtain ⟨i, hi, rfl, hfits⟩ := ht a own ha
  rw [elements?_ref, hi] at hes
  cases hfits with
  | object _ _ _ _ _ => cases hes
  | seq hs hkind hitems =>
    obtain rfl := Option.some.inj hes
    exact ⟨_, _, _, hs, hkind, fun e he => hitems e (Array.mem_toList_iff.mp he)⟩
  | items hs hkind hitems =>
    obtain rfl := Option.some.inj hes
    exact ⟨_, _, _, hs, hkind, hitems⟩
  | live hs hkind hsource hitems =>
    obtain rfl := Option.some.inj hes
    refine ⟨_, _, _, hs, hkind, fun e he => ?_⟩
    rw [streamItems_sequence, hsource] at he
    exact hitems e (Array.mem_toList_iff.mp he)

/-- What is typed as a collection has elements. -/
theorem exists_elements {a : Address} {family : Family} {element : Option ShapeId}
    (ha : typed a below) (hs : pool.descriptor below = .ok known)
    (hkind : known.kind = .collection family element) :
    ∃ es, heap.elements? (.ref a) = some es := by
  obtain ⟨i, hi, rfl, hfits⟩ := ht a _ ha
  rw [elements?_ref, hi]
  cases hfits with
  | object hs' hkind' _ _ _ =>
    obtain rfl := Except.ok.inj (hs'.symm.trans hs)
    rw [hkind] at hkind'
    cases hkind'
  | seq _ _ _ | items _ _ _ | live _ _ _ _ => exact ⟨_, rfl⟩

/-- In a place of a collection, the elements conform to the element shape. -/
theorem fits_element_of_collection (hb : pool.Below place place known) {family : Family}
    {element : Option ShapeId} (hkind : known.kind = .collection family element)
    (hv : v.Fits pool typed place) :
    ∀ e ∈ (heap.elements? v).getD [v], e.Fits pool typed (element.getD ShapeId.any) := by
  rcases ht.collection_cases hb hkind hv with rfl | ⟨a, rfl, ha⟩
  · intro e he
    obtain rfl := List.mem_singleton.mp he
    exact .null
  · obtain ⟨es, hes⟩ := ht.exists_elements ha hb.descriptor hkind
    obtain ⟨known', _, _, hs, hkind', hall⟩ := ht.fits_elements ha hes
    obtain rfl := Except.ok.inj (hs.symm.trans hb.descriptor)
    rw [hkind] at hkind'
    cases hkind'
    rw [hes]
    exact hall

/-- In a place of another kind, only one that takes all values has a collection, and it takes the
elements as well. -/
theorem fits_element_of_not_collection (hb : pool.Below place place known)
    (hcollection : known.isCollection = false) (hv : v.Fits pool typed place) :
    ∀ e ∈ (heap.elements? v).getD [v], e.Fits pool typed place := by
  cases hes : heap.elements? v with
  | none =>
    intro e he
    obtain rfl := List.mem_singleton.mp he
    exact hv
  | some es =>
    obtain ⟨a, rfl⟩ : ∃ a, v = .ref a := by
      cases v <;> first | exact ⟨_, rfl⟩ | cases hes
    cases hv with
    | @primitive p _ _ hv _ => cases p <;> exact hv.elim
    | ref ha hp =>
      obtain ⟨known', _, _, hs, hkind, hall⟩ := ht.fits_elements ha hes
      by_cases hany : known.kind = .any
      · exact fun e he => (hall e he).any hb hany
      · obtain rfl := hp.eq hb hany
        obtain rfl := Except.ok.inj (hs.symm.trans hb.descriptor)
        simp [Descriptor.isCollection, hkind] at hcollection

/-- The elements of a value, or the value alone, conform to the element shape of its place. -/
theorem fits_element (hb : pool.Below place place known) (hv : v.Fits pool typed place) :
    ∀ e ∈ (heap.elements? v).getD [v], e.Fits pool typed (sourceElement place known) := by
  unfold sourceElement
  cases hcollection : known.isCollection with
  | true =>
    obtain ⟨family, element, hkind⟩ :
        ∃ family element, known.kind = .collection family element := by
      cases hk : known.kind <;> simp [Descriptor.isCollection, hk] at hcollection ⊢
    rw [if_pos rfl, Descriptor.element?, hkind]
    exact ht.fits_element_of_collection hb hkind hv
  | false =>
    rw [if_neg Bool.false_ne_true]
    exact ht.fits_element_of_not_collection hb hcollection hv

end Heap.TypedBy

/-! ## Zero values -/

namespace Pool

variable {pool : Pool}

/-- A zero value fits its shape and reaches no instance. -/
theorem fits_and_within_of_zeroValueWithin {depth : Nat} {id : ShapeId} {v : Value}
    (h : pool.zeroValueWithin depth id = .ok v) (typed : Address → ShapeId → Prop)
    (p : Address → Prop) : v.Fits pool typed id ∧ v.Within p := by
  induction depth generalizing id v with
  | zero => cases h
  | succ depth ih =>
    rw [zeroValueWithin] at h
    obtain ⟨known, hknown, h⟩ := Except.bind_eq_ok_iff.mp h
    have hprimitive {kind : Primitive} {v : Value} (hkind : known.kind = .primitive kind)
        (hv : v.IsPrimitive kind) : v.Fits pool typed id ∧ v.Within p :=
      ⟨.primitive hv ⟨id, known, .of_descriptor hknown (by simp [hkind]), Or.inr hkind⟩, hv.within⟩
    split at h
    · rename_i hkind
      cases h
      exact hprimitive hkind trivial
    · rename_i hkind
      cases h
      exact hprimitive hkind trivial
    · rename_i hkind
      cases h
      exact hprimitive hkind trivial
    · rename_i hkind
      cases h
      exact hprimitive hkind trivial
    · rename_i hkind
      split at h
      · rename_i htype
        obtain ⟨fields, hfields, h⟩ := Except.bind_eq_ok_iff.mp h
        cases h
        obtain ⟨hlength, hall⟩ := Except.of_mapM_eq_ok hfields
        refine ⟨.struct (.self hknown (by simp [hkind])) hknown hkind htype hlength ?_,
          Value.Within.struct.mpr fun v hv => ?_⟩
        · exact fun i v m hv hm => (ih (hall i m v hm hv)).1
        · obtain ⟨i, hi⟩ := List.mem_iff_getElem?.mp hv
          have hlt : i < known.members.length := hlength ▸ (List.getElem?_eq_some_iff.mp hi).1
          exact (ih (hall i _ v (List.getElem?_eq_getElem hlt) hi)).2
      · cases h
        exact ⟨.null, .null⟩
    · cases h
      exact ⟨.null, .null⟩

/-- Zero values conform to their shapes. -/
theorem fits_of_zeroValue {id : ShapeId} {v : Value} (h : pool.zeroValue id = .ok v)
    (typed : Address → ShapeId → Prop) : v.Fits pool typed id :=
  (fits_and_within_of_zeroValueWithin h typed fun _ => True).1

/-- Zero values refer to nothing. -/
theorem within_of_zeroValue {id : ShapeId} {v : Value} (h : pool.zeroValue id = .ok v)
    (p : Address → Prop) : v.Within p :=
  (fits_and_within_of_zeroValueWithin h (fun _ _ => True) p).2

/-- The fields that an object starts with. -/
theorem of_mapM_zeroValue {members : List Member} {fields : List Value}
    (h : members.mapM (fun m => pool.zeroValue m.shape) = .ok fields) :
    fields.length = members.length ∧ (∀ v ∈ fields, ∀ p, v.Within p) ∧
      ∀ (i : Nat) (v : Value) (m : Member), fields[i]? = some v → members[i]? = some m →
        ∀ typed, v.Fits pool typed m.shape := by
  obtain ⟨hlength, hall⟩ := Except.of_mapM_eq_ok h
  refine ⟨hlength, fun v hv => ?_, fun i v m hv hm => fits_of_zeroValue (hall i m v hm hv)⟩
  obtain ⟨i, hi⟩ := List.mem_iff_getElem?.mp hv
  have hlt : i < members.length := hlength ▸ (List.getElem?_eq_some_iff.mp hi).1
  exact within_of_zeroValue (hall i _ v (List.getElem?_eq_getElem hlt) hi)

/-- The zero value of a record held in place holds those of its members. -/
theorem zeroValue_struct {id : ShapeId} {known : Descriptor} {v : Value}
    (hid : pool.descriptor id = .ok known) (hkind : known.kind = .record)
    (htype : known.valueType = true) (h : pool.zeroValue id = .ok v) :
    ∃ fields, v = .struct id fields ∧
      known.members.mapM (fun m => pool.zeroValue m.shape) = .ok fields := by
  rw [zeroValue, zeroValueWithin] at h
  obtain ⟨known', hknown, h⟩ := Except.bind_eq_ok_iff.mp h
  obtain rfl := Except.ok.inj (hid.symm.trans hknown)
  simp only [hkind, htype] at h
  obtain ⟨fields, hfields, h⟩ := Except.bind_eq_ok_iff.mp h
  cases h
  refine ⟨fields, rfl, ?_⟩
  have hfollows : Follows (known.members.mapM fun m => pool.zeroValueWithin pool.size m.shape)
      (known.members.mapM fun m => pool.zeroValue m.shape) :=
    .mapM (fun m : Member => zeroValueWithin_follows (.refl pool) (Nat.le_succ _) m.shape) _
  exact hfollows fields hfields

/-- What is neither held in place nor a primitive starts as null. -/
theorem zeroValue_eq_null {id : ShapeId} {known : Descriptor} {v : Value}
    (hid : pool.descriptor id = .ok known) (hkind : known.kind = .record → known.valueType = false)
    (hprimitive : ∀ p, known.kind ≠ .primitive p) (h : pool.zeroValue id = .ok v) : v = .null := by
  rw [zeroValue, zeroValueWithin] at h
  obtain ⟨known', hknown, h⟩ := Except.bind_eq_ok_iff.mp h
  obtain rfl := Except.ok.inj (hid.symm.trans hknown)
  cases hk : known.kind with
  | primitive p => exact absurd hk (hprimitive p)
  | record =>
    rw [hk, hkind hk] at h
    cases h
    rfl
  | _ =>
    rw [hk] at h
    cases h
    rfl

/-- A zero value is null or held in place. -/
theorem null_or_inline_of_zeroValue {id : ShapeId} {v : Value} (h : pool.zeroValue id = .ok v) :
    v = .null ∨ v.isInline = true := by
  rw [zeroValue, zeroValueWithin] at h
  obtain ⟨known, -, h⟩ := Except.bind_eq_ok_iff.mp h
  split at h
  · cases h
    exact .inr rfl
  · cases h
    exact .inr rfl
  · cases h
    exact .inr rfl
  · cases h
    exact .inr rfl
  · split at h
    · obtain ⟨fields, -, h⟩ := Except.bind_eq_ok_iff.mp h
      cases h
      exact .inr rfl
    · cases h
      exact .inl rfl
  · cases h
    exact .inl rfl

end Pool

end Reshape
