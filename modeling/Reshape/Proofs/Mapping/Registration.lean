import Mathlib.Data.Finset.Card
import Mathlib.Data.List.Induction
import Reshape.Mapping.Basic

/-!
# Registered converters

A mapping is built by calls, one after the other (`Mapping.Call`). Its converters are a table from
pairs of shapes to what was registered last for them. No pair stands in the table twice, whatever
is called (`Mapping.nodup_after_calls`), and it holds the registered pairs and no other ones
(`Mapping.mem_pairs_after_calls`).

A converter is named by its place. To register a pair again takes it out of its place and puts it
last, so that every converter behind it comes one place forward
(`Mapping.converterFor_withConverter_of_ne`), and is found there all the same.
`Mapping.converters_after_calls` says all this of the mappings that come of any calls.
-/

namespace Reshape

/-- The shapes that the converter is registered for. -/
def Registered.pair (r : Registered) : ShapeId × ShapeId :=
  (r.source, r.target)

theorem Registered.isFor_iff_pair {source target : ShapeId} {r : Registered} :
    r.isFor source target = true ↔ r.pair = (source, target) := by
  rw [isFor_iff, pair, Prod.mk.injEq]

namespace Mapping

/-! ## Calls -/

/-- What is said of a mapping, one call at a time. -/
inductive Call where
  | shallow
  | deep
  | copying (mode : CopyMode)
  | matching (rules : MemberRules)
  | register (source target : ShapeId) (converter : Converter)

namespace Call

/-- The mapping that a call leaves. -/
def apply (mapping : Mapping) : Call → Mapping
  | shallow => mapping.shallow
  | deep => mapping.deep
  | copying mode => mapping.withCopyMode mode
  | matching rules => mapping.withRules rules
  | register source target converter => mapping.withConverter source target converter

/-- The pair of shapes that a call registers a converter for. -/
def pair? : Call → Option (ShapeId × ShapeId)
  | register source target _ => some (source, target)
  | _ => none

/-- The converter that a call registers for exactly these shapes. -/
def converterFor? (source target : ShapeId) : Call → Option Converter
  | register source' target' converter =>
    if (source', target') = (source, target) then some converter else none
  | _ => none

/-- A call that registers nothing leaves the converters alone. -/
theorem converters_apply {call : Call} (h : call.pair? = none) (mapping : Mapping) :
    (call.apply mapping).converters = mapping.converters := by
  cases call with
  | register _ _ _ => cases h
  | shallow | deep | copying _ | matching _ => rfl

theorem converterFor?_eq_none {call : Call} (h : call.pair? = none) (source target : ShapeId) :
    call.converterFor? source target = none := by
  cases call with
  | register _ _ _ => cases h
  | shallow | deep | copying _ | matching _ => rfl

end Call

/-! ## Tables -/

section

variable {mapping : Mapping} {source target source' target' : ShapeId} {converter : Converter}

/-- The pairs that converters are registered for, in the order of their places. -/
def pairs (mapping : Mapping) : List (ShapeId × ShapeId) :=
  mapping.converters.map Registered.pair

/-- The pair that is registered comes last, and stands nowhere else. -/
theorem pairs_withConverter :
    (mapping.withConverter source target converter).pairs =
      mapping.pairs.filter (· != (source, target)) ++ [(source, target)] := by
  have hother : (fun r : Registered => !r.isFor source target) =
      (fun p => p != (source, target)) ∘ Registered.pair := by
    funext r
    rw [Function.comp_apply, Bool.eq_iff_iff, Bool.not_eq_true', ← Bool.not_eq_true,
      Registered.isFor_iff_pair, bne_iff_ne]
  rw [pairs, withConverter, List.map_append, hother, ← List.filter_map]
  rfl

theorem nodup_withConverter (h : mapping.pairs.Nodup) :
    (mapping.withConverter source target converter).pairs.Nodup := by
  rw [pairs_withConverter]
  refine (h.filter _).append (List.nodup_singleton _) fun p hp hnew => ?_
  rw [List.mem_singleton] at hnew
  simp [hnew] at hp

/-- A converter is found for two shapes if one is registered for them. -/
theorem isSome_converterFor_iff :
    (mapping.converterFor source target).isSome = true ↔ (source, target) ∈ mapping.pairs := by
  rw [converterFor, Option.isSome_map, List.findIdx?_isSome, List.any_eq_true, pairs, List.mem_map]
  exact exists_congr fun r => and_congr_right fun _ => Registered.isFor_iff_pair

/-- What is found for two shapes is registered for them, in that place. -/
theorem exists_registered_of_converterFor {id : ConverterId}
    (h : mapping.converterFor source target = some id) :
    ∃ r, mapping.converter? id = some r ∧ r.pair = (source, target) := by
  obtain ⟨i, hi, rfl⟩ := Option.map_eq_some_iff.mp h
  obtain ⟨hlt, hfor, -⟩ := List.findIdx?_eq_some_iff_getElem.mp hi
  exact ⟨_, List.getElem?_eq_getElem hlt, Registered.isFor_iff_pair.mp hfor⟩

/-- No pair stands in two places. -/
theorem eq_of_pair_eq (h : mapping.pairs.Nodup) {id id' : ConverterId} {r r' : Registered}
    (hr : mapping.converter? id = some r) (hr' : mapping.converter? id' = some r')
    (hpair : r.pair = r'.pair) : id = id' := by
  have hplace {id : ConverterId} {r : Registered} (hr : mapping.converter? id = some r) :
      mapping.pairs[id.index]? = some r.pair := by
    rw [pairs, List.getElem?_map, show mapping.converters[id.index]? = some r from hr]
    rfl
  have hlt := (List.getElem?_eq_some_iff.mp (hplace hr)).1
  have hindex : id.index = id'.index :=
    List.getElem?_inj hlt h |>.mp ((hplace hr).trans (hpair ▸ (hplace hr').symm))
  cases id
  cases id'
  exact congrArg ConverterId.mk hindex

/-- What is found for other shapes is the same as before. -/
theorem registered_withConverter_of_ne (h : (source', target') ≠ (source, target)) :
    ((mapping.withConverter source target converter).converterFor source' target').bind
        (mapping.withConverter source target converter).converter? =
      (mapping.converterFor source' target').bind mapping.converter? := by
  rw [converterFor_bind_converter?, converterFor_bind_converter?,
    find?_withConverter_of_ne mapping converter h.symm]

/-- Where the converter of one pair is taken out, those behind it come one place forward. -/
theorem findIdx?_filter {registered : List Registered} {i : Nat}
    (hnodup : (registered.map Registered.pair).Nodup)
    (hi : registered.findIdx? (·.isFor source target) = some i)
    (hne : (source', target') ≠ (source, target)) :
    (registered.filter (!·.isFor source target)).findIdx? (·.isFor source' target') =
      (registered.findIdx? (·.isFor source' target')).map fun j => if i < j then j - 1 else j := by
  induction registered generalizing i with
  | nil => rfl
  | cons r registered ih =>
    rw [List.map_cons, List.nodup_cons] at hnodup
    rw [List.findIdx?_cons] at hi
    cases hr : r.isFor source target with
    | true =>
      rw [if_pos hr] at hi
      cases hi
      have hpair : r.pair = (source, target) := Registered.isFor_iff_pair.mp hr
      have hother : r.isFor source' target' = false :=
        Bool.eq_false_iff.mpr fun h => hne ((Registered.isFor_iff_pair.mp h).symm.trans hpair)
      have hrest : registered.filter (!·.isFor source target) = registered := by
        refine List.filter_eq_self.mpr fun r' hr' => ?_
        rw [Bool.not_eq_true', Bool.eq_false_iff]
        intro h
        rw [hpair, ← Registered.isFor_iff_pair.mp h] at hnodup
        exact hnodup.1 (List.mem_map_of_mem hr')
      rw [List.filter_cons_of_neg (by simp [hr]), hrest, List.findIdx?_cons, hother,
        if_neg Bool.false_ne_true, Option.map_map]
      simp [Function.comp_def]
    | false =>
      rw [hr, if_neg Bool.false_ne_true] at hi
      obtain ⟨place, hplace, rfl⟩ := Option.map_eq_some_iff.mp hi
      rw [List.filter_cons_of_pos (by simp [hr]), List.findIdx?_cons, List.findIdx?_cons,
        ih hnodup.2 hplace]
      split
      · rfl
      · rw [Option.map_map, Option.map_map]
        refine congrArg (Option.map · _) (funext fun j => ?_)
        simp only [Function.comp_apply]
        split <;> split <;> omega

/-- When a pair is registered again, the converters of other pairs that stand behind it come one
place forward. -/
theorem converterFor_withConverter_of_ne (hnodup : mapping.pairs.Nodup) {id : ConverterId}
    (hid : mapping.converterFor source target = some id)
    (hne : (source', target') ≠ (source, target)) :
    (mapping.withConverter source target converter).converterFor source' target' =
      (mapping.converterFor source' target').map fun id' =>
        if id.index < id'.index then ⟨id'.index - 1⟩ else id' := by
  obtain ⟨i, hi, rfl⟩ := Option.map_eq_some_iff.mp hid
  have hnew : (⟨source, target, converter⟩ : Registered).isFor source' target' = false :=
    Bool.eq_false_iff.mpr fun h => hne (Registered.isFor_iff_pair.mp h).symm
  rw [converterFor, withConverter, List.findIdx?_append, findIdx?_filter hnodup hi hne,
    List.findIdx?_singleton, hnew, if_neg Bool.false_ne_true, Option.map_none, Option.or_none,
    converterFor, Option.map_map, Option.map_map]
  refine congrArg (Option.map · _) (funext fun j => ?_)
  simp only [Function.comp_apply, apply_ite ConverterId.mk]

end

/-! ## After calls -/

section

variable (name : String) (calls : List Call)

/-- The table holds the registered pairs, and no other ones. -/
theorem mem_pairs_after_calls {p : ShapeId × ShapeId} :
    p ∈ (calls.foldl Call.apply (named name)).pairs ↔ p ∈ calls.filterMap Call.pair? := by
  induction calls using List.reverseRecOn with
  | nil => rfl
  | append_singleton calls call ih =>
    rw [List.foldl_concat, List.filterMap_append, List.mem_append, ← ih]
    cases hcall : call.pair? with
    | none => simp [pairs, Call.converters_apply hcall, hcall]
    | some q =>
      cases call with
      | register source target converter =>
        cases hcall
        by_cases hp : p = (source, target) <;>
          simp [Call.apply, Call.pair?, pairs_withConverter, hp]
      | shallow | deep | copying _ | matching _ => cases hcall

theorem nodup_after_calls : (calls.foldl Call.apply (named name)).pairs.Nodup := by
  induction calls using List.reverseRecOn with
  | nil => exact List.nodup_nil
  | append_singleton calls call ih =>
    rw [List.foldl_concat]
    cases call with
    | register source target converter => exact nodup_withConverter ih
    | shallow | deep | copying _ | matching _ => exact ih

/-- There are as many converters as registered pairs. -/
theorem length_after_calls :
    (calls.foldl Call.apply (named name)).converters.length =
      (calls.filterMap Call.pair?).toFinset.card := by
  have hpairs : (calls.foldl Call.apply (named name)).pairs.toFinset =
      (calls.filterMap Call.pair?).toFinset := by
    ext p
    rw [List.mem_toFinset, List.mem_toFinset, mem_pairs_after_calls]
  rw [← hpairs, List.toFinset_card_of_nodup (nodup_after_calls name calls), pairs, List.length_map]

/-- Of several converters registered for two shapes the last one is found. -/
theorem registered_after_calls (source target : ShapeId) :
    let mapping := calls.foldl Call.apply (named name)
    ((mapping.converterFor source target).bind mapping.converter?).map Registered.converter =
      (calls.filterMap (Call.converterFor? source target)).getLast? := by
  induction calls using List.reverseRecOn with
  | nil => rfl
  | append_singleton calls call ih =>
    simp only [converterFor_bind_converter?] at ih ⊢
    rw [List.foldl_concat, List.filterMap_append]
    cases hcall : call.pair? with
    | none =>
      rw [Call.converters_apply hcall, ih]
      simp [Call.converterFor?_eq_none hcall]
    | some q =>
      cases call with
      | register source' target' converter =>
        by_cases hp : (source', target') = (source, target)
        · cases hp
          simp [Call.apply, Call.converterFor?, find?_withConverter_self]
        · rw [Call.apply, find?_withConverter_of_ne _ _ hp, ih]
          simp [Call.converterFor?, hp]
      | shallow | deep | copying _ | matching _ => cases hcall

end

/-- Whatever calls have built the mapping : a converter is found for two shapes just if one was
registered for them, and then it is the one registered last. Its place is below the number of
registered pairs. No pair stands in two places, and none is found in the place of another. To
register a pair again changes nothing about which converter is found for another pair. It may change
the place in which it is found : what stood behind comes one place forward. -/
theorem converters_after_calls (name : String) (calls : List Call) :
    let mapping := calls.foldl Call.apply (named name)
    let registered := calls.filterMap Call.pair?
    (∀ source target,
      ((mapping.converterFor source target).isSome = true ↔ (source, target) ∈ registered) ∧
      ((mapping.converterFor source target).bind mapping.converter?).map Registered.converter =
        (calls.filterMap (Call.converterFor? source target)).getLast?) ∧
      (∀ id id' r r', mapping.converter? id = some r → mapping.converter? id' = some r' →
        r.pair = r'.pair → id = id') ∧
      (∀ source target id, mapping.converterFor source target = some id →
        id.index < registered.toFinset.card ∧
          ∃ r, mapping.converter? id = some r ∧ r.pair = (source, target)) ∧
      (∀ source target source' target' id, mapping.converterFor source target = some id →
        mapping.converterFor source' target' = some id → (source, target) = (source', target')) ∧
      ∀ source target converter source' target', (source', target') ≠ (source, target) →
        let again := mapping.withConverter source target converter
        (again.converterFor source' target').bind again.converter? =
            (mapping.converterFor source' target').bind mapping.converter? ∧
          ∀ id, mapping.converterFor source target = some id →
            again.converterFor source' target' =
              (mapping.converterFor source' target').map fun id' =>
                if id.index < id'.index then ⟨id'.index - 1⟩ else id' := by
  intro mapping registered
  have hnodup : mapping.pairs.Nodup := nodup_after_calls name calls
  refine ⟨fun source target => ⟨?_, registered_after_calls name calls source target⟩,
    fun id id' r r' hr hr' => eq_of_pair_eq hnodup hr hr', fun source target id hid => ?_,
    fun source target source' target' id hid hid' => ?_,
    fun source target converter source' target' hne => ?_⟩
  · exact isSome_converterFor_iff.trans (mem_pairs_after_calls name calls)
  · obtain ⟨r, hr, hpair⟩ := exists_registered_of_converterFor hid
    have hlt : id.index < mapping.converters.length := (List.getElem?_eq_some_iff.mp hr).1
    exact ⟨length_after_calls name calls ▸ hlt, r, hr, hpair⟩
  · obtain ⟨r, hr, hpair⟩ := exists_registered_of_converterFor hid
    obtain ⟨r', hr', hpair'⟩ := exists_registered_of_converterFor hid'
    cases hr.symm.trans hr'
    exact hpair.symm.trans hpair'
  · exact ⟨registered_withConverter_of_ne hne,
      fun id hid => converterFor_withConverter_of_ne hnodup hid hne⟩

/-- The converter of a pair moves forward when the one before it is registered again. -/
example (first second again : Converter) :
    let calls : List Call := [.register ShapeId.int ShapeId.str first, .shallow,
      .register ShapeId.int ShapeId.bool second]
    let mapping := calls.foldl Call.apply (named "numbers")
    let mapping' := (calls ++ [Call.register ShapeId.int ShapeId.str again]).foldl Call.apply
      (named "numbers")
    mapping.converterFor ShapeId.int ShapeId.bool = some ⟨1⟩ ∧
      mapping'.converterFor ShapeId.int ShapeId.bool = some ⟨0⟩ ∧
      (mapping'.converter? ⟨0⟩).map Registered.converter = some second :=
  ⟨rfl, rfl, rfl⟩

end Mapping

end Reshape
