import Reshape.Mapping.Failure
import Reshape.Mapping.Rules

/-!
# Mappings

A `Mapping` says how values are converted : whether records and collections inside them are
made anew or shared, which members fill which, and which converters stand in for the
conversions between certain shapes. Routines are kept under the mapping's `MappingId`, so
two mappings of one id are taken for the same.

A converter is registered for a source and a target shape, and the last one registered for
the two counts (`Mapping.find?_withConverter_self`). Converters are named by their places,
which an earlier registration may shift.
-/

namespace Reshape

/-! ## Converters -/

/-- A conversion supplied from outside. -/
structure Converter where
  name : String
  /-- Converts a value, given the caller's own value as well. -/
  apply : Value → Value → Heap → Except ConversionError Value × Heap

/-- A converter, and the shapes it is registered for. -/
structure Registered where
  source : ShapeId
  target : ShapeId
  converter : Converter

/-- The converter is registered for these two shapes. -/
def Registered.isFor (source target : ShapeId) (r : Registered) : Bool :=
  r.source == source && r.target == target

theorem Registered.isFor_iff {source target : ShapeId} {r : Registered} :
    r.isFor source target = true ↔ r.source = source ∧ r.target = target := by
  simp [isFor]

/-! ## Mappings -/

/-- What a conversion does to records and collections that could be shared. -/
inductive CopyMode where
  /-- Members and elements that need no conversion are shared. -/
  | shallow
  /-- Records and collections are made anew, however deep they lie. -/
  | deep
  deriving DecidableEq, Inhabited

/-- The name of the mode. -/
def CopyMode.text : CopyMode → String
  | shallow => "Shallow"
  | deep => "Deep"

/-- The name under which the routines of a mapping are kept. -/
structure MappingId where
  name : String
  deriving DecidableEq, Inhabited

def MappingId.text (id : MappingId) : String :=
  "ConfigId(" ++ Text.quoted id.name ++ ")"

/-- What decides a conversion besides the two shapes : how much is copied, which members fill
which, and what converters there are. -/
structure Mapping where
  id : MappingId
  copyMode : CopyMode := .deep
  rules : MemberRules := NameRules.toRules {}
  converters : List Registered := []

namespace Mapping

/-- The mapping of that name that copies deep and matches members by name. -/
def named (name : String) : Mapping where
  id := ⟨name⟩

/-- The mapping that copies deep, matches members by name and is called `default`. -/
def initial : Mapping where
  id := ⟨"default"⟩

instance : Inhabited Mapping := ⟨initial⟩

/-- Say how much is copied. -/
def withCopyMode (mode : CopyMode) (mapping : Mapping) : Mapping :=
  { mapping with copyMode := mode }

/-- Share members and elements that need no conversion. -/
def shallow (mapping : Mapping) : Mapping := mapping.withCopyMode .shallow

/-- Make records and collections anew. -/
def deep (mapping : Mapping) : Mapping := mapping.withCopyMode .deep

/-- Say which members fill which. -/
def withRules (rules : MemberRules) (mapping : Mapping) : Mapping :=
  { mapping with rules := rules }

/-- Register a converter in place of the one for the same shapes, if there is one. -/
def withConverter (source target : ShapeId) (converter : Converter) (mapping : Mapping) :
    Mapping :=
  { mapping with
    converters := mapping.converters.filter (!·.isFor source target) ++
      [⟨source, target, converter⟩] }

/-- The converter registered for exactly these shapes. -/
def converterFor (mapping : Mapping) (source target : ShapeId) : Option ConverterId :=
  (mapping.converters.findIdx? (·.isFor source target)).map ConverterId.mk

/-- The converter that an id stands for. -/
def converter? (mapping : Mapping) (id : ConverterId) : Option Registered :=
  mapping.converters[id.index]?

/-- The converter found for two shapes is the first in the list that is for them. -/
theorem converterFor_bind_converter? (mapping : Mapping) (source target : ShapeId) :
    (mapping.converterFor source target).bind mapping.converter? =
      mapping.converters.find? (·.isFor source target) := by
  rw [converterFor, List.find?_eq_bind_findIdx?_getElem?, Option.bind_map]
  rfl

/-- The converter registered last for two shapes is the one that is found for them. -/
theorem find?_withConverter_self (mapping : Mapping) (source target : ShapeId)
    (converter : Converter) :
    (mapping.withConverter source target converter).converters.find? (·.isFor source target) =
      some ⟨source, target, converter⟩ := by
  have hkept : (mapping.converters.filter (!·.isFor source target)).find?
      (·.isFor source target) = none :=
    List.find?_eq_none.mpr fun r hr => by simpa using (List.mem_filter.mp hr).2
  rw [withConverter, List.find?_append, hkept, Option.none_or, List.find?_singleton]
  exact if_pos (Registered.isFor_iff.mpr ⟨rfl, rfl⟩)

/-- Registering a converter makes no difference to what is found for other shapes. -/
theorem find?_withConverter_of_ne (mapping : Mapping) {source target source' target' : ShapeId}
    (converter : Converter) (h : (source, target) ≠ (source', target')) :
    (mapping.withConverter source target converter).converters.find?
      (·.isFor source' target') = mapping.converters.find? (·.isFor source' target') := by
  have hother (r : Registered) :
      (!r.isFor source target && r.isFor source' target') = r.isFor source' target' := by
    cases hr : r.isFor source' target' with
    | false => rw [Bool.and_false]
    | true =>
      obtain ⟨rfl, rfl⟩ := Registered.isFor_iff.mp hr
      rw [Bool.and_true, Bool.not_eq_true', Bool.eq_false_iff]
      exact fun hs => h (by rw [(Registered.isFor_iff.mp hs).1, (Registered.isFor_iff.mp hs).2])
  have hnew : (⟨source, target, converter⟩ : Registered).isFor source' target' = false :=
    Bool.eq_false_iff.mpr fun hs => h (by
      rw [show source = source' from (Registered.isFor_iff.mp hs).1,
        show target = target' from (Registered.isFor_iff.mp hs).2])
  rw [withConverter, List.find?_append, List.find?_filter, List.find?_singleton, hnew]
  simp [hother]

def text (mapping : Mapping) : String :=
  "MappingConfig \x7b id: " ++ mapping.id.text ++ ", copy_mode: " ++ mapping.copyMode.text ++
    ", rules: " ++ mapping.rules.text ++ ", converters: " ++
    String.ofList (natText mapping.converters.length) ++ " \x7d"

end Mapping

end Reshape
