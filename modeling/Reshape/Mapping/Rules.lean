import Reshape.Shape.Basic
import Reshape.Text.Letters
import Reshape.Text.Quoted

/-!
# Member rules

Which member of a source record fills which member of a destination record is said by
`MemberRules`. The usual ones are `NameRules` : a member is filled from the readable member
of the same name, or of the name it is renamed from, and, where case is ignored, from one
that differs in the case of letters if none has the very name. Members that are not
writable, or are to be ignored, are left alone.
-/

namespace Reshape

/-- A source member that fills a destination member, both by their places. -/
structure MemberPair where
  source : Nat
  destination : Nat
  deriving DecidableEq, Inhabited

/-- Which members of a source fill which members of a destination. -/
structure MemberRules where
  /-- The pairs for a source and a destination, in the order in which they are written. -/
  pairs : Descriptor → Descriptor → List MemberPair
  text : String

/-- Rules that answer the same pairs for all records. -/
def MemberRules.fixed (pairs : List MemberPair) : MemberRules where
  pairs _ _ := pairs
  text := "FixedRules"

/-- Rules that match members by name. -/
structure NameRules where
  caseInsensitive : Bool := false
  /-- Destination names, each with the source name that stands in for it. -/
  renames : List (String × String) := []
  /-- Destination names that are never written. -/
  ignored : List String := []
  deriving DecidableEq, Inhabited

namespace NameRules

/-- Take names for the same that differ in the case of letters. -/
def ignoringCase (rules : NameRules) : NameRules :=
  { rules with caseInsensitive := true }

/-- Fill a destination member from a source member. The last word on a name counts. -/
def rename (destination source : String) (rules : NameRules) : NameRules :=
  { rules with renames := rules.renames.filter (·.1 != destination) ++ [(destination, source)] }

/-- Never write a destination member. -/
def ignore (destination : String) (rules : NameRules) : NameRules :=
  { rules with ignored := rules.ignored.filter (· != destination) ++ [destination] }

/-- The source name that a destination name asks for. -/
def wanted (rules : NameRules) (destination : String) : String :=
  (rules.renames.lookup destination).getD destination

/-- The readable member that a name asks for ; the very name wins. -/
def sourceIndex? (rules : NameRules) (source : Descriptor) (name : String) : Option Nat :=
  let first (same : String → Bool) :=
    source.members.findIdx? fun m => m.access.readable && same m.name
  match first (· == name) with
  | some index => some index
  | none => if rules.caseInsensitive then first (Text.sameLetters · name) else none

/-- The member may be written, and is not to be ignored. -/
def takes (rules : NameRules) (m : Member) : Bool :=
  m.access.writable && !rules.ignored.contains m.name

/-- The pairs in the order of the destination members. -/
def pairs (rules : NameRules) (source destination : Descriptor) : List MemberPair :=
  destination.members.zipIdx.filterMap fun (m, index) =>
    if rules.takes m then
      (rules.sourceIndex? source (rules.wanted m.name)).map fun found => ⟨found, index⟩
    else none

/-- A destination member is paired with the source member that its name asks for. -/
theorem mem_pairs_iff {rules : NameRules} {source destination : Descriptor} {p : MemberPair} :
    p ∈ rules.pairs source destination ↔
      ∃ m, destination.members[p.destination]? = some m ∧ rules.takes m = true ∧
        rules.sourceIndex? source (rules.wanted m.name) = some p.source := by
  obtain ⟨found, index⟩ := p
  simp only [pairs, List.mem_filterMap, Prod.exists, List.mem_zipIdx_iff_getElem?]
  constructor
  · rintro ⟨m, i, hm, h⟩
    split at h
    · rename_i ht
      obtain ⟨s, hs, hp⟩ := Option.map_eq_some_iff.mp h
      cases hp
      exact ⟨m, hm, ht, hs⟩
    · cases h
  · rintro ⟨m, hm, ht, hs⟩
    exact ⟨m, index, hm, by rw [if_pos ht, hs, Option.map_some]⟩

/-- The pairs come in the order of the destination members. -/
theorem pairwise_pairs (rules : NameRules) (source destination : Descriptor) :
    (rules.pairs source destination).Pairwise (·.destination < ·.destination) := by
  have hplaces : destination.members.zipIdx.Pairwise (·.2 < ·.2) := by
    rw [← List.pairwise_map (f := Prod.snd), List.zipIdx_map_snd]
    exact List.pairwise_lt_range'
  have hplace {a : Member × Nat} {p : MemberPair}
      (hp : (if rules.takes a.1 then
        (rules.sourceIndex? source (rules.wanted a.1.name)).map fun found => ⟨found, a.2⟩
        else none) = some p) : p.destination = a.2 := by
    split at hp
    · obtain ⟨found, -, rfl⟩ := Option.map_eq_some_iff.mp hp
      rfl
    · cases hp
  refine List.pairwise_filterMap.mpr (hplaces.imp fun hlt p hp q hq => ?_)
  rwa [hplace hp, hplace hq]

/-- No destination member is filled twice. -/
theorem nodup_pairs (rules : NameRules) (source destination : Descriptor) :
    ((rules.pairs source destination).map MemberPair.destination).Nodup :=
  List.pairwise_map.mpr ((rules.pairwise_pairs source destination).imp Nat.ne_of_lt)

/-- The last source name given for a destination name is the one that it asks for. -/
theorem wanted_rename_self (rules : NameRules) (destination source : String) :
    (rules.rename destination source).wanted destination = source := by
  have hkept : (rules.renames.filter (·.1 != destination)).lookup destination = none :=
    List.lookup_eq_none_iff.mpr fun r hr => by
      rw [bne_comm]
      exact (List.mem_filter.mp hr).2
  rw [wanted, rename, List.lookup_append, hkept, Option.none_or]
  simp

/-- The items between braces, with commas. -/
def braced (items : List String) : String :=
  "\x7b" ++ String.intercalate ", " items ++ "\x7d"

def text (rules : NameRules) : String :=
  let renamed := rules.renames.map fun r => Text.quoted r.1 ++ ": " ++ Text.quoted r.2
  "NameMatchRules \x7b case_insensitive: " ++ (if rules.caseInsensitive then "true" else "false") ++
    ", renames: " ++ braced renamed ++ ", ignored: " ++ braced (rules.ignored.map Text.quoted) ++
    " \x7d"

/-- The rules of the names, as rules of a mapping. -/
def toRules (rules : NameRules) : MemberRules where
  pairs := rules.pairs
  text := rules.text

end NameRules

end Reshape
