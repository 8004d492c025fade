import Mathlib.Data.List.Basic
import Mathlib.Data.List.Induction
import Reshape.Mapping.Rules

/-!
# Members paired by name

Rules are said by calls, one after the other (`NameRules.Call`). Which member fills which is decided
by three things alone : whether the case of letters is ignored, which destination names are ignored,
and which source name each destination name asks for, the one it was given last
(`NameRules.takes_after_calls`, `NameRules.wanted_after_calls`). The first readable member of the
very name is found, or else the first that differs from it in the case of letters
(`NameRules.sourceIndex?_eq_some_iff`).

`NameRules.pairs_after_calls` says which pairs come of any calls, in which order, and what one more
ignored name makes of them.
-/

namespace Reshape

/-- In this place stands the first readable member whose name is accepted. -/
def Descriptor.FirstReadable (d : Descriptor) (accepted : String → Prop) (index : Nat) : Prop :=
  ∃ m, d.members[index]? = some m ∧ m.access.readable = true ∧ accepted m.name ∧
    ∀ j < index, ∀ m', d.members[j]? = some m' → m'.access.readable = true → ¬ accepted m'.name

namespace NameRules

/-! ## Sources -/

section

variable {rules : NameRules} {source : Descriptor} {name : String} {index : Nat}

theorem findIdx?_readable_eq_some_iff {p : String → Bool} :
    (source.members.findIdx? fun m => m.access.readable && p m.name) = some index ↔
      source.FirstReadable (p · = true) index := by
  rw [List.findIdx?_eq_some_iff_getElem]
  constructor
  · rintro ⟨hlt, hfound, hbefore⟩
    obtain ⟨hreadable, hsame⟩ := Bool.and_eq_true_iff.mp hfound
    refine ⟨_, List.getElem?_eq_getElem hlt, hreadable, hsame, fun j hj m' hm' hr hs => ?_⟩
    obtain ⟨_, rfl⟩ := List.getElem?_eq_some_iff.mp hm'
    exact hbefore j hj (Bool.and_eq_true_iff.mpr ⟨hr, hs⟩)
  · rintro ⟨m, hm, hreadable, hsame, hbefore⟩
    obtain ⟨hlt, rfl⟩ := List.getElem?_eq_some_iff.mp hm
    refine ⟨hlt, Bool.and_eq_true_iff.mpr ⟨hreadable, hsame⟩, fun j hj hfound => ?_⟩
    obtain ⟨hr, hs⟩ := Bool.and_eq_true_iff.mp hfound
    exact hbefore j hj _ (List.getElem?_eq_getElem (Nat.lt_trans hj hlt)) hr hs

theorem findIdx?_readable_eq_none_iff :
    (source.members.findIdx? fun m => m.access.readable && m.name == name) = none ↔
      ∀ m ∈ source.members, m.access.readable = true → m.name ≠ name := by
  rw [List.findIdx?_eq_none_iff]
  refine forall₂_congr fun m _ => ?_
  rw [Bool.and_eq_false_imp, beq_eq_false_iff_ne]

/-- The very name wins, and otherwise the case of letters is ignored if the rules say so. -/
theorem sourceIndex?_eq_some_iff :
    rules.sourceIndex? source name = some index ↔
      source.FirstReadable (· = name) index ∨
        (rules.caseInsensitive = true ∧
          (∀ m ∈ source.members, m.access.readable = true → m.name ≠ name) ∧
          source.FirstReadable
            (fun n => n.toList.map Char.toLower = name.toList.map Char.toLower) index) := by
  have hexact : (source.members.findIdx? fun m => m.access.readable && m.name == name) =
      some index ↔ source.FirstReadable (· = name) index := by
    simpa only [beq_iff_eq] using findIdx?_readable_eq_some_iff (p := (· == name))
  unfold sourceIndex?
  rw [← hexact, ← findIdx?_readable_eq_none_iff]
  dsimp only
  cases source.members.findIdx? fun m => m.access.readable && m.name == name with
  | some found => simp
  | none =>
    cases rules.caseInsensitive with
    | false => simp
    | true =>
      simpa [Text.sameLetters] using
        findIdx?_readable_eq_some_iff (p := (Text.sameLetters · name))

/-- What is found may be read. -/
theorem readable_of_sourceIndex? (h : rules.sourceIndex? source name = some index) :
    ∃ m, source.members[index]? = some m ∧ m.access.readable = true := by
  rcases sourceIndex?_eq_some_iff.mp h with ⟨m, hm, hr, -⟩ | ⟨-, -, m, hm, hr, -⟩ <;>
    exact ⟨m, hm, hr⟩

end

/-! ## Pairs -/

section

variable {rules : NameRules} {source destination : Descriptor}

/-- Rules that differ in one more ignored name differ in the pairs of that name. -/
theorem pairs_eq_filter {rules' : NameRules} {name : String}
    (hcase : rules'.caseInsensitive = rules.caseInsensitive)
    (hwanted : ∀ n, rules'.wanted n = rules.wanted n)
    (htakes : ∀ m, rules'.takes m = (rules.takes m && m.name != name))
    (source destination : Descriptor) :
    rules'.pairs source destination = (rules.pairs source destination).filter
      fun p => (destination.members[p.destination]?.map Member.name) != some name := by
  have hsource (n : String) : rules'.sourceIndex? source n = rules.sourceIndex? source n := by
    simp only [sourceIndex?, hcase]
  unfold pairs
  rw [List.filter_filterMap]
  refine List.filterMap_congr fun ⟨m, index⟩ hm => ?_
  have hplace : destination.members[index]? = some m := List.mem_zipIdx_iff_getElem?.mp hm
  dsimp only
  rw [htakes, hwanted, hsource]
  cases rules.takes m with
  | false => rfl
  | true =>
    cases rules.sourceIndex? source (rules.wanted m.name) with
    | none => simp
    | some found => simp [Option.filter, hplace]

end

/-! ## Calls -/

/-- What is said of rules, one call at a time. -/
inductive Call where
  | ignoringCase
  | rename (destination source : String)
  | ignore (destination : String)
  deriving DecidableEq

namespace Call

/-- The rules that a call leaves. -/
def apply (rules : NameRules) : Call → NameRules
  | ignoringCase => rules.ignoringCase
  | rename destination source => rules.rename destination source
  | ignore destination => rules.ignore destination

/-- The source name that a call gives to a destination name. -/
def sourceFor? (name : String) : Call → Option String
  | rename destination source => if destination = name then some source else none
  | _ => none

end Call

theorem wanted_rename_of_ne (rules : NameRules) {destination name : String} (source : String)
    (h : destination ≠ name) :
    (rules.rename destination source).wanted name = rules.wanted name := by
  have hkept : ∀ renames : List (String × String),
      (renames.filter (·.1 != destination)).lookup name = renames.lookup name := by
    intro renames
    induction renames with
    | nil => rfl
    | cons r renames ih =>
      by_cases hr : r.1 = destination
      · have hname : (name == r.1) = false := beq_eq_false_iff_ne.mpr fun hn => h (hr ▸ hn.symm)
        rw [List.filter_cons_of_neg (by simp [hr]), ih, List.lookup_cons, hname]
      · rw [List.filter_cons_of_pos (by simp [hr]), List.lookup_cons, List.lookup_cons, ih]
  have hnew : (name == destination) = false := beq_eq_false_iff_ne.mpr fun hn => h hn.symm
  rw [wanted, wanted, rename, List.lookup_append, hkept, List.lookup_cons, hnew, List.lookup_nil,
    Option.or_none]

section

variable (calls : List Call)

theorem caseInsensitive_after_calls :
    (calls.foldl Call.apply {}).caseInsensitive = true ↔ .ignoringCase ∈ calls := by
  induction calls using List.reverseRecOn with
  | nil => simp
  | append_singleton calls call ih =>
    rw [List.foldl_concat, List.mem_append, List.mem_singleton, ← ih]
    cases call <;> simp [Call.apply, ignoringCase, rename, ignore]

/-- A member is left alone if it is not writable, or its name is ignored by one of the calls. -/
theorem takes_after_calls (m : Member) :
    (calls.foldl Call.apply {}).takes m = true ↔
      m.access.writable = true ∧ .ignore m.name ∉ calls := by
  have hignored : m.name ∈ (calls.foldl Call.apply {}).ignored ↔ .ignore m.name ∈ calls := by
    induction calls using List.reverseRecOn with
    | nil => simp
    | append_singleton calls call ih =>
      rw [List.foldl_concat, List.mem_append, List.mem_singleton, ← ih]
      cases call with
      | ignoringCase | rename _ _ => simp [Call.apply, ignoringCase, rename]
      | ignore destination =>
        by_cases hd : m.name = destination <;> simp [Call.apply, ignore, hd]
  rw [takes, Bool.and_eq_true, Bool.not_eq_true', ← hignored, ← Bool.not_eq_true,
    List.contains_iff_mem]

/-- Of several renamings of a name the last one counts. -/
theorem wanted_after_calls (name : String) :
    (calls.foldl Call.apply {}).wanted name =
      (calls.filterMap (Call.sourceFor? name)).getLastD name := by
  induction calls using List.reverseRecOn with
  | nil => rfl
  | append_singleton calls call ih =>
    rw [List.foldl_concat, List.filterMap_append]
    cases call with
    | ignoringCase | ignore _ =>
      simpa [Call.apply, Call.sourceFor?, wanted, ignoringCase, ignore] using ih
    | rename destination source =>
      by_cases hd : destination = name
      · subst hd
        simp [Call.apply, Call.sourceFor?, wanted_rename_self]
      · simpa [Call.apply, Call.sourceFor?, hd, wanted_rename_of_ne] using ih

end

/-- Whatever calls have made the rules : pairs come in the order of the destination members, each of
which is filled once at most. A member is filled if it is writable, its name is not ignored, and
there is a source member for it : for the name that it was renamed from last, or for its own, the
first readable member of that very name, or, if there is none and case is ignored, the first that
differs from it in the case of letters. So nothing is read that is not readable, or written that is
not writable. One more ignored name, wherever it is said, takes away the pairs of that name and no
other ones. -/
theorem pairs_after_calls (before after : List Call) (source destination : Descriptor) :
    let calls := before ++ after
    let pairs := (calls.foldl Call.apply {}).pairs source destination
    pairs.Pairwise (·.destination < ·.destination) ∧
      (∀ p, p ∈ pairs ↔ ∃ m, destination.members[p.destination]? = some m ∧
        m.access.writable = true ∧ .ignore m.name ∉ calls ∧
        let name := (calls.filterMap (Call.sourceFor? m.name)).getLastD m.name
        source.FirstReadable (· = name) p.source ∨
          (.ignoringCase ∈ calls ∧
            (∀ m' ∈ source.members, m'.access.readable = true → m'.name ≠ name) ∧
            source.FirstReadable
              (fun n => n.toList.map Char.toLower = name.toList.map Char.toLower) p.source)) ∧
      (∀ p ∈ pairs, ∃ m m', source.members[p.source]? = some m ∧ m.access.readable = true ∧
        destination.members[p.destination]? = some m' ∧ m'.access.writable = true) ∧
      ∀ name, ((before ++ .ignore name :: after).foldl Call.apply {}).pairs source destination =
        pairs.filter fun p => destination.members[p.destination]?.map Member.name != some name := by
  intro calls pairs
  refine ⟨pairwise_pairs _ source destination, fun p => ?_, fun p hp => ?_, fun name => ?_⟩
  · refine mem_pairs_iff.trans (exists_congr fun m => and_congr_right fun _ => ?_)
    rw [takes_after_calls, wanted_after_calls, sourceIndex?_eq_some_iff,
      caseInsensitive_after_calls, and_assoc]
  · obtain ⟨m', hm', htakes, hsource⟩ := mem_pairs_iff.mp hp
    obtain ⟨m, hm, hr⟩ := readable_of_sourceIndex? hsource
    exact ⟨m, m', hm, hr, hm', (takes_after_calls calls m').mp htakes |>.1⟩
  · refine pairs_eq_filter ?_ (fun n => ?_) (fun m => ?_) source destination
    · rw [Bool.eq_iff_iff, caseInsensitive_after_calls, caseInsensitive_after_calls]
      simp [calls]
    · rw [wanted_after_calls, wanted_after_calls]
      simp [calls, Call.sourceFor?]
    · rw [Bool.eq_iff_iff, Bool.and_eq_true, takes_after_calls, takes_after_calls, bne_iff_ne]
      simp only [calls, List.mem_append, List.mem_cons, Call.ignore.injEq, not_or, and_assoc]
      exact and_congr_right fun _ => and_congr_right fun _ => and_comm

/-- A member of the very name is preferred to an earlier one that differs in case. -/
example :
    let source := Descriptor.ofRecord "S" [⟨"NAME", ShapeId.str, {}⟩, ⟨"name", ShapeId.str, {}⟩]
    let destination := Descriptor.ofRecord "T" [⟨"id", ShapeId.int, {}⟩, ⟨"name", ShapeId.str, {}⟩]
    ([Call.ignoringCase, .rename "id" "Name"].foldl Call.apply {}).pairs source destination =
      [⟨0, 0⟩, ⟨1, 1⟩] := by
  decide +kernel

end NameRules

end Reshape
