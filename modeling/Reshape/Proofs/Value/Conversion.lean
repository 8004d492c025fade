import Reshape.Proofs.Value.Heap

/-!
# Conversions there and back

What is written of an integer, a truth value or a character reads back, and so do the codes of
characters (`readInt64?_of_blank`, `readBool?_text`, `charOfCode?_eq_some_iff`). White space around
the text of an integer makes no difference, for none is in the text itself. A character is read as
it stands, be it white space or not.

`Heap.convert_returns` says this of values : converted into another primitive, and from there back
again, they come out as they were (`Value.Returns`), in boxes or not, and whatever the heap has
become in the meantime.
-/

namespace Reshape

/-! ## Texts -/

namespace Text

theorem dropWhile_eq_self {cs : List Char} (h : ∀ c ∈ cs, isBlank c = false) :
    cs.dropWhile isBlank = cs := by
  cases cs with
  | nil => rfl
  | cons c cs => exact List.dropWhile_cons_of_neg (by simp [h c List.mem_cons_self])

/-- A text without blank characters is left as it is. -/
theorem trim_eq_self {cs : List Char} (h : ∀ c ∈ cs, isBlank c = false) : trim cs = cs := by
  rw [trim, dropWhile_eq_self h, trimEnd,
    dropWhile_eq_self fun c hc => h c (List.mem_reverse.mp hc), List.reverse_reverse]

theorem isBlank_of_isDigit {c : Char} (h : c.isDigit = true) : isBlank c = false := by
  have hrange : 48 ≤ c.toNat ∧ c.toNat ≤ 57 := by
    simp only [Char.isDigit, Bool.and_eq_true, decide_eq_true_eq, ge_iff_le,
      UInt32.le_iff_toNat_le] at h
    exact h
  simp only [isBlank, Bool.or_eq_false_iff, Bool.and_eq_false_imp, decide_eq_true_eq,
    decide_eq_false_iff_not, beq_eq_false_iff_ne]
  omega

end Text

theorem isBlank_of_mem_intText {n : Int} {c : Char} (h : c ∈ intText n) :
    Text.isBlank c = false := by
  unfold intText at h
  split at h
  · rcases List.mem_cons.mp h with rfl | h
    · rfl
    · exact Text.isBlank_of_isDigit (isDigit_of_mem_natText h)
  · exact Text.isBlank_of_isDigit (isDigit_of_mem_natText h)

/-- The text of an integer reads back, with any white space around it. -/
theorem readInt64?_of_blank (n : Int64) {pre post : List Char}
    (hpre : ∀ c ∈ pre, Text.isBlank c) (hpost : ∀ c ∈ post, Text.isBlank c) :
    readInt64? (Text.trim (pre ++ intText n.toInt ++ post)) = some n := by
  rw [Text.trim_append_of_blank hpost, Text.trim_of_blank_append hpre,
    Text.trim_eq_self fun _ => isBlank_of_mem_intText, readInt64?_intText]

theorem readBool?_text (b : Bool) : readBool? (if b then "true" else "false") = some b := by
  cases b <;> decide

theorem readChar?_singleton (c : Char) : readChar? (String.singleton c) = some c := by
  rw [readChar?, String.toList_singleton]

/-! ## Codes -/

/-- The number is a code point, and no surrogate. -/
def IsScalar (n : Int) : Prop :=
  0 ≤ n ∧ n ≤ 0x10FFFF ∧ ¬ (0xD800 ≤ n ∧ n ≤ 0xDFFF)

theorem toNat_charOfNat {n : Nat} (h : n.isValidChar) : (Char.ofNat n).toNat = n := by
  rw [Char.ofNat, dif_pos h]
  rfl

theorem charOfCode?_eq_some_iff {n : Int} {c : Char} : charOfCode? n = some c ↔ n = c.toNat := by
  unfold charOfCode?
  constructor
  · intro h
    split at h
    · rename_i hn
      obtain rfl := Option.some.inj h
      rw [toNat_charOfNat hn.2, Int.toNat_of_nonneg hn.1]
    · cases h
  · rintro rfl
    have hvalid : ((c.toNat : Int).toNat).isValidChar := c.valid
    rw [if_pos ⟨Int.natCast_nonneg _, hvalid⟩, Int.toNat_natCast, Char.ofNat_toNat]

theorem exists_charOfCode?_iff {n : Int} : (∃ c, charOfCode? n = some c) ↔ IsScalar n := by
  have hvalid : (0 ≤ n ∧ n.toNat.isValidChar) ↔ IsScalar n := by
    unfold Nat.isValidChar IsScalar
    omega
  rw [← hvalid, charOfCode?]
  split
  · rename_i h
    exact ⟨fun _ => h, fun _ => ⟨_, rfl⟩⟩
  · rename_i h
    exact ⟨nofun, fun h' => (h h').elim⟩

theorem toInt_ofNat_toNat (c : Char) : (Int64.ofNat c.toNat).toInt = c.toNat := by
  refine Int64.toInt_ofNat_of_lt ?_
  have hvalid : c.toNat.isValidChar := c.valid
  unfold Nat.isValidChar at hvalid
  omega

/-! ## Conversions -/

namespace Heap

variable {u v w : Value} {p : Primitive} {text : String} {heap heap' : Heap}

/-- Unless a string is asked for, the outcome goes by the value alone. -/
theorem convert_inline (hu : v.unboxed = u) (hnull : u ≠ .null) (hp : p ≠ .str) (heap : Heap) :
    heap.convert v p =
      match u.convertInline? p with
      | some w => (.ok w, heap)
      | none => (.error ⟨heap.text u, p⟩, heap) := by
  unfold convert
  rw [hu]
  split
  · exact absurd rfl hnull
  · exact absurd rfl hp
  · exact absurd rfl hp
  · rfl

theorem convert_inline_eq_ok_iff (hu : v.unboxed = u) (hnull : u ≠ .null) (hp : p ≠ .str) :
    heap.convert v p = (.ok w, heap') ↔ u.convertInline? p = some w ∧ heap' = heap := by
  rw [convert_inline hu hnull hp]
  cases u.convertInline? p <;> simp [eq_comm]

/-- The text of a value other than a string is made anew. -/
theorem convert_plainText (hu : v.unboxed = u) (hstring : u.text? = none)
    (h : u.plainText? = some text) (heap : Heap) :
    heap.convert v .str =
      (.ok (.str ⟨heap.tokens⟩ text), { heap with tokens := heap.tokens + 1 }) := by
  unfold convert
  rw [hu]
  split
  · cases h
  · cases hstring
  · rw [h]
    rfl
  · rename_i hp _
    exact (hp rfl).elim

end Heap

/-! ## There and back -/

/-- Converted into the primitive `via`, and from there back into `back`, the value comes out as
`result` : whatever the heaps are, and whether what there is on the way is put in a box or not. -/
def Value.Returns (v : Value) (via back : Primitive) (result : Value) : Prop :=
  ∀ heap : Heap, ∃ w heap', heap.convert v via = (.ok w, heap') ∧
    ∀ (w' : Value) (later : Heap), w'.unboxed = w → later.convert w' back = (.ok result, later)

namespace Value.Returns

variable {u v w result : Value} {via back : Primitive} {text : String}

theorem of_inline (hu : v.unboxed = u) (hvia : via ≠ .str) (hback : back ≠ .str)
    (h : u.convertInline? via = some w) (h' : w.convertInline? back = some result) :
    v.Returns via back result := by
  have hnull : u ≠ .null := by
    rintro rfl
    cases h
  have hnull' : w ≠ .null := by
    rintro rfl
    cases h'
  exact fun heap => ⟨w, heap, (Heap.convert_inline_eq_ok_iff hu hnull hvia).mpr ⟨h, rfl⟩,
    fun _ _ hw => (Heap.convert_inline_eq_ok_iff hw hnull' hback).mpr ⟨h', rfl⟩⟩

theorem of_text (hu : v.unboxed = u) (hstring : u.text? = none) (h : u.plainText? = some text)
    (hback : back ≠ .str)
    (h' : ∀ token, (Value.str token text).convertInline? back = some result) :
    v.Returns .str back result := fun heap =>
  ⟨_, _, Heap.convert_plainText hu hstring h heap,
    fun _ _ hw => (Heap.convert_inline_eq_ok_iff hw nofun hback).mpr ⟨h' _, rfl⟩⟩

end Value.Returns

/-- What is read from the value is what it converts into. -/
theorem Heap.convert_read_iff {α : Type} {read : Option α} {f : α → Value} (p : Primitive)
    {u v w : Value} {heap heap' : Heap} (hu : v.unboxed = u) (hnull : u ≠ .null) (hp : p ≠ .str)
    (h : u.convertInline? p = read.map f) : heap.convert v p = (.ok w, heap') ↔
      ∃ a, read = some a ∧ w = f a ∧ heap' = heap := by
  rw [convert_inline_eq_ok_iff hu hnull hp, h, Option.map_eq_some_iff]
  constructor
  · rintro ⟨⟨a, ha, rfl⟩, rfl⟩
    exact ⟨a, ha, rfl, rfl⟩
  · rintro ⟨a, ha, rfl, rfl⟩
    exact ⟨⟨a, ha, rfl⟩, rfl⟩

theorem Value.returns_int {n : Int64} {v : Value} (hv : v.unboxed = .int n) :
    v.Returns .str .int (.int n) := by
  refine .of_text hv rfl rfl nofun fun _ => ?_
  have hread := readInt64?_of_blank n (List.forall_mem_nil _) (List.forall_mem_nil _)
  rw [List.nil_append, List.append_nil] at hread
  rw [convertInline?, String.toList_ofList, hread, Option.map_some]

/-- What is written of a primitive, or is its code, is that primitive again when it is converted
back. This holds of every integer and its text, with any white space around it ; of both truth
values, their texts and their numbers ; and of every character, its text and its code. The codes of
characters are the scalar values, and these convert into characters and back. A string that converts
into an integer may be written differently from that integer, but the text of the integer stands for
the same one. Boxes around what is converted make no difference anywhere. -/
theorem Heap.convert_returns :
    (∀ (n : Int64) (v : Value), v.unboxed = .int n → v.Returns .str .int (.int n) ∧
      ∀ (heap : Heap) (pre post : String),
        (∀ c ∈ pre.toList, Text.isBlank c) → (∀ c ∈ post.toList, Text.isBlank c) →
        ∃ token text heap', heap.convert v .str = (.ok (.str token text), heap') ∧
          ∀ (w : Value) (token' : Token) (later : Heap),
            w.unboxed = .str token' (pre ++ text ++ post) →
            later.convert w .int = (.ok (.int n), later)) ∧
      (∀ (b : Bool) (v : Value), v.unboxed = .bool b →
        v.Returns .str .bool (.bool b) ∧ v.Returns .int .bool (.bool b)) ∧
      (∀ (c : Char) (v : Value), v.unboxed = .char c →
        v.Returns .str .char (.char c) ∧ v.Returns .int .char (.char c)) ∧
      (∀ (n : Int64) (v : Value), v.unboxed = .int n →
        (∀ heap : Heap, (∃ w heap', heap.convert v .char = (.ok w, heap')) ↔ IsScalar n.toInt) ∧
        (IsScalar n.toInt → v.Returns .char .int (.int n))) ∧
      ∀ (token : Token) (s : String) (v : Value), v.unboxed = .str token s →
        ∀ (heap heap' : Heap) (w : Value), heap.convert v .int = (.ok w, heap') →
          ∃ n, w = .int n ∧ ∀ w' : Value, w'.unboxed = w → w'.Returns .str .int w := by
  refine ⟨fun n v hv => ⟨Value.returns_int hv, ?_⟩, fun b v hv => ⟨?_, ?_⟩, fun c v hv => ⟨?_, ?_⟩,
    fun n v hv => ⟨fun heap => ?_, fun hn => ?_⟩, fun token s v hv heap heap' w h => ?_⟩
  · intro heap pre post hpre hpost
    refine ⟨_, _, _, convert_plainText hv rfl rfl heap, fun w token' later hw => ?_⟩
    have hread := readInt64?_of_blank n hpre hpost
    refine (convert_read_iff .int hw nofun nofun rfl).mpr ⟨n, ?_, rfl, rfl⟩
    rwa [String.toList_append, String.toList_append, String.toList_ofList]
  · refine .of_text hv rfl rfl nofun fun _ => ?_
    rw [Value.convertInline?, readBool?_text, Option.map_some]
  · refine .of_inline hv nofun nofun rfl ?_
    cases b <;> rfl
  · refine .of_text hv rfl rfl nofun fun _ => ?_
    rw [Value.convertInline?, readChar?_singleton, Option.map_some]
  · refine .of_inline hv nofun nofun rfl ?_
    rw [Value.convertInline?, charOfCode?_eq_some_iff.mpr (toInt_ofNat_toNat c), Option.map_some]
  · rw [← exists_charOfCode?_iff]
    constructor
    · rintro ⟨w, heap', h⟩
      obtain ⟨c, hc, -⟩ := (convert_read_iff .char hv nofun nofun rfl).mp h
      exact ⟨c, hc⟩
    · rintro ⟨c, hc⟩
      exact ⟨_, _, (convert_read_iff .char hv nofun nofun rfl).mpr ⟨c, hc, rfl, rfl⟩⟩
  · obtain ⟨c, hc⟩ := exists_charOfCode?_iff.mpr hn
    have hcode : n.toInt = c.toNat := charOfCode?_eq_some_iff.mp hc
    refine .of_inline hv nofun nofun (by rw [Value.convertInline?, hc, Option.map_some]) ?_
    rw [Value.convertInline?, ← Int64.toInt_inj.mp (hcode.trans (toInt_ofNat_toNat c).symm)]
  · obtain ⟨n, -, rfl, -⟩ := (convert_read_iff .int hv nofun nofun rfl).mp h
    exact ⟨n, rfl, fun _ => Value.returns_int⟩

end Reshape
