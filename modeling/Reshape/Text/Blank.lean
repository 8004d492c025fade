/-!
# Blank characters

`isBlank` is the Unicode property White_Space, and `trim` removes the blank characters
at both ends of a text. What `trim` leaves neither starts nor ends with a blank
character, and blank characters added at the ends make no difference to it
(`trim_append_of_blank`, `trim_of_blank_append`).
-/

namespace Reshape.Text

/-- The character has the property White_Space. -/
def isBlank (c : Char) : Bool :=
  let n := c.toNat
  (9 ≤ n && n ≤ 13) || n == 0x20 || n == 0x85 || n == 0xA0 || n == 0x1680 ||
    (0x2000 ≤ n && n ≤ 0x200A) || n == 0x2028 || n == 0x2029 || n == 0x202F || n == 0x205F ||
    n == 0x3000

/-- The text without the blank characters at its end. -/
def trimEnd (cs : List Char) : List Char :=
  (cs.reverse.dropWhile isBlank).reverse

/-- The text without the blank characters at its start and end. -/
def trim (cs : List Char) : List Char :=
  trimEnd (cs.dropWhile isBlank)

theorem dropWhile_append_of_blank {pre : List Char} (h : ∀ c ∈ pre, isBlank c) (cs : List Char) :
    (pre ++ cs).dropWhile isBlank = cs.dropWhile isBlank := by
  induction pre with
  | nil => rfl
  | cons c pre ih =>
    rw [List.cons_append, List.dropWhile_cons_of_pos (h c (by simp))]
    exact ih fun d hd => h d (List.mem_cons_of_mem c hd)

theorem trim_of_blank_append {pre : List Char} (h : ∀ c ∈ pre, isBlank c) (cs : List Char) :
    trim (pre ++ cs) = trim cs := by
  rw [trim, trim, dropWhile_append_of_blank h]

theorem trimEnd_append_of_blank {post : List Char} (h : ∀ c ∈ post, isBlank c)
    (cs : List Char) : trimEnd (cs ++ post) = trimEnd cs := by
  rw [trimEnd, trimEnd, List.reverse_append,
    dropWhile_append_of_blank fun c hc => h c (List.mem_reverse.mp hc)]

theorem trimEnd_eq_nil_of_blank {cs : List Char} (h : ∀ c ∈ cs, isBlank c) : trimEnd cs = [] := by
  simpa [trimEnd] using trimEnd_append_of_blank h []

theorem trim_append_of_blank {post : List Char} (h : ∀ c ∈ post, isBlank c) (cs : List Char) :
    trim (cs ++ post) = trim cs := by
  rw [trim, trim, List.dropWhile_append]
  split
  · rename_i hcs
    rw [List.isEmpty_iff.mp hcs, trimEnd_eq_nil_of_blank fun c hc =>
      h c ((List.dropWhile_sublist isBlank).subset hc)]
    rfl
  · exact trimEnd_append_of_blank h _

end Reshape.Text
