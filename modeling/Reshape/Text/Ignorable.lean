/-!
# Characters that are ignored by default

`isIgnorable` is the Unicode property Default_Ignorable_Code_Point : the characters that are
not shown at all where nothing is known about them, such as joiners, variation selectors and
the fillers of the Hangul alphabet. `ignorableRanges` lists them as closed ranges of code
points, in ascending order.
-/

namespace Reshape.Text

/-- The code points with the property Default_Ignorable_Code_Point, as closed ranges in
ascending order. -/
def ignorableRanges : Array (Nat × Nat) := #[
  (0xAD, 0xAD), (0x34F, 0x34F), (0x61C, 0x61C), (0x115F, 0x1160), (0x17B4, 0x17B5),
  (0x180B, 0x180F), (0x200B, 0x200F), (0x202A, 0x202E), (0x2060, 0x206F), (0x3164, 0x3164),
  (0xFE00, 0xFE0F), (0xFEFF, 0xFEFF), (0xFFA0, 0xFFA0), (0xFFF0, 0xFFF8), (0x1BCA0, 0x1BCA3),
  (0x1D173, 0x1D17A), (0xE0000, 0xE0FFF)]

/-- The character is not shown where nothing is known about it. -/
def isIgnorable (c : Char) : Bool :=
  ignorableRanges.any fun r => r.1 ≤ c.toNat && c.toNat ≤ r.2

end Reshape.Text
