import Mathlib.Data.List.DropRight

/-!
Blank characters, and text without those around it.

Blank is what the language trims: its white space and its line terminators.
-/

namespace Text

def isBlank (c : Char) : Bool :=
  let n := c.toNat
  (9 ≤ n && n ≤ 13) || n == 0x20 || n == 0xA0 || n == 0x1680 || (0x2000 ≤ n && n ≤ 0x200A) ||
    n == 0x2028 || n == 0x2029 || n == 0x202F || n == 0x205F || n == 0x3000 || n == 0xFEFF

def trim (cs : List Char) : List Char := (cs.dropWhile isBlank).rdropWhile isBlank

end Text
