/-!
# White space

The characters that count as white space, in the Unicode sense (`White_Space`). The class of blanks
is wider than `Char.isWhitespace`, which knows the ASCII ones only.
-/

set_option autoImplicit false

namespace CommandFactory.Text

/-- White space of any script, line separators included. -/
def isBlank (c : Char) : Bool :=
  let n := c.toNat
  (0x9 ≤ n && n ≤ 0xD) || n == 0x20 || n == 0x85 || n == 0xA0 || n == 0x1680 ||
    (0x2000 ≤ n && n ≤ 0x200A) || n == 0x2028 || n == 0x2029 || n == 0x202F || n == 0x205F ||
    n == 0x3000

/-- Every character that `Char.isWhitespace` accepts is a blank. -/
theorem isBlank_of_isWhitespace {c : Char} (h : c.isWhitespace = true) : isBlank c = true := by
  simp only [Char.isWhitespace, Bool.or_eq_true, decide_eq_true_eq] at h
  rcases h with ((h | h) | h) | h <;> subst h <;> decide

end CommandFactory.Text
