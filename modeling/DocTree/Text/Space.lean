/-!
# White space

The property `White_Space` of Unicode characters. It is the one notion of blank used for trimming,
for splitting into words and for telling blank lines from others.

* `isSpace`: the twenty-five characters of the property;
* `isHardBlank`: the two characters that may separate a field's keyword from its text.
-/

namespace DocTree.Text

/-- The Unicode property `White_Space`: `U+0009–000D`, `0020`, `0085`, `00A0`, `1680`, `2000–200A`,
`2028`, `2029`, `202F`, `205F` and `3000`. -/
def isSpace (c : Char) : Bool :=
  let n := c.toNat
  (0x9 ≤ n && n ≤ 0xD) || n == 0x20 || n == 0x85 || n == 0xA0 || n == 0x1680 ||
    (0x2000 ≤ n && n ≤ 0x200A) || n == 0x2028 || n == 0x2029 || n == 0x202F || n == 0x205F ||
    n == 0x3000

/-- A blank within a marker line: the space or the tab, and no other white space. -/
def isHardBlank (c : Char) : Bool := c == ' ' || c == '\t'

/-- White space among the ASCII characters, without the vertical tab. -/
def isAsciiSpace (c : Char) : Bool :=
  c == ' ' || c == '\t' || c == '\n' || c == '\x0c' || c == '\r'

/-- Everything that the standard library counts as white space is white space here. -/
theorem isSpace_of_isWhitespace {c : Char} (h : c.isWhitespace = true) : isSpace c = true := by
  simp only [Char.isWhitespace, Bool.or_eq_true, decide_eq_true_eq] at h
  rcases h with ((h | h) | h) | h <;> subst h <;> rfl

theorem isSpace_of_isAsciiSpace {c : Char} (h : isAsciiSpace c = true) : isSpace c = true := by
  simp only [isAsciiSpace, Bool.or_eq_true, beq_iff_eq] at h
  rcases h with (((h | h) | h) | h) | h <;> subst h <;> rfl

end DocTree.Text
