import ShellConfig.Text.CharRange

/-!
Blanks: the characters with the Unicode property White_Space. The separators U+001C to U+001F, the
zero width space U+200B and the byte order mark U+FEFF are not among them.
-/

set_option autoImplicit false

namespace ShellConfig

/-- The blanks, as increasing disjoint ranges. -/
def blankRanges : List CharRange :=
  [(0x9, 0xD), (0x20, 0x20), (0x85, 0x85), (0xA0, 0xA0), (0x1680, 0x1680), (0x2000, 0x200A),
   (0x2028, 0x2029), (0x202F, 0x202F), (0x205F, 0x205F), (0x3000, 0x3000)]

/-- Whether the character is white space. -/
def isBlank (c : Char) : Bool := inRanges blankRanges c

/-- Whether the character is white space within a line: a blank, and neither `\r` nor `\n`. -/
def isInlineBlank (c : Char) : Bool := c ≠ '\r' && c ≠ '\n' && isBlank c

/-- Whether the character may stand between a name and its operator, and after the operator. -/
def isPlainBlank (c : Char) : Bool := c = ' ' || c = '\t' || c = '\x0b' || c = '\x0c'

theorem isBlank_of_isWhitespace {c : Char} (h : c.isWhitespace) : isBlank c := by
  simp only [Char.isWhitespace, Bool.or_eq_true, decide_eq_true_eq] at h
  rcases h with ((h | h) | h) | h <;> subst h <;> decide

theorem isInlineBlank_of_isPlainBlank {c : Char} (h : isPlainBlank c) : isInlineBlank c := by
  simp only [isPlainBlank, Bool.or_eq_true, decide_eq_true_eq] at h
  rcases h with ((h | h) | h) | h <;> subst h <;> decide

end ShellConfig
