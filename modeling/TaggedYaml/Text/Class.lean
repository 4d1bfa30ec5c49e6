/-!
# Character classes of the markup

The sets of characters that the lexer tells apart.  A class is a test on `Char`; where the text may
be over, a test is asked of an `Option Char` through `Option.any` (the end is outside the class) or
`Option.all` (the end counts as inside).
-/

namespace TaggedYaml

/-- A space or a tab. -/
def isBlank (c : Char) : Bool := c == ' ' || c == '\t'

/-- A character that ends a line. -/
def isBreak (c : Char) : Bool := c == '\n' || c == '\r'

/-- A blank or the end of a line. -/
def isGap (c : Char) : Bool := isBlank c || isBreak c

/-- The indicators of flow collections. -/
def isFlowMark (c : Char) : Bool := c == ',' || c == '[' || c == ']' || c == '{' || c == '}'

/-- ASCII letters, digits, `_` and `-`: the characters of directive names and tag handles. -/
def isNameChar (c : Char) : Bool := c.isAlphanum || c == '_' || c == '-'

/-- Characters of anchor names; U+FEFF is not one of them. -/
def isAnchorChar (c : Char) : Bool := !isGap c && !isFlowMark c && c != '\uFEFF'

/-- The characters besides letters and digits that a tag may hold without an escape. -/
def tagMarks : List Char :=
  ['-', '#', ';', '/', '?', ':', '@', '&', '=', '+', '$', '.', '~', '*', '\'', '(', ')', '%', '_']

/-- Characters that a tag may hold without an escape. -/
def isTagChar (c : Char) : Bool := c.isAlphanum || tagMarks.contains c

/-- Characters of a full tag address: those of a tag, `!`, `,` and the square brackets. -/
def isUriChar (c : Char) : Bool := isTagChar c || c == '!' || c == ',' || c == '[' || c == ']'

/-- White space of any script. -/
def isWhite (c : Char) : Bool :=
  let n := c.toNat
  (9 ≤ n && n ≤ 13) || n == 0x20 || n == 0x85 || n == 0xA0 || n == 0x1680 ||
    (0x2000 ≤ n && n ≤ 0x200A) || n == 0x2028 || n == 0x2029 || n == 0x202F || n == 0x205F ||
    n == 0x3000

/-- Control characters: U+0000 to U+001F and U+007F to U+009F. -/
def isControl (c : Char) : Bool := c.toNat < 0x20 || (0x7F ≤ c.toNat && c.toNat ≤ 0x9F)

/-- The value of a hexadecimal digit. -/
def hexValue? (c : Char) : Option Nat :=
  if c.isDigit then some (c.toNat - '0'.toNat)
  else if 'a' ≤ c ∧ c ≤ 'f' then some (c.toNat - 'a'.toNat + 10)
  else if 'A' ≤ c ∧ c ≤ 'F' then some (c.toNat - 'A'.toNat + 10)
  else none

/-- The character of a code point, if it is one: surrogates and numbers above U+10FFFF are not. -/
def charOfCode? (n : Nat) : Option Char :=
  if n.isValidChar then some (Char.ofNat n) else none

/-! ### How the classes lie to one another -/

theorem isGap_of_isBlank {c : Char} (h : isBlank c = true) : isGap c = true := by simp [isGap, h]

theorem isWhite_of_isGap {c : Char} (h : isGap c = true) : isWhite c = true := by
  simp only [isGap, isBlank, isBreak, Bool.or_eq_true, beq_iff_eq] at h
  rcases h with (rfl | rfl) | rfl | rfl <;> decide

theorem isControl_of_isBreak {c : Char} (h : isBreak c = true) : isControl c = true := by
  simp only [isBreak, Bool.or_eq_true, beq_iff_eq] at h
  rcases h with rfl | rfl <;> decide

end TaggedYaml
