import TaggedYaml.Text.Class

/-!
# Cursor — a place in a text, with what is left of it

Offsets and columns count characters from 0, lines from 1.  A cursor also knows how many of the
characters before it a reader has already looked at (`ahead`): the lines of a block scalar are
measured in characters as far as they were looked at and in bytes beyond, so that number decides
where such a line is said to end.  Everything else depends on `rest` and `mark` alone.
-/

namespace TaggedYaml

/-- A place in a text. -/
structure Mark where
  offset : Nat
  line : Nat
  column : Nat
deriving DecidableEq, Repr

namespace Mark

/-- The first place of a text. -/
def start : Mark := ⟨0, 1, 0⟩

/-- `n` places further on the same line. -/
def right (m : Mark) (n : Nat) : Mark := { m with offset := m.offset + n, column := m.column + n }

/-- The beginning of the next line, behind one character. -/
def nextLine (m : Mark) : Mark := ⟨m.offset + 1, m.line + 1, 0⟩

@[simp] theorem right_zero (m : Mark) : m.right 0 = m := rfl

@[simp] theorem right_right (m : Mark) (j k : Nat) : (m.right j).right k = m.right (j + k) := by
  simp [right, Nat.add_assoc]

end Mark

/-- What is left of a text and where it begins. -/
structure Cursor where
  /-- The characters not yet read. -/
  rest : List Char
  mark : Mark
  /-- How many characters of `rest` have been looked at. -/
  ahead : Nat
  /-- Nothing but blanks has been read on this line. -/
  leading : Bool
deriving DecidableEq, Repr

namespace Cursor

/-- The cursor before a text.  U+0000 ends a text. -/
def ofList (text : List Char) : Cursor :=
  ⟨text.takeWhile (· != '\x00'), .start, 0, true⟩

/-- The next character. -/
def head? (c : Cursor) : Option Char := c.rest.head?

/-- The character after the next. -/
def second? (c : Cursor) : Option Char := c.rest.tail.head?

/-- Looks at the next `n` characters. -/
def look (c : Cursor) (n : Nat) : Cursor := { c with ahead := max c.ahead n }

/-- Passes `n` characters of one line. -/
def pass (c : Cursor) (n : Nat) : Cursor :=
  { c with rest := c.rest.drop n, mark := c.mark.right n, ahead := c.ahead - n }

/-- Passes `n` characters of one line of which one is not blank. -/
def passInk (c : Cursor) (n : Nat) : Cursor := { c.pass n with leading := false }

/-- Passes a line break; a carriage return and a line feed after it are one break. -/
def passBreak (c : Cursor) : Cursor :=
  match c.rest with
  | '\r' :: '\n' :: rest =>
    ⟨rest, (c.mark.right 1).nextLine, c.ahead - 2, true⟩
  | _ :: rest => ⟨rest, c.mark.nextLine, c.ahead - 1, true⟩
  | [] => c

/-- The longest run of characters in a class, from the cursor on. -/
def run (c : Cursor) (p : Char → Bool) : List Char := c.rest.takeWhile p

/-- Passes a run of blanks, looking at each. -/
def passBlanks (c : Cursor) (p : Char → Bool) : Cursor := (c.pass (c.run p).length).look 1

/-- Passes the rest of the line, which is not blank, looking at each character. -/
def passLine (c : Cursor) : Cursor := (c.passInk (c.run (!isBreak ·)).length).look 1

/-- The next four characters are `---` and a blank, a break or the end. -/
def atDashes (c : Cursor) : Bool :=
  c.rest.take 3 == ['-', '-', '-'] && c.rest[3]?.all isGap

/-- The next four characters are `...` and a blank, a break or the end. -/
def atDots (c : Cursor) : Bool :=
  c.rest.take 3 == ['.', '.', '.'] && c.rest[3]?.all isGap

/-- A document indicator stands at the beginning of this line. -/
def atDocumentMark (c : Cursor) : Bool := c.mark.column == 0 && (c.atDashes || c.atDots)

/-! ### What the moves do to the text and the place -/

@[simp] theorem rest_look (c : Cursor) (n : Nat) : (c.look n).rest = c.rest := rfl

@[simp] theorem mark_look (c : Cursor) (n : Nat) : (c.look n).mark = c.mark := rfl

@[simp] theorem rest_pass (c : Cursor) (n : Nat) : (c.pass n).rest = c.rest.drop n := rfl

@[simp] theorem mark_pass (c : Cursor) (n : Nat) : (c.pass n).mark = c.mark.right n := rfl

@[simp] theorem rest_passInk (c : Cursor) (n : Nat) : (c.passInk n).rest = c.rest.drop n := rfl

@[simp] theorem mark_passInk (c : Cursor) (n : Nat) : (c.passInk n).mark = c.mark.right n := rfl

@[simp] theorem leading_passInk (c : Cursor) (n : Nat) : (c.passInk n).leading = false := rfl

end Cursor

end TaggedYaml
