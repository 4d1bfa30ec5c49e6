import TaggedYaml.Token.Lexer

/-!
# Space between tokens

Blanks, line breaks and comments.  `trailing` is what may follow a token on its line, `skipSpace`
what may stand before the next one.
-/

namespace TaggedYaml

/-- What stood between a token and the next character or the end of its line. -/
structure Trailing where
  hasTab : Bool
  hasSpace : Bool
  cursor : Cursor

/-- Passes blanks and a comment; a comment needs a blank before it. -/
def Cursor.trailing (c : Cursor) (tabs : Bool) : Except Fault Trailing :=
  let p := fun x => x == ' ' || (tabs && x == '\t')
  let gap := c.run p
  let d := c.passBlanks p
  if d.head? == some '#' then
    if gap.isEmpty then .error ⟨d.mark, .commentTouches⟩
    else .ok ⟨gap.contains '\t', gap.contains ' ', d.passLine⟩
  else .ok ⟨gap.contains '\t', gap.contains ' ', d⟩

namespace Lexer

/-- Passes blanks and a comment behind a token. -/
def skipTrailing (l : Lexer) : Except Fault Lexer := do
  return l.move (← l.cursor.trailing true).cursor

/-- A tab stands where only spaces may indent a block. -/
def tabIndents (l : Lexer) : Bool :=
  l.cursor.head? == some '\t' && !l.levels.isEmpty && l.cursor.leading && l.column < l.indent

/-- One line break; outside brackets a key may begin on the next line. -/
def skipBreak (l : Lexer) : Lexer :=
  let l := l.move (l.cursor.look 2).passBreak
  if l.inFlow then l else l.allowKey true

/-- Rounds of `skipSpace`, each over one blank, break or comment. -/
def skipSpaceLoop : Nat → Lexer → Except Fault Lexer
  | 0, l => .ok l
  | fuel + 1, l =>
    let l := l.move (l.cursor.look 1)
    if l.tabIndents then do
      let l ← l.skipTrailing
      if l.cursor.head?.all isBreak then skipSpaceLoop fuel l else l.fail .tabIndentation
    else
      match l.cursor.head? with
      | none => .ok l
      | some c =>
        if isBlank c then skipSpaceLoop fuel (l.move (l.cursor.pass 1))
        else if isBreak c then skipSpaceLoop fuel l.skipBreak
        else if c == '#' then skipSpaceLoop fuel (l.move l.cursor.passLine)
        else .ok l

/-- Passes all that separates tokens. -/
def skipSpace (l : Lexer) : Except Fault Lexer := skipSpaceLoop (l.cursor.rest.length + 1) l

/-- Rounds of `skipKeySpace`; `found` says that a space or a break was met. -/
def skipKeySpaceLoop : Nat → Bool → Lexer → Except Fault Lexer
  | 0, _, l => .ok l
  | fuel + 1, found, l =>
    let l := l.move (l.cursor.look 1)
    match l.cursor.head? with
    | some ' ' => skipKeySpaceLoop fuel true (l.move (l.cursor.pass 1))
    | some '#' => skipKeySpaceLoop fuel found (l.move l.cursor.passLine)
    | some c =>
      if isBreak c then skipKeySpaceLoop fuel true l.skipBreak
      else if found then .ok l else l.fail .blankExpected
    | none => if found then .ok l else l.fail .blankExpected

/-- Passes what separates a `?` from its key: spaces, breaks and comments, but no tab. -/
def skipKeySpace (l : Lexer) : Except Fault Lexer :=
  skipKeySpaceLoop (l.cursor.rest.length + 1) false l

end Lexer

end TaggedYaml
