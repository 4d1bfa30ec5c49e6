import TaggedYaml.Token.Gap
import TaggedYaml.Token.Space

/-!
# Plain scalars

A plain scalar is a list of words without quotes.  It ends before a comment, a `:` that ends a key,
an indicator of the bracket it stands in, a document indicator, or a line that is not indented
enough.
-/

namespace TaggedYaml

/-- A character that a plain scalar may go on with, by the character after it. -/
def isPlainChar (inFlow : Bool) (c : Char) (next : Option Char) : Bool :=
  !isGap c && !(c == ':' && (next.all isGap || (inFlow && next.any isFlowMark))) &&
    !(inFlow && isFlowMark c)

/-- The word of a plain scalar at the beginning of a text. -/
def plainWord (inFlow : Bool) : List Char → List Char
  | [] => []
  | c :: rest => if isPlainChar inFlow c rest.head? then c :: plainWord inFlow rest else []

/-- Rounds of `readPlainGap`, each over one blank or break, or over a line that is indented with a
tab.  The break of such a line is the first one again if a comment stood on it. -/
def readPlainGapLoop (indent : Int) (start : Mark) :
    Nat → Gap → Cursor → Except Fault (Gap × Cursor)
  | 0, g, c => .ok (g, c)
  | fuel + 1, g, c =>
    let c := c.look 2
    match c.head? with
    | none => .ok (g, c)
    | some x =>
      if isBlank x then
        if g.leading && x == '\t' && (c.mark.column : Int) < indent then do
          let c := (← c.trailing true).cursor
          if c.head?.all isBreak then
            readPlainGapLoop indent start fuel { g with leading := c.leading } c
          else .error ⟨start, .plainTab⟩
        else readPlainGapLoop indent start fuel (g.addBlank x) (c.pass 1)
      else if isBreak x then readPlainGapLoop indent start fuel g.addBreak c.passBreak
      else .ok (g, c)

/-- Reads the blanks and breaks behind a word; only an empty line may be indented with tabs. -/
def readPlainGap (indent : Int) (start : Mark) (c : Cursor) : Except Fault (Gap × Cursor) :=
  readPlainGapLoop indent start (c.rest.length + 1) .empty c

/-- Rounds of `readPlain`, each over a word and the gap behind it; `text` is last first. -/
def readPlainLoop (inFlow : Bool) (indent : Int) (start : Mark) :
    Nat → Gap → List Char → Cursor → Except Fault (List Char × Cursor)
  | 0, _, text, c => .ok (text, c)
  | fuel + 1, g, text, c =>
    let c := c.look 4
    if c.atDocumentMark || c.head? == some '#' then .ok (text, c)
    else if inFlow && c.head? == some '-' && c.second?.any isFlowMark then
      .error ⟨c.mark, .plainDash⟩
    else
      let word := plainWord inFlow c.rest
      if word.isEmpty then .ok (text, c)
      else
        let text := word.reverse ++ (g.text.reverse ++ text)
        let c := (c.passInk word.length).look 2
        if c.head?.any isGap then do
          let (g, c) ← readPlainGap indent start c
          if !inFlow && (c.mark.column : Int) < indent then return (text, c)
          readPlainLoop inFlow indent start fuel g text c
        else .ok (text, c)

/-- Reads a plain scalar with the space behind it; the text is last first. -/
def readPlain (inFlow : Bool) (indent : Int) (c : Cursor) : Except Fault (List Char × Cursor) :=
  if inFlow && (c.mark.column : Int) < indent then .error ⟨c.mark, .flowIndentation⟩
  else readPlainLoop inFlow indent c.mark (c.rest.length + 1) .empty [] c

namespace Lexer

/-- Reads a plain scalar.  A key may begin behind it if it ends with its line. -/
def readPlainScalar (l : Lexer) : Except Fault Lexer := do
  let l := (l.saveKey.allowKey false).closeContent
  let (text, c) ← readPlain l.inFlow (l.indent + 1) l.cursor
  let r := (l.move c).push l.mark (.scalar .plain (String.ofList text.reverse))
  return if c.leading then r.allowKey true else r

end Lexer

end TaggedYaml
