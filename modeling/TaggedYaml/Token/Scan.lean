import TaggedYaml.Token.Block
import TaggedYaml.Token.Directive
import TaggedYaml.Token.Indicator
import TaggedYaml.Token.Plain
import TaggedYaml.Token.Quoted

/-!
# Reading a text as tokens

`scan` reads a whole text.  Its result is the list of tokens that could be told before the text
turned out to be wrong, and the fault that a reader meets who asks for one more.
-/

namespace TaggedYaml

namespace Lexer

/-- Reads the end of the text. -/
def readEnd (l : Lexer) : Except Fault Lexer :=
  let m := l.mark
  let l := if m.column = 0 then l else l.move { l.cursor with mark := ⟨m.offset, m.line + 1, 0⟩ }
  if l.spots.any fun s => s.required && s.possible then l.fail .keyExpected
  else do
    let l := { l with spots := l.spots.map .clear }
    let l ← (l.closeBlocks (-1)).dropKey
    return ({ l with keyAllowed := false, finished := true }).push l.mark .textEnd

/-- Reads `...` and its line. -/
def readDocumentEnd (l : Lexer) : Except Fault Lexer := do
  let l ← l.readDocumentMark .documentEnd
  let l ← l.skipTrailing
  if l.cursor.head?.all isBreak then return l else l.fail .afterDocumentEnd

/-- Reads the token that begins with a character at the cursor. -/
def readTokenAt (l : Lexer) (c : Char) : Except Fault Lexer :=
  let next := l.cursor.second?
  let spaced := next.all isGap
  match c with
  | '[' => l.openFlow .flowSequenceStart
  | '\x7b' => l.openFlow .flowMappingStart
  | ']' => l.closeFlow .flowSequenceEnd
  | '\x7d' => l.closeFlow .flowMappingEnd
  | ',' => l.readComma
  | '-' => if spaced then l.readDash else l.readPlainScalar
  | '?' => if spaced then l.readKeyMark else l.readPlainScalar
  | ':' =>
    if spaced || (l.inFlow && (next.any isFlowMark || l.mark.offset == l.valueOffset)) then
      l.readColon
    else l.readPlainScalar
  | '*' => l.readName .alias
  | '&' => l.readName .anchor
  | '!' => l.readTag
  | '|' => if l.inFlow then l.readPlainScalar else l.readBlockScalar false
  | '>' => if l.inFlow then l.readPlainScalar else l.readBlockScalar true
  | '\'' => l.readQuotedScalar '\'' .single
  | '"' => l.readQuotedScalar '"' .double
  | '%' | '@' | '\x60' => l.fail (.strayChar c)
  | _ => l.readPlainScalar

/-- Reads up to the end of the next token. -/
def readToken (l : Lexer) : Except Fault Lexer := do
  let l ← (← l.skipSpace).dropStale
  let l := l.closeBlocks l.column
  let l := l.move (l.cursor.look 4)
  match l.cursor.head? with
  | none => l.readEnd
  | some c =>
    if l.mark.column = 0 && c == '%' then l.readDirective
    else if l.mark.column = 0 && l.cursor.atDashes then l.readDocumentMark .documentStart
    else if l.mark.column = 0 && l.cursor.atDots then l.readDocumentEnd
    else if l.column < l.indent then l.fail .indentation
    else l.readTokenAt c

end Lexer

/-- The tokens of a text as far as they can be told, and what a reader meets behind them. -/
structure Scan where
  tokens : List (Marked Token)
  stop : Fault
deriving DecidableEq, Repr

namespace Lexer

/-- Rounds of `scan`, each over a token; `sent` is what was handed on so far, last first. -/
def scanLoop : Nat → List (Marked Token) → Lexer → Scan
  | 0, sent, l => ⟨sent.reverse, ⟨l.mark, .textEnd⟩⟩
  | fuel + 1, sent, l =>
    match l.readToken.bind dropStale with
    | .error f => ⟨sent.reverse, f⟩
    | .ok l =>
      let (ready, l) := l.release
      let sent := ready.reverse ++ sent
      if l.finished then ⟨sent.reverse, ⟨l.mark, .textEnd⟩⟩ else scanLoop fuel sent l

end Lexer

/-- Reads a text as tokens. -/
def scan (text : List Char) : Scan := Lexer.scanLoop (text.length + 1) [] (.ofList text)

end TaggedYaml
