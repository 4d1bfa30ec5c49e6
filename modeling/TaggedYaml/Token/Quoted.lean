import TaggedYaml.Token.Gap
import TaggedYaml.Token.Space

/-!
# Quoted scalars

Between single quotes only the quote is special: two of them stand for one.  Between double quotes
a backslash begins an escape, and a break behind a backslash is dropped with the blanks after it.
-/

namespace TaggedYaml

/-- What a backslash and this character stand for. -/
def escape? (c : Char) : Option Char :=
  match c with
  | '0' => some '\x00'
  | 'a' => some '\x07'
  | 'b' => some '\x08'
  | 't' | '\t' => some '\t'
  | 'n' => some '\n'
  | 'v' => some '\x0b'
  | 'f' => some '\x0c'
  | 'r' => some '\r'
  | 'e' => some '\x1b'
  | ' ' | '"' | '/' | '\\' => some c
  | 'N' => some '\u0085'
  | '_' => some '\u00a0'
  | 'L' => some '\u2028'
  | 'P' => some '\u2029'
  | _ => none

/-- How many hexadecimal digits follow a backslash and this character. -/
def escapeDigits? (c : Char) : Option Nat :=
  match c with
  | 'x' => some 2
  | 'u' => some 4
  | 'U' => some 8
  | _ => none

/-- A word between quotes. -/
structure QuotedWord where
  /-- The characters read so far, last first. -/
  text : List Char
  /-- The number of characters they are written with. -/
  length : Nat
  /-- The word ends at a break written as an escape. -/
  atEscapedBreak : Bool

/-- Reads to a blank, a break, the end or the closing quote.  With `digits > 0` that many digits of
an escape are missing, and `code` is made of those already read. -/
def readQuotedWord (quote : Char) (text : List Char) (length : Nat) :
    Nat → Nat → List Char → Except Defect QuotedWord
  | 0, _, [] => .ok ⟨text, length, false⟩
  | _ + 1, _, [] => .error .quotedHex
  | digits + 1, code, c :: rest =>
    match hexValue? c with
    | none => .error .quotedHex
    | some v =>
      if digits = 0 then
        match charOfCode? (16 * code + v) with
        | some x => readQuotedWord quote (x :: text) (length + 1) 0 0 rest
        | none => .error .quotedCode
      else readQuotedWord quote text (length + 1) digits (16 * code + v) rest
  | 0, _, c :: rest =>
    if isGap c then .ok ⟨text, length, false⟩
    else if c == quote then
      match rest with
      | '\'' :: rest =>
        if quote == '\'' then readQuotedWord quote ('\'' :: text) (length + 2) 0 0 rest
        else .ok ⟨text, length, false⟩
      | _ => .ok ⟨text, length, false⟩
    else if c == '\\' && quote == '"' then
      match rest with
      | [] => .error .quotedEscape
      | e :: rest =>
        if isBreak e then .ok ⟨text, length, true⟩
        else
          match escape? e, escapeDigits? e with
          | some x, _ => readQuotedWord quote (x :: text) (length + 2) 0 0 rest
          | none, some n => readQuotedWord quote text (length + 2) n 0 rest
          | none, none => .error .quotedEscape
    else readQuotedWord quote (c :: text) (length + 1) 0 0 rest

/-- Rounds of `readQuotedGap`, each over one blank or break. -/
def readQuotedGapLoop (indent : Int) : Nat → Gap → Cursor → Except Fault (Gap × Cursor)
  | 0, g, c => .ok (g, c)
  | fuel + 1, g, c =>
    match c.head? with
    | none => .ok (g, c)
    | some x =>
      if isBlank x then
        if g.leading && x == '\t' && (c.mark.column : Int) < indent then
          .error ⟨c.mark, .quotedTab⟩
        else readQuotedGapLoop indent fuel (g.addBlank x) ((c.pass 1).look 1)
      else if isBreak x then
        readQuotedGapLoop indent fuel g.addBreak ((c.look 2).passBreak.look 1)
      else .ok (g, c)

/-- Reads the blanks and breaks between two words; they must not indent with tabs. -/
def readQuotedGap (indent : Int) (g : Gap) (c : Cursor) : Except Fault (Gap × Cursor) :=
  readQuotedGapLoop indent (c.rest.length + 1) g c

/-- Rounds of `readQuoted`, each over a word and the gap behind it; `text` is last first. -/
def readQuotedLoop (quote : Char) (indent : Int) (start : Mark) :
    Nat → List Char → Cursor → Except Fault (List Char × Cursor)
  | 0, _, _ => .error ⟨start, .quotedOpen⟩
  | fuel + 1, text, c =>
    let c := c.look 4
    if c.atDocumentMark then .error ⟨start, .quotedDocumentMark⟩
    else if c.rest.isEmpty then .error ⟨start, .quotedOpen⟩
    else if (c.mark.column : Int) < indent then .error ⟨start, .quotedIndentation⟩
    else
      match readQuotedWord quote text 0 0 0 c.rest with
      | .error d => .error ⟨start, d⟩
      | .ok w =>
        let c := (c.passInk w.length).look 2
        let c := if w.atEscapedBreak then ((c.look 3).passInk 1).passBreak.look 1 else c
        if c.head? == some quote then .ok (w.text, c)
        else do
          let (g, c) ← readQuotedGap indent (if w.atEscapedBreak then .escaped else .empty) c
          readQuotedLoop quote indent start fuel (g.text.reverse ++ w.text) c

/-- Reads from the opening to the closing quote, which is left; the text is last first. -/
def readQuoted (quote : Char) (indent : Int) (c : Cursor) : Except Fault (List Char × Cursor) :=
  readQuotedLoop quote indent c.mark (c.rest.length + 1) [] (c.passInk 1)

namespace Lexer

/-- What may follow a quoted scalar on its line. -/
def allowsAfterQuoted (l : Lexer) (startLine : Nat) (c : Cursor) : Bool :=
  match c.head? with
  | none => true
  | some x =>
    isBreak x ||
      (l.inFlow && (x == ',' || x == '\x7d' || x == ']' || x == ':')) ||
      (!l.inFlow && x == ':' && startLine == c.mark.line)

/-- Reads a quoted scalar and the space behind it. -/
def readQuotedScalar (l : Lexer) (quote : Char) (style : Style) : Except Fault Lexer := do
  let l := l.saveKey.allowKey false
  let (text, c) ← readQuoted quote l.indent l.cursor
  let c := (← (c.passInk 1).trailing true).cursor
  if !l.allowsAfterQuoted l.mark.line c then throw ⟨c.mark, .afterQuoted⟩
  let r ← (l.move c).skipSpace
  return { r with valueOffset := r.mark.offset }.push l.mark
    (.scalar style (String.ofList text.reverse))

end Lexer

end TaggedYaml
