import TaggedYaml.Token.Space

/-!
# Block scalars

A header with a chomping and an indentation indicator, then lines with at least the indentation of
the first one.  In a literal scalar the breaks between lines are kept; in a folded one a break
between two lines that do not begin with a blank is read as a space.  The chomping indicator decides
what becomes of the breaks at the end.
-/

namespace TaggedYaml

/-- What becomes of the breaks at the end of a block scalar. -/
inductive Chomp where
  /-- The first is kept. -/
  | clip
  /-- All are dropped. -/
  | strip
  /-- All are kept. -/
  | keep
deriving DecidableEq, Repr

/-- The chomping indicators. -/
def chomp? (c : Char) : Option Chomp :=
  match c with
  | '+' => some .keep
  | '-' => some .strip
  | _ => none

/-- The indicators in the first line of a block scalar. -/
structure BlockHeader where
  chomp : Chomp
  /-- The indentation relative to the parent, if it is given. -/
  indent : Option Nat
  length : Nat
deriving DecidableEq, Repr

/-- Reads the indicators behind `|` or `>`, in either order. -/
def readBlockHeader (text : List Char) : Except Defect BlockHeader := do
  let digit (c : Char) : Except Defect Nat :=
    if c == '0' then throw .blockZero else return c.toNat - '0'.toNat
  match text with
  | [] => return ⟨.clip, none, 0⟩
  | a :: rest =>
    match chomp? a with
    | some k =>
      match rest with
      | b :: _ => if b.isDigit then return ⟨k, some (← digit b), 2⟩ else return ⟨k, none, 1⟩
      | [] => return ⟨k, none, 1⟩
    | none =>
      if a.isDigit then
        let n ← digit a
        match rest.head?.bind chomp? with
        | some k => return ⟨k, some n, 2⟩
        | none => return ⟨.clip, some n, 1⟩
      else return ⟨.clip, none, 0⟩

/-! ### Lines -/

/-- How far ahead the reader of a block scalar looks. -/
def blockWindow : Nat := 16

/-- Passes spaces up to a column, looking ahead again whenever all that was seen is passed. -/
def passWideIndent (column : Nat) : List Char → Cursor → Cursor
  | ' ' :: rest, c =>
    if c.mark.column < column then
      passWideIndent column rest ((if c.ahead = 0 then c.look blockWindow else c).pass 1)
    else c
  | _, c =>
    if c.mark.column = column then c else if c.ahead = 0 then c.look blockWindow else c

/-- Passes the indentation of a line: spaces up to a column. -/
def passIndent (column : Nat) (c : Cursor) : Cursor :=
  let c := c.look blockWindow
  if column < blockWindow - 2 then
    c.pass (min (column - c.mark.column) (c.run (· == ' ')).length)
  else (passWideIndent column c.rest c).look 2

/-- Passes empty lines and the indentation of the next one; counts the lines. -/
def passEmptyLines (column : Nat) : Nat → Nat → Cursor → Nat × Cursor
  | 0, n, c => (n, c)
  | fuel + 1, n, c =>
    let c := passIndent column c
    if c.head?.any isBreak then passEmptyLines column fuel (n + 1) (c.look 2).passBreak else (n, c)

/-- Passes empty lines and all spaces before the first line with text; counts the lines and finds
the widest indentation. -/
def findIndent : Nat → Nat → Nat → Cursor → Nat × Nat × Cursor
  | 0, widest, n, c => (widest, n, c)
  | fuel + 1, widest, n, c =>
    let c := c.passBlanks (· == ' ')
    let widest := max widest c.mark.column
    if c.head?.any isBreak then findIndent fuel widest (n + 1) (c.look 2).passBreak
    else (widest, n, c)

/-- The line from here on.  What was seen of it counts in characters, the rest in bytes. -/
def passContent (c : Cursor) : List Char × Cursor :=
  let line := c.run (!isBreak ·)
  let unseen := line.drop c.ahead
  let c' := c.pass line.length
  if line.length < c.ahead then (line, c')
  else
    let extra := unseen.foldr (fun x n => x.utf8Size - 1 + n) 0
    (line, { c' with mark := c'.mark.right extra, ahead := 1 })

/-! ### Content -/

/-- The breaks between the last line of a block scalar and the next one. -/
structure LineEnd where
  /-- A line was read before, and its break is not yet written. -/
  pending : Bool
  /-- The number of empty lines since. -/
  empty : Nat
  /-- The last line begins with a blank. -/
  blank : Bool
deriving DecidableEq, Repr

/-- What is read between the last line and a line that does or does not begin with a blank. -/
def LineEnd.join (e : LineEnd) (folded blank : Bool) : List Char :=
  if folded && e.pending && !e.blank && !blank then
    if e.empty = 0 then [' '] else List.replicate e.empty '\n'
  else List.replicate ((if e.pending then 1 else 0) + e.empty) '\n'

/-- Rounds of `readBlock`, each over a line; `text` is last first. -/
def readBlockLines (folded : Bool) (indent : Nat) :
    Nat → LineEnd → List Char → Cursor → LineEnd × List Char × Cursor
  | 0, e, text, c => (e, text, c)
  | fuel + 1, e, text, c =>
    if c.mark.column != indent || c.rest.isEmpty then (e, text, c)
    else
      let c := if indent = 0 then c.look 4 else c
      if indent = 0 && c.atDots then (e, text, c)
      else
        let blank := c.head?.any isBlank
        let text := (e.join folded blank).reverse ++ text
        let (line, c) := passContent c
        let text := line.reverse ++ text
        let c := c.look 2
        if c.rest.isEmpty then (⟨false, 0, blank⟩, text, c)
        else
          let (n, c) := passEmptyLines indent (c.rest.length + 1) 0 c.passBreak
          readBlockLines folded indent fuel ⟨true, n, blank⟩ text c

/-- The breaks at the end of a block scalar. -/
def LineEnd.tail (e : LineEnd) (chomp : Chomp) (openLine : Bool) : List Char :=
  match chomp with
  | .strip => []
  | .clip => List.replicate ((if e.pending then 1 else 0) + (if openLine then 1 else 0)) '\n'
  | .keep =>
    List.replicate ((if e.pending then 1 else 0) + (if openLine then 1 else 0) + e.empty) '\n'

/-- A block scalar without a line of text, by the empty lines behind its first line. -/
def emptyBlock (chomp : Chomp) (firstLineEnds : Bool) (empty : Nat) : List Char :=
  if !firstLineEnds then []
  else
    match chomp with
    | .strip => []
    | .clip => ['\n']
    | .keep => List.replicate (max 1 empty) '\n'

namespace Lexer

/-- Reads a block scalar.  It is placed at its first character of text. -/
def readBlockScalar (l : Lexer) (folded : Bool) : Except Fault Lexer := do
  let l := (l.saveKey.allowKey true).closeContent
  let fail (d : Defect) : Except Fault Lexer := throw ⟨l.mark, d⟩
  let style := if folded then Style.folded else .literal
  let c := (l.cursor.passInk 1).look 1
  match readBlockHeader c.rest with
  | .error d => fail d
  | .ok h =>
    let c := if h.length = 0 then c else (c.passInk h.length).look 1
    let c := (← c.trailing true).cursor
    if !c.head?.all isBreak then fail .blockHeader
    else
      let firstLineEnds := !c.rest.isEmpty
      let c := if firstLineEnds then (c.look 2).passBreak.look 1 else c
      if c.head? == some '\t' then fail .blockTab
      else
        let fuel := c.rest.length + 1
        let (indent, empty, c) :=
          match h.indent with
          | some n =>
            let indent := if l.indent ≥ 0 then l.indent.toNat + n else n
            let (empty, c) := passEmptyLines indent fuel 0 c
            (indent, empty, c)
          | none =>
            let (widest, empty, c) := findIndent fuel 0 0 c
            (max widest (l.indent + 1).toNat, empty, c)
        if c.rest.isEmpty then
          let oneLine := c.mark.line == l.mark.line
          return (l.move c).push l.mark
            (.scalar style (String.ofList (emptyBlock h.chomp (!oneLine) empty)))
        else if c.mark.column < indent && (c.mark.column : Int) > l.indent then
          throw ⟨c.mark, .blockIndentation⟩
        else
          let (e, text, d) := readBlockLines folded indent fuel ⟨false, empty, false⟩ [] c
          let openLine := d.rest.isEmpty && d.mark.column ≥ max indent 1
          return (l.move d).push c.mark
            (.scalar style (String.ofList (text.reverse ++ e.tail h.chomp openLine)))

end Lexer

end TaggedYaml
