import TaggedYaml.Fault
import TaggedYaml.Token.Basic

/-!
# Lexer — what has to be remembered between two tokens

Three things make a token depend on more than the text behind it: the columns of the open block
collections, the open flow brackets, and the places where a key may have begun.  A key is known for
one only when its `:` is met, so the tokens read since its beginning wait in a queue, and the key
token goes in front of them afterwards.
-/

namespace TaggedYaml

/-- A place where a key may have begun. -/
structure KeySpot where
  possible : Bool
  /-- The text is wrong if this turns out to be no key. -/
  required : Bool
  /-- How many tokens were read before it. -/
  number : Nat
  mark : Mark
deriving DecidableEq, Repr

/-- No key has begun. -/
def KeySpot.none : KeySpot := ⟨false, false, 0, .start⟩

/-- The place of no key. -/
def KeySpot.clear (s : KeySpot) : KeySpot := { s with possible := false }

/-- What to return to when the innermost indentation ends. -/
structure Level where
  /-- The column of the next outer indentation; there is none at -1. -/
  outer : Int
  /-- The level that ends is a block collection, and not just a column kept for its content. -/
  isBlock : Bool
deriving DecidableEq, Repr

/-- A lexer between two tokens. -/
structure Lexer where
  cursor : Cursor
  /-- Tokens that were read and not yet handed on. -/
  queue : Array (Marked Token)
  /-- How many tokens were handed on. -/
  sent : Nat
  /-- Innermost first: one spot for the block level and one for each open bracket. -/
  spots : List KeySpot
  /-- The column of the innermost indentation, -1 outside all of them. -/
  indent : Int
  /-- Innermost first. -/
  levels : List Level
  /-- How many brackets are open. -/
  flowDepth : Nat
  /-- A key may begin here. -/
  keyAllowed : Bool
  /-- The offset where a `:` may touch its value, since it follows a quoted scalar or a bracket. -/
  valueOffset : Nat
  /-- A brace or a `?` between brackets was read, and no pair without braces has ended since. -/
  inBraces : Bool
  /-- The last `:` began a pair without braces that has not ended: `[a: b]`. -/
  inPair : Bool
  finished : Bool

namespace Lexer

/-- The lexer before a text. -/
def ofList (text : List Char) : Lexer where
  cursor := .ofList text
  queue := #[]
  sent := 0
  spots := [.none]
  indent := -1
  levels := []
  flowDepth := 0
  keyAllowed := true
  valueOffset := 0
  inBraces := false
  inPair := false
  finished := false

/-- The place of the next character. -/
def mark (l : Lexer) : Mark := l.cursor.mark

/-- The column of the next character. -/
def column (l : Lexer) : Int := l.cursor.mark.column

/-- A bracket is open. -/
def inFlow (l : Lexer) : Bool := l.flowDepth != 0

/-- How many tokens were read. -/
def count (l : Lexer) : Nat := l.sent + l.queue.size

def move (l : Lexer) (c : Cursor) : Lexer := { l with cursor := c }

def push (l : Lexer) (m : Mark) (t : Token) : Lexer := { l with queue := l.queue.push ⟨m, t⟩ }

/-- Puts a token before the one with a number that is still in the queue. -/
def insert (l : Lexer) (number : Nat) (m : Mark) (t : Token) : Lexer :=
  { l with queue := l.queue.insertIdxIfInBounds (number - l.sent) ⟨m, t⟩ }

def allowKey (l : Lexer) (allowed : Bool) : Lexer := { l with keyAllowed := allowed }

/-- Fails at the next character. -/
def fail {α : Type} (l : Lexer) (d : Defect) : Except Fault α := .error ⟨l.mark, d⟩

/-! ### Places of keys -/

/-- The innermost spot. -/
def spot (l : Lexer) : KeySpot := l.spots.headD .none

def setSpot (l : Lexer) (s : KeySpot) : Lexer := { l with spots := s :: l.spots.tail }

/-- The innermost spot is no key. -/
def dropKey (l : Lexer) : Except Fault Lexer :=
  if l.spot.possible && l.spot.required then l.fail .keyExpected
  else .ok (l.setSpot l.spot.clear)

/-- A key may begin here, if keys are allowed. -/
def saveKey (l : Lexer) : Lexer :=
  if l.keyAllowed then
    l.setSpot ⟨true, !l.inFlow && l.indent == l.column && l.levels.head?.any (·.isBlock),
      l.count, l.mark⟩
  else l

@[simp] theorem cursor_saveKey (l : Lexer) : l.saveKey.cursor = l.cursor := by
  unfold saveKey
  split <;> rfl

@[simp] theorem indent_saveKey (l : Lexer) : l.saveKey.indent = l.indent := by
  unfold saveKey
  split <;> rfl

@[simp] theorem flowDepth_saveKey (l : Lexer) : l.saveKey.flowDepth = l.flowDepth := by
  unfold saveKey
  split <;> rfl

/-- A key outside brackets stands on one line and has its `:` within 1024 characters. -/
def isStale (l : Lexer) (s : KeySpot) : Bool :=
  s.possible && !l.inFlow &&
    (s.mark.line < l.mark.line || s.mark.offset + 1024 < l.mark.offset)

/-- Gives up the places of keys that are too far back. -/
def dropStale (l : Lexer) : Except Fault Lexer :=
  if l.spots.any fun s => l.isStale s && s.required then l.fail .keyWithoutColon
  else .ok { l with
    spots := l.spots.map fun s => if l.isStale s then s.clear else s }

/-- The number of the first token that has to wait for a key, or else that of the next token. -/
def ready (l : Lexer) : Nat :=
  l.spots.foldl (fun n s => if s.possible then min n s.number else n) l.count

/-- Takes from the queue what need not wait. -/
def release (l : Lexer) : List (Marked Token) × Lexer :=
  let n := l.ready - l.sent
  ((l.queue.extract 0 n).toList, { l with queue := l.queue.extract n, sent := l.sent + n })

/-! ### Indentation -/

/-- Opens a block collection at a column, unless one is open there. -/
def openBlock (l : Lexer) (column : Int) (before : Option Nat) (t : Token) (m : Mark) : Lexer :=
  if l.inFlow then l
  else
    let l :=
      match l.levels with
      | ⟨outer, false⟩ :: levels =>
        if l.indent ≤ column then { l with indent := outer, levels := levels } else l
      | _ => l
    if l.indent < column then
      let l := { l with levels := ⟨l.indent, true⟩ :: l.levels, indent := column }
      match before with
      | some n => l.insert n m t
      | none => l.push m t
    else l

/-- Asks the content of the innermost block collection to stand right of its indicators. -/
def indentContent (l : Lexer) : Lexer :=
  if !l.inFlow && l.levels.head?.any (·.isBlock) then
    { l with levels := ⟨l.indent, false⟩ :: l.levels, indent := l.indent + 1 }
  else l

/-- The indentation, the levels around it and the number of block collections that end where text
stands at a column. -/
def unwind (column : Int) : Int → List Level → Int × List Level × Nat
  | indent, [] => (indent, [], 0)
  | indent, ⟨outer, isBlock⟩ :: levels =>
    if column < indent then
      let (i, ls, n) := unwind column outer levels
      (i, ls, if isBlock then n + 1 else n)
    else (indent, ⟨outer, isBlock⟩ :: levels, 0)

/-- Closes the block collections that end where text stands at a column. -/
def closeBlocks (l : Lexer) (column : Int) : Lexer :=
  if l.inFlow then l
  else
    let (indent, levels, n) := unwind column l.indent l.levels
    { l with
      indent, levels,
      queue := l.queue ++ Array.replicate n ⟨l.mark, .blockEnd⟩ }

/-- The indentation and the levels without the columns kept for content. -/
def unwindContent : Int → List Level → Int × List Level
  | _, ⟨outer, false⟩ :: levels => unwindContent outer levels
  | indent, levels => (indent, levels)

/-- Gives up the columns kept for content. -/
def closeContent (l : Lexer) : Lexer :=
  let (indent, levels) := unwindContent l.indent l.levels
  { l with indent, levels }

end Lexer

end TaggedYaml
