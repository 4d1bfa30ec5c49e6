import TaggedYaml.Pattern.Basic
import TaggedYaml.Unicode.Name

/-!
# Escapes of patterns

What a backslash and the characters behind it stand for, outside and inside of brackets.  Under the
flag `verbose`, blanks and comments may stand between the characters of an escape.
-/

namespace TaggedYaml.Pattern

/-- How a pattern is read. -/
structure Flags where
  ignoreCase : Bool := false
  /-- `^` and `$` also hold at the ends of lines. -/
  multiLine : Bool := false
  /-- `.` also matches a line break. -/
  dotAll : Bool := false
  /-- Loops are lazy, and greedy with a question mark. -/
  swapGreed : Bool := false
  /-- A carriage return also breaks a line. -/
  crlf : Bool := false
  /-- Blanks and comments are passed. -/
  verbose : Bool := false
  /-- Classes are those of Unicode and not of ASCII. -/
  unicode : Bool := true
deriving DecidableEq, Repr

/-- Passes blanks, and comments up to the ends of their lines. -/
def passNotes (inNote : Bool) : List Char → List Char
  | [] => []
  | c :: rest =>
    if inNote then passNotes (c != '\n') rest
    else if isWhite c then passNotes false rest
    else if c == '#' then passNotes true rest
    else c :: rest

namespace Flags

/-- Passes what does not count. -/
def pass (f : Flags) (s : List Char) : List Char := if f.verbose then passNotes false s else s

/-- The run of characters of a class, between which what does not count is passed, and what
follows it. -/
def run (f : Flags) (p : Char → Bool) : Nat → List Char → List Char × List Char
  | 0, s => ([], s)
  | fuel + 1, s =>
    match s with
    | [] => ([], [])
    | c :: rest =>
      if p c then
        let (cs, rest) := f.run p fuel (f.pass rest)
        (c :: cs, rest)
      else ([], s)

/-- The longest such run. -/
def takeRun (f : Flags) (p : Char → Bool) (s : List Char) : List Char × List Char :=
  f.run p s.length s

/-- A set of ASCII characters without Unicode, or any set with it. -/
def negate (f : Flags) (s : CharSet) : Option CharSet := if f.unicode then some s.compl else none

/-- A set with all variants in case, if case is ignored. -/
def fold (f : Flags) (s : CharSet) : CharSet :=
  if !f.ignoreCase then s else if f.unicode then s.folded else s.asciiFolded

/-- A set or its complement.  Without Unicode there are no complements. -/
def finish (f : Flags) (negated : Bool) (s : CharSet) : Option CharSet :=
  if negated then f.negate (f.fold s) else some (f.fold s)

end Flags

/-- What an escape stands for. -/
inductive Escape where
  /-- A character, and whether it was written as two hexadecimal digits. -/
  | char (c : Char) (byte : Bool)
  | set (s : CharSet)
  | look (l : Look)
deriving DecidableEq, Repr

/-- The character with a code in hexadecimal digits. -/
def charOfHex? (digits : List Char) : Option Char :=
  match digits with
  | [] => none
  | _ => (digits.mapM hexValue?).bind fun ds => charOfCode? (ds.foldl (16 * · + ·) 0)

/-- A number of characters, between which what does not count is passed, and what follows. -/
def Flags.takeExactly (f : Flags) : Nat → List Char → Option (List Char × List Char)
  | 0, s => some ([], s)
  | _ + 1, [] => none
  | n + 1, c :: rest => do
    let (cs, rest) ← f.takeExactly n (f.pass rest)
    return (c :: cs, rest)

/-- The digits of an escape: a fixed number of them, or any number in braces. -/
def readHex (f : Flags) (count : Nat) (s : List Char) : Option (Escape × List Char) :=
  match f.pass s with
  | '\x7b' :: rest => do
    let (digits, rest) := f.takeRun (· != '\x7d') (f.pass rest)
    if rest.isEmpty then none
    else return (.char (← charOfHex? digits) false, f.pass rest.tail)
  | s => do
    let (digits, rest) ← f.takeExactly count s
    return (.char (← charOfHex? digits) (count == 2), rest)

/-- The parts of a text before and behind the first place where another stands. -/
def cutAt? (mark : List Char) : List Char → Option (List Char × List Char)
  | [] => none
  | c :: rest =>
    if mark.isPrefixOf (c :: rest) then some ([], (c :: rest).drop mark.length)
    else (cutAt? mark rest).map fun (a, b) => (c :: a, b)

/-- The set with a name, or of a value behind the name of its kind. -/
def namedSet? (text : List Char) : Option CharSet :=
  let found :=
    match cutAt? ['!', '='] text, cutAt? [':'] text, cutAt? ['='] text with
    | some (kind, value), _, _ => Unicode.valueOf? kind value
    | _, some (kind, value), _ => Unicode.valueOf? kind value
    | _, _, some (kind, value) => Unicode.valueOf? kind value
    | _, _, _ => Unicode.named? text
  found.map .codes

/-- The set behind its escape: a letter, or a name in braces. -/
def readProperty (f : Flags) (negated : Bool) (s : List Char) : Option (Escape × List Char) := do
  let (set, rest) ←
    match f.pass s with
    | [] => none
    | '\x7b' :: rest =>
      let (name, rest) := f.takeRun (· != '\x7d') (f.pass rest)
      if rest.isEmpty then none else (namedSet? name).map (·, rest.tail)
    | c :: rest => if c == '\\' then none else (namedSet? [c]).map (·, f.pass rest)
  if f.unicode then return (.set (← f.finish negated set), rest) else none

/-- The class of a letter. -/
def classOf? (f : Flags) (c : Char) : Option CharSet :=
  match c with
  | 'd' => some (if f.unicode then .digit else .range '0' '9')
  | 's' => some (if f.unicode then .white else .ranges [('\t', '\r'), (' ', ' ')])
  | 'w' =>
    some (if f.unicode then .word else .ranges [('0', '9'), ('A', 'Z'), ('_', '_'), ('a', 'z')])
  | _ => none

/-- The kind of place that a name in braces stands for. -/
def edgeNamed? (name : List Char) : Option Edge :=
  match String.ofList name with
  | "start" => some .start
  | "end" => some .finish
  | "start-half" => some .startHalf
  | "end-half" => some .finishHalf
  | _ => none

def isEdgeChar (c : Char) : Bool := c.isAlpha || c == '-'

/-- The edge of a word, behind its escape: braces with a name say which one.  Braces that begin
with anything else are left. -/
def readEdge (f : Flags) (s : List Char) : Option (Escape × List Char) :=
  let ascii := !f.unicode
  match s with
  | '\x7b' :: rest =>
    match f.pass rest with
    | [] => none
    | c :: tail =>
      if !isEdgeChar c then some (.look (.edge .either ascii), s)
      else
        match f.takeRun isEdgeChar (c :: tail) with
        | (name, '\x7d' :: rest) => (edgeNamed? name).map fun e => (.look (.edge e ascii), rest)
        | _ => none
  | _ => some (.look (.edge .either ascii), s)

/-- Reads an escape behind its backslash. -/
def readEscape (f : Flags) (s : List Char) : Option (Escape × List Char) :=
  match s with
  | [] => none
  | c :: rest =>
    let ascii := !f.unicode
    match c with
    | 'x' => readHex f 2 rest
    | 'u' => readHex f 4 rest
    | 'U' => readHex f 8 rest
    | 'p' => readProperty f false rest
    | 'P' => readProperty f true rest
    | 'd' | 's' | 'w' => (classOf? f c).map fun s => (.set s, rest)
    | 'D' | 'S' | 'W' => do return (.set (← f.negate (← classOf? f c.toLower)), rest)
    | 'a' => some (.char '\x07' false, rest)
    | 'f' => some (.char '\x0c' false, rest)
    | 't' => some (.char '\t' false, rest)
    | 'n' => some (.char '\n' false, rest)
    | 'r' => some (.char '\r' false, rest)
    | 'v' => some (.char '\x0b' false, rest)
    | 'A' => some (.look .textStart, rest)
    | 'z' => some (.look .textEnd, rest)
    | 'b' => readEdge f rest
    | 'B' => some (.look (.edge .neither ascii), rest)
    | '<' => some (.look (.edge .start ascii), rest)
    | '>' => some (.look (.edge .finish ascii), rest)
    | c => if c.isAlphanum || c.toNat ≥ 0x80 then none else some (.char c false, rest)

end TaggedYaml.Pattern
