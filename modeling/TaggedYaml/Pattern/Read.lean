import TaggedYaml.Pattern.Brackets
import TaggedYaml.Pattern.Size

/-!
# Reading patterns

The groups that are open are kept in a list, so a pattern is read in one pass from left to right.
Flags hold from where they stand to the end of their group.
-/

namespace TaggedYaml.Pattern

/-- Turns a flag on or off. -/
def Flags.set? (f : Flags) (c : Char) (on : Bool) : Option Flags :=
  match c with
  | 'i' => some { f with ignoreCase := on }
  | 'm' => some { f with multiLine := on }
  | 's' => some { f with dotAll := on }
  | 'U' => some { f with swapGreed := on }
  | 'R' => some { f with crlf := on }
  | 'x' => some { f with verbose := on }
  | 'u' => some { f with unicode := on }
  | _ => none

/-- Reads flags up to a colon or a bracket; those read before are last first.  Behind a hyphen they
are turned off, and none may stand twice. -/
def readFlags (on : Bool) (before : List Char) (f : Flags) :
    List Char → Option (Flags × Char × List Char)
  | [] => none
  | c :: rest =>
    if c == ':' || c == ')' then
      if before.head? == some '-' then none else some (f, c, rest)
    else if before.contains c then none
    else if c == '-' then readFlags false (c :: before) f rest
    else
      match f.set? c on with
      | some f => readFlags on (c :: before) f rest
      | none => none

/-- A part of a pattern, and how deep its text nests: groups, loops, brackets, and several parts or
choices together, are one level each. -/
structure Part where
  expr : Expr
  depth : Nat

/-- How deep several parts or choices nest. -/
def depthOf : List Part → Nat
  | [] => 0
  | [p] => p.depth
  | parts => (parts.foldl (fun n p => Nat.max n p.depth) 0) + 1

/-- Parts one behind the other. -/
def Part.seqOf (parts : List Part) : Part := ⟨Expr.seqOf (parts.map (·.expr)), depthOf parts⟩

/-- A choice of parts. -/
def Part.altOf (parts : List Part) : Part := ⟨Expr.altOf (parts.map (·.expr)), depthOf parts⟩

/-- A group that is open, and what came before it. -/
structure Frame where
  /-- The number and the name, if the group remembers what it matches. -/
  label : Option (Nat × Option String)
  flags : Flags
  /-- Last first. -/
  choices : List Part
  /-- Last first. -/
  items : List Part

/-- A part of a pattern that was read. -/
structure Reading where
  flags : Flags := {}
  /-- The choices of the innermost group before the one that is being read, last first. -/
  choices : List Part := []
  /-- The parts of the choice that is being read, last first. -/
  items : List Part := []
  /-- The last of the parts may be repeated. -/
  repeatable : Bool := false
  /-- The open groups, innermost first. -/
  frames : List Frame := []
  groupCount : Nat := 0
  names : List String := []

namespace Reading

/-- Adds a part of some depth. -/
def push (r : Reading) (e : Expr) (depth : Nat) : Reading :=
  { r with items := ⟨e, depth⟩ :: r.items, repeatable := true }

/-- Changes the flags for what follows, which is a part without a match of its own. -/
def setFlags (r : Reading) (flags : Flags) : Reading :=
  { r with flags, items := ⟨.empty, 0⟩ :: r.items, repeatable := false }

/-- What the innermost group holds. -/
def body (r : Reading) : Part := .altOf ((.seqOf r.items.reverse :: r.choices).reverse)

/-- Begins another choice. -/
def nextChoice (r : Reading) : Reading :=
  { r with choices := .seqOf r.items.reverse :: r.choices, items := [], repeatable := false }

/-- Opens a group in which flags hold. -/
def openGroup (r : Reading) (label : Option (Nat × Option String)) (flags : Flags) : Reading :=
  { r with
    flags, choices := [], items := [], repeatable := false,
    frames := ⟨label, r.flags, r.choices, r.items⟩ :: r.frames }

/-- Opens a group that remembers what it matches. -/
def openNumbered (r : Reading) (name : Option String) : Reading :=
  let n := r.groupCount + 1
  { r.openGroup (some (n, name)) r.flags with groupCount := n, names := name.toList ++ r.names }

/-- Closes the innermost group. -/
def closeGroup (r : Reading) : Option Reading :=
  match r.frames with
  | [] => none
  | frame :: frames =>
    let part := r.body
    let e :=
      match frame.label with
      | some (n, name) => .group n name part.expr
      | none => part.expr.enclosed
    let r := { r with flags := frame.flags, choices := frame.choices, items := frame.items, frames }
    some (r.push e (part.depth + 1))

/-- Repeats the last part. -/
def loop (r : Reading) (min : Nat) (max : Option Nat) (greedy : Bool) : Option Reading :=
  match r.items with
  | part :: items =>
    if r.repeatable then
      let e := part.expr.repeated min max (greedy != r.flags.swapGreed)
      some (push { r with items } e (part.depth + 1))
    else none
  | [] => none

/-- The expression of a character. -/
def char (r : Reading) (c : Char) (byte : Bool) : Option Expr :=
  if byte && !r.flags.admits c then none else some (.set (r.flags.fold (.one c)))

/-- Any character, but for those that break lines. -/
def anyChar (r : Reading) : Option Expr :=
  if !r.flags.unicode then none
  else if r.flags.dotAll then some (.set (.compl .empty))
  else if r.flags.crlf then some (.set (.compl (.union (.one '\r') (.one '\n'))))
  else some (.set (.compl (.one '\n')))

end Reading

def isNameStart (c : Char) : Bool := c == '_' || Unicode.isAlphabetic c.toNat

def isNamePart (c : Char) : Bool :=
  ['_', '.', '[', ']'].contains c || Unicode.isAlphanumeric c.toNat

/-- Reads the name of a group up to its closing bracket. -/
def readGroupName (s : List Char) : Option (String × List Char) :=
  match s.span (· != '>') with
  | (c :: cs, '>' :: rest) =>
    if isNameStart c && cs.all isNamePart then some (String.ofList (c :: cs), rest) else none
  | _ => none

/-- Opens a group with a name that no other group has. -/
def openNamed (r : Reading) (s : List Char) : Option (Reading × List Char) := do
  let (name, rest) ← readGroupName s
  if r.names.contains name then none else return (r.openNumbered (some name), rest)

/-- Reads what stands behind an opening bracket, up to the content of the group; flags may stand
alone, without a group. -/
def readGroupOpening (r : Reading) (s : List Char) : Option (Reading × List Char) :=
  match r.flags.pass s with
  | '?' :: 'P' :: '<' :: rest => openNamed r rest
  | '?' :: '<' :: rest => openNamed r rest
  | '?' :: rest => do
    let (flags, stop, tail) ← readFlags true [] r.flags rest
    if stop == ':' then return (r.openGroup none flags, tail)
    else if rest.head? == some ')' then none
    else return (r.setFlags flags, tail)
  | rest => some (r.openNumbered none, rest)

/-- Reads a number of at most 32 bits with blanks around it. -/
def readCount (f : Flags) (s : List Char) : Option (Nat × List Char) :=
  let (ds, rest) := f.takeRun Char.isDigit (s.dropWhile isWhite)
  let (_, rest) := f.takeRun isWhite rest
  let n := ds.foldl (fun n d => 10 * n + (d.toNat - '0'.toNat)) 0
  if ds.isEmpty || n ≥ 0x100000000 then none else some (n, rest)

/-- Reads the bounds of a loop behind the opening brace, up to the closing one. -/
def readBounds (f : Flags) (s : List Char) : Option ((Nat × Option Nat) × List Char) := do
  let (min, rest) ← readCount f (f.pass s)
  match rest with
  | '\x7d' :: rest => return ((min, some min), rest)
  | ',' :: rest =>
    match f.pass rest with
    | '\x7d' :: rest => return ((min, none), rest)
    | rest =>
      match ← readCount f rest with
      | (max, '\x7d' :: rest) => if min ≤ max then return ((min, some max), rest) else none
      | _ => none
  | _ => none

/-- Repeats the last part; a question mark behind the bounds makes the loop lazy. -/
def readLoop (r : Reading) (min : Nat) (max : Option Nat) (s : List Char) :
    Option (Reading × List Char) :=
  match s with
  | '?' :: rest => (r.loop min max false).map (·, rest)
  | _ => (r.loop min max true).map (·, s)

/-- Reads one part of a pattern, which begins with `c`. -/
def readPart (r : Reading) (c : Char) (rest : List Char) : Option (Reading × List Char) :=
  let f := r.flags
  match c with
  | '(' => readGroupOpening r rest
  | ')' => r.closeGroup.map (·, rest)
  | '|' => some (r.nextChoice, rest)
  | '[' => (readBrackets f rest).map fun (s, rest) => (r.push (.set s.set) s.depth, rest)
  | '?' => readLoop r 0 (some 1) rest
  | '*' => readLoop r 0 none rest
  | '+' => readLoop r 1 none rest
  | '\x7b' => do
    let ((min, max), rest) ← readBounds f rest
    readLoop r min max (f.pass rest)
  | '.' => r.anyChar.map fun e => (r.push e 0, rest)
  | '^' => some (r.push (.look (if f.multiLine then .lineStart f.crlf else .textStart)) 0, rest)
  | '$' => some (r.push (.look (if f.multiLine then .lineEnd f.crlf else .textEnd)) 0, rest)
  | '\\' => do
    match ← readEscape f rest with
    | (.char c byte, rest) => return (r.push (← r.char c byte) 0, rest)
    | (.set s, rest) => return (r.push (.set s) 0, rest)
    | (.look l, rest) => return (r.push (.look l) 0, rest)
  | c => (r.char c false).map fun e => (r.push e 0, rest)

/-- The levels that a pattern may have. -/
def maxNesting : Nat := 250

/-- Reads the rest of a pattern. -/
def readParts : Nat → Reading → List Char → Option Part
  | 0, _, _ => none
  | fuel + 1, r, s =>
    match r.flags.pass s with
    | [] => if r.frames.isEmpty then some r.body else none
    | c :: rest => do
      let (r, rest) ← readPart r c rest
      readParts fuel r rest

/-- Reads an expression that does not nest too deep. -/
def Expr.read (s : List Char) : Option Expr :=
  ((readParts (s.length + 1) {} s).filter fun p => p.depth ≤ maxNesting).map (·.expr)

/-- The pattern that a text is, if it is one and not too large. -/
def ofString? (source : String) : Option Pattern :=
  ((Expr.read source.toList).filter Expr.fits).map fun expr => ⟨source, expr⟩

end TaggedYaml.Pattern
