import TaggedYaml.Pattern.Escape

/-!
# Sets in brackets

A set between brackets is the union of its members: characters, ranges, escapes, named sets and
sets in brackets of their own.  `&&`, `--` and `~~` join what stands before them with what stands
behind, from left to right.
-/

namespace TaggedYaml.Pattern

/-- What joins two sets. -/
inductive Join where
  | inter
  | diff
  | symmDiff
deriving DecidableEq, Repr

/-- The joined set. -/
def Join.apply (f : Flags) (j : Join) (a b : CharSet) : CharSet :=
  match j with
  | .inter => (f.fold a).inter (f.fold b)
  | .diff => (f.fold a).diff (f.fold b)
  | .symmDiff => (f.fold a).symmDiff (f.fold b)

/-- A set, and how deep its text nests: brackets, joins, and members if there are several, are one
level each. -/
structure Nested where
  set : CharSet
  depth : Nat

/-- Members of a set. -/
structure Members where
  set : CharSet := .empty
  count : Nat := 0
  /-- How deep the deepest of them nests. -/
  depth : Nat := 0

namespace Members

/-- One more member. -/
def add (m : Members) (s : CharSet) (depth : Nat) : Members :=
  ⟨m.set.union s, m.count + 1, Nat.max m.depth depth⟩

/-- The members as one set. -/
def toNested (m : Members) : Nested := ⟨m.set, if m.count ≤ 1 then m.depth else m.depth + 1⟩

/-- The members joined to what stands before them, if there is anything. -/
def join (m : Members) (f : Flags) (before : Option (Join × Nested)) : Nested :=
  match before with
  | none => m.toNested
  | some (j, a) => ⟨j.apply f a.set m.set, Nat.max a.depth m.toNested.depth + 1⟩

end Members

/-- A set with a name between colons, behind its first bracket. -/
def readNamedSet (f : Flags) (s : List Char) : Option (Option CharSet × List Char) :=
  match s with
  | ':' :: rest =>
    let negated := rest.head? == some '^'
    let rest := if negated then rest.tail else rest
    match rest.dropWhile (· != ':') with
    | ':' :: ']' :: tail =>
      (CharSet.named? (String.ofList (rest.takeWhile (· != ':')))).map fun s =>
        (f.finish negated s, tail)
    | _ => none
  | _ => none

/-- Reads a character or an escape. -/
def readMember (f : Flags) (s : List Char) : Option (Escape × List Char) :=
  match s with
  | [] => none
  | '\\' :: rest => readEscape f rest
  | c :: rest => some (.char c false, rest)

/-- A character that may stand in a set: without Unicode only an ASCII character. -/
def Flags.admits (f : Flags) (c : Char) : Bool := f.unicode || c.toNat < 0x80

/-- The set of one member. -/
def memberSet (f : Flags) (e : Escape) : Option CharSet :=
  match e with
  | .char c _ => if f.admits c then some (.one c) else none
  | .set s => some s
  | .look _ => none

/-- Reads a member or a range of characters. -/
def readRange (f : Flags) (s : List Char) : Option (CharSet × List Char) := do
  let (a, rest) ← readMember f s
  match f.pass rest with
  | [] => none
  | '-' :: tail =>
    let next := (f.pass tail).head?
    if next == some ']' || next == some '-' then return (← memberSet f a, '-' :: tail)
    else
      let (b, rest) ← readMember f (f.pass tail)
      match a, b with
      | .char a _, .char b _ =>
        if a ≤ b && f.admits a && f.admits b then some (.range a b, rest) else none
      | _, _ => none
  | rest => return (← memberSet f a, rest)

/-- Counts and passes hyphens that stand for themselves at the beginning of a set. -/
def passHyphens (f : Flags) : Nat → Nat → List Char → Nat × List Char
  | fuel + 1, n, '-' :: rest => passHyphens f fuel (n + 1) (f.pass rest)
  | _, n, s => (n, s)

/-- The beginning of a set behind its bracket: whether it is negated, the members that would
otherwise have a meaning of their own, and what follows. -/
def readOpening (f : Flags) (s : List Char) : Bool × Members × List Char :=
  let s := f.pass s
  let negated := s.head? == some '^'
  let s := if negated then f.pass s.tail else s
  match s with
  | '-' :: _ =>
    let (n, rest) := passHyphens f s.length 0 s
    (negated, ⟨.one '-', n, 0⟩, rest)
  | ']' :: rest => (negated, ⟨.one ']', 1, 0⟩, f.pass rest)
  | _ => (negated, {}, s)

mutual

/-- Reads a set behind its bracket. -/
def readSet (f : Flags) : Nat → List Char → Option (Nested × List Char)
  | 0, _ => none
  | fuel + 1, s => do
    let (negated, members, s) := readOpening f s
    let (members, rest) ← readMembers f fuel none members s
    return (⟨← f.finish negated members.set, members.depth + 1⟩, rest)

/-- Reads the members of a set up to its last bracket; those before are given. -/
def readMembers (f : Flags) :
    Nat → Option (Join × Nested) → Members → List Char → Option (Nested × List Char)
  | 0, _, _, _ => none
  | fuel + 1, before, members, s =>
    match f.pass s with
    | [] => none
    | ']' :: rest => some (members.join f before, rest)
    | '[' :: rest =>
      match readNamedSet f rest with
      | some (s, rest) => do readMembers f fuel before (members.add (← s) 0) rest
      | none => do
        let (s, rest) ← readSet f fuel rest
        readMembers f fuel before (members.add s.set s.depth) rest
    | '&' :: '&' :: rest => readMembers f fuel (some (.inter, members.join f before)) {} rest
    | '-' :: '-' :: rest => readMembers f fuel (some (.diff, members.join f before)) {} rest
    | '~' :: '~' :: rest => readMembers f fuel (some (.symmDiff, members.join f before)) {} rest
    | s => do
      let (s, rest) ← readRange f s
      readMembers f fuel before (members.add s 0) rest

end

/-- Reads a set in brackets, behind the first of them. -/
def readBrackets (f : Flags) (s : List Char) : Option (Nested × List Char) :=
  readSet f (2 * s.length + 2) s

end TaggedYaml.Pattern
