import TaggedYaml.Pattern.Shape

/-!
# Size — how large the automaton of a pattern is

A pattern must not be larger than an automaton of ten mebibytes, be it the one that reads a text
forwards and remembers groups, or the one that reads it backwards.  States take 32 bytes each, and
some take more: 8 bytes for each range of bytes where there are several, and 4 for each way on where
these are tried in order.

States of sets are shared: one that was built before is used again, as long as it is remembered.
What is remembered stands in a table with a number of slots, and a later state takes the slot of an
earlier one.
-/

namespace TaggedYaml.Pattern

/-- The bytes that an automaton may take. -/
def sizeLimit : Nat := 10 * 1024 * 1024

/-- How much of an automaton was built. -/
structure Tally where
  states : Nat
  /-- The bytes that states take beyond the 32 that each of them takes. -/
  extra : Nat
deriving DecidableEq, Repr

namespace Tally

/-- The size in bytes. -/
def bytes (t : Tally) : Nat := 32 * t.states + t.extra

/-- The same, if it is not too large. -/
def checked (t : Tally) : Option Tally := if t.bytes ≤ sizeLimit then some t else none

/-- A number of states more, and the bytes that they take beyond. -/
def add (t : Tally) (states extra : Nat) : Option Tally :=
  checked ⟨t.states + states, t.extra + extra⟩

/-- Builds the same again, a number of times. -/
def iterate (build : Tally → Option Tally) : Nat → Tally → Option Tally
  | 0, t => some t
  | n + 1, t =>
    match build t with
    | some t => iterate build n t
    | none => none

end Tally

/-! ### Sets -/

/-- States that were built and are remembered.  A slot holds what identifies the state and the
number of the state. -/
structure Sharing where
  tally : Tally
  slots : Array (Option (List Nat × Nat))

/-- A number of 64 bits that differs for most lists. -/
def mixed (ns : List Nat) : UInt64 :=
  ns.foldl (fun h n => (h ^^^ n.toUInt64) * 1099511628211) 14695981039346656037

namespace Sharing

/-- Nothing is remembered. -/
def start (t : Tally) (slots : Nat) : Sharing := ⟨t, Array.replicate slots none⟩

/-- A new state. -/
def build (s : Sharing) (slot : Nat) (key : List Nat) (extra : Nat) : Nat × Sharing :=
  let n := s.tally.states
  (n, ⟨⟨n + 1, s.tally.extra + extra⟩, s.slots.setIfInBounds slot (some (key, n))⟩)

/-- The state that a key identifies: one that is remembered, or a new one. -/
def state (s : Sharing) (key : List Nat) (extra : Nat) : Nat × Sharing :=
  let slot := (mixed key).toNat % s.slots.size
  match s.slots.getD slot none with
  | some (known, n) => if known == key then (n, s) else s.build slot key extra
  | none => s.build slot key extra

/-- The state from which sequences, in order, lead to `target`.  It is identified by its ranges and
where they lead. -/
def stateFor (target : Nat) : Nat → List (List ByteRange) → Sharing → Nat × Sharing
  | 0, _, s => (target, s)
  | depth + 1, sequences, s =>
    let (key, s) := (sequences.splitBy fun a b => a.head? == b.head?).foldl
      (fun (key, s) group =>
        match group with
        | (r :: rest) :: _ =>
          let (next, s) :=
            if rest.isEmpty then (target, s)
            else stateFor target depth (group.map List.tail) s
          (next :: r.last :: r.first :: key, s)
        | _ => (key, s))
      ([], s)
    s.state key.reverse (8 * (key.length / 3))

/-- The states of a sequence that is read backwards, from its end on. -/
def addBackwards (s : Sharing) (target : Nat) (sequence : List ByteRange) : Sharing :=
  (sequence.foldl (fun (next, s) r => s.state [next, r.first, r.last] 0) (target, s)).2

end Sharing

/-- Adds a set. -/
def Tally.addSet (t : Tally) (forward : Bool) (codes : Unicode.CodeSet)
    (sequences : List (List ByteRange)) : Option Tally :=
  if codes.intervals.all fun r => r.last < 0x80 then t.add 2 (8 * codes.intervals.length)
  else if forward then
    let s := Sharing.start ⟨t.states + 1, t.extra⟩ 10000
    (s.stateFor t.states 4 sequences).2.tally.checked
  else
    let s := Sharing.start ⟨t.states + 2, t.extra + 4 * sequences.length⟩ 1000
    (sequences.foldl (fun s q => s.addBackwards (t.states + 1) q) s).tally.checked

/-! ### Choices of literals -/

/-- The words that follow one another up to the end of another; where one ends, a new list
begins. -/
def wordGroups : List (List Nat) → List (List (List Nat))
  | [] => [[]]
  | [] :: rest => [] :: wordGroups rest
  | w :: rest =>
    match wordGroups rest with
    | group :: groups => (w :: group) :: groups
    | [] => [[w]]

/-- The tree of some words of at most `depth` bytes: common beginnings share their states. -/
def Tally.addWords : Nat → List (List Nat) → Tally → Tally
  | 0, _, t => t
  | depth + 1, words, t =>
    let groups := wordGroups words
    let (t, ways) := groups.foldl
      (fun (t, ways) group =>
        let heads := (group.filterMap List.head?).eraseDups
        let t := heads.foldl
          (fun t b =>
            let tails := (group.filter (·.head? == some b)).map List.tail
            if tails.all List.isEmpty then t else addWords depth tails t)
          t
        match heads with
        | [] => (t, ways)
        | [_] => (⟨t.states + 1, t.extra⟩, ways + 1)
        | _ => (⟨t.states + 1, t.extra + 8 * heads.length⟩, ways + 1))
      (t, groups.length - 1)
    ⟨t.states + 1, t.extra + 4 * ways⟩

/-! ### Shapes -/

/-- Goes on behind a choice: the second one adds the states where the choices part and meet. -/
def Tally.choice (t : Tally) (place : Option Bool) : Option Tally :=
  match place with
  | none => some t
  | some second => t.add (if second then 2 else 0) (if second then 8 else 4)

/-- Adds a shape.  A place says that it is a choice behind another, and whether it is the second
one. -/
def Shape.tally (forward : Bool) : Shape → Option Bool → Tally → Option Tally
  | .empty, place, t | .look _, place, t => do (← t.add 1 0).choice place
  | .literal bytes, place, t => do (← t.add bytes.length 0).choice place
  | .set codes sequences, place, t => do (← t.addSet forward codes sequences).choice place
  | .words ws, place, t => do
    let ws := if forward then ws else ws.map List.reverse
    let depth := (ws.map List.length).foldr Nat.max 0
    (← (Tally.addWords (depth + 1) ws ⟨t.states + 1, t.extra⟩).checked).choice place
  | .group _ a, place, t =>
    if forward then do
      let t ← a.tally forward none (← t.add 1 0)
      (← t.add 1 0).choice place
    else do (← a.tally forward none t).choice place
  | .seq a b, place, t => do
    let t ←
      if forward then b.tally forward none (← a.tally forward none t)
      else a.tally forward none (← b.tally forward none t)
    t.choice place
  | .alt a b, place, t => do
    let t ← a.tally forward none t
    match place with
    | none => b.tally forward (some true) t
    | some second => b.tally forward (some false) (← t.choice (some second))
  | .loop a min max _, place, t => do
    let t ←
      match min, max with
      | 0, some 1 => do (← a.tally forward none (← t.add 1 8)).add 1 0
      | min, some max =>
        if min == max then t.iterate (a.tally forward none) min
        else do
          let t ← if min == 0 then t.add 1 0 else t.iterate (a.tally forward none) min
          (← t.add 1 0).iterate (fun t => do a.tally forward none (← t.add 1 8)) (max - min)
      | 0, none =>
        if a.leastWidth?.any (0 < ·) then do a.tally forward none (← t.add 1 8)
        else do (← a.tally forward none t).add 3 16
      | min, none => do (← t.iterate (a.tally forward none) min).add 1 8
    t.choice place

/-- The automaton of a shape is not too large.  It begins with a loop over what comes before a
match, unless matches are bound to an end of the text. -/
def Shape.fits (a : Shape) (forward : Bool) : Bool :=
  let start : Tally := if a.isBound forward then ⟨1, 0⟩ else ⟨3, 16⟩
  ((Shape.group 0 a).tally forward none start).any fun t => (t.add 1 0).isSome

/-! ### Expressions -/

/-- A size that the automaton of an expression does not exceed. -/
def Expr.sizeBound : Expr → Nat
  | .empty | .look _ => 32
  | .set (.range first last) => if first == last then 400 else 4064
  | .set s => 64 + 4000 * s.intervalBound false
  | .seq a b => a.sizeBound + b.sizeBound
  | .alt a b => a.sizeBound + b.sizeBound + 80
  | .group _ _ a => a.sizeBound + 64
  | .loop a min max _ => Nat.max (Nat.max (max.getD 1) min) 1 * (a.sizeBound + 40) + 112

/-- The automaton of an expression is not too large. -/
def Expr.fits (e : Expr) : Bool :=
  e.sizeBound + 400 ≤ sizeLimit ||
    let a := e.shape
    a.fits true && a.fits false

end TaggedYaml.Pattern
