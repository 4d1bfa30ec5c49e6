import Std.Data.TreeMap
import Std.Data.TreeSet
import TaggedYaml.Pattern.Basic

/-!
# Matching

Matching tries the choices of an expression in order and goes on with what has to match behind it.
What follows a choice depends on the choice and the place alone, so each is made only once at a
place: it led nowhere before, or it would only come back to itself.  So loops end, also those whose
rounds may be empty, and the work grows with the text no faster than with the expression.
-/

namespace TaggedYaml.Pattern

/-- What a group matched. -/
structure Group where
  index : Nat
  name : Option String
  /-- The text from where its match begins. -/
  start : List Char
  length : Nat
deriving DecidableEq, Repr

/-- The text that a group matched. -/
def Group.text (g : Group) : List Char := g.start.take g.length

/-- A place in a text and what groups have matched so far, latest first. -/
structure Place where
  before : Option Char
  rest : List Char
  /-- The number of characters before. -/
  offset : Nat
  groups : List Group
deriving DecidableEq, Repr

/-- The choices that were made at each offset.  The choices of an expression are numbered. -/
abbrev Seen := Std.TreeMap Nat (Std.TreeSet Nat)

/-- A search for a way to match, and the choices that were made until it ended. -/
abbrev Search := Seen → Option Place × Seen

def isWordChar (ascii : Bool) (c : Char) : Bool :=
  if ascii then Unicode.isAsciiWord c.toNat else Unicode.isWord c.toNat

def Edge.holds (e : Edge) (before behind : Bool) : Bool :=
  match e with
  | .either => before != behind
  | .neither => before == behind
  | .start => !before && behind
  | .finish => before && !behind
  | .startHalf => !before
  | .finishHalf => !behind

/-- The condition holds between two characters, or at an end of the text. -/
def Look.holds (l : Look) (before behind : Option Char) : Bool :=
  match l with
  | .textStart => before.isNone
  | .textEnd => behind.isNone
  | .lineStart false => before.all (· == '\n')
  | .lineStart true => before.all fun c => c == '\n' || (c == '\r' && behind != some '\n')
  | .lineEnd false => behind.all (· == '\n')
  | .lineEnd true => behind.all fun c => c == '\r' || (c == '\n' && before != some '\r')
  | .edge e ascii => e.holds (before.any (isWordChar ascii)) (behind.any (isWordChar ascii))

/-- The choice was made at an offset. -/
def Seen.has (seen : Seen) (here : Nat) (offset : Nat) : Bool :=
  (seen.getD offset ∅).contains here

/-- Makes a choice at an offset. -/
def Seen.add (seen : Seen) (here : Nat) (offset : Nat) : Seen :=
  seen.insert offset ((seen.getD offset ∅).insert here)

/-- A choice was made if it is the one that is made now, or was made before. -/
theorem Seen.has_add (seen : Seen) (here offset there place : Nat) :
    (seen.add here offset).has there place =
      ((here == there && offset == place) || seen.has there place) := by
  unfold Seen.has Seen.add
  rw [Std.TreeMap.getD_insert]
  by_cases h : offset = place
  · subst h
    have : (compare here there == Ordering.eq) = (here == there) := by
      rw [Bool.eq_iff_iff]
      simp
    simp [Std.TreeSet.contains_insert, this]
  · simp [h]
/-- No way leads on. -/
def Search.fail : Search := fun seen => (none, seen)

/-- A choice of two ways, the first of them first. -/
def Place.choose (p : Place) (here : Nat) (first second : Place → Search) : Search := fun seen =>
  if seen.has here p.offset then (none, seen)
  else
    match first p (seen.add here p.offset) with
    | (some q, seen) => (some q, seen)
    | (none, seen) => second p seen

/-- Another round or none, more rounds first if the loop is greedy. -/
def Place.again (p : Place) (here : Nat) (greedy : Bool) (more fewer : Place → Search) :
    Search :=
  if greedy then p.choose here more fewer else p.choose here fewer more

/-- Matches at a place, and then what `k` matches. -/
abbrev Step := Place → (Place → Search) → Search

/-- A number of rounds.  Each has `count` choices of its own, which begin with number `here`. -/
def times (step : Nat → Step) (count here : Nat) : Nat → Step
  | 0, p, k => k p
  | n + 1, p, k => step (here + n * count) p fun q => times step count here n q k

/-- At most a number of rounds.  Each has `count` choices of its own besides whether there is
another. -/
def upTo (step : Nat → Step) (count here : Nat) (greedy : Bool) : Nat → Step
  | 0, p, k => k p
  | n + 1, p, k =>
    let choice := here + n * (count + 1)
    p.again choice greedy
      (fun q => step (choice + 1) q fun r => upTo step count here greedy n r k) k

/-- Any number of rounds, as far as the last argument allows.  A round has to move on. -/
def star (step : Nat → Step) (here : Nat) (greedy : Bool) : Nat → Step
  | 0, _, _ => .fail
  | n + 1, p, k =>
    p.again here greedy (fun q => step (here + 1) q fun r => star step here greedy n r k) k

/-- One round or more, as far as the last argument allows.  All but the first have to move on. -/
def plus (step : Nat → Step) (here : Nat) (greedy : Bool) : Nat → Step
  | 0, _, _ => .fail
  | n + 1, p, k =>
    step (here + 1) p fun q => q.again here greedy (fun r => plus step here greedy n r k) k

/-- Matches an expression at a place.  Its choices are numbered from `here` on, and no loop without
a bound needs more than `rounds` rounds. -/
def Expr.run (rounds : Nat) : Expr → Nat → Step
  | .empty, _, p, k => k p
  | .set s, _, p, k =>
    match p.rest with
    | [] => .fail
    | c :: rest =>
      if s.contains c then k { p with before := some c, rest, offset := p.offset + 1 } else .fail
  | .look l, _, p, k => if l.holds p.before p.rest.head? then k p else .fail
  | .seq a b, here, p, k =>
    a.run rounds here p fun q => b.run rounds (here + a.choiceCount) q k
  | .alt a b, here, p, k =>
    p.choose here (fun q => a.run rounds (here + 1) q k)
      fun q => b.run rounds (here + 1 + a.choiceCount) q k
  | .group index name a, here, p, k =>
    a.run rounds here p fun q =>
      k { q with groups := ⟨index, name, p.rest, q.offset - p.offset⟩ :: q.groups }
  | .loop a min (some max) greedy, here, p, k =>
    let count := a.choiceCount
    times (a.run rounds) count here min p fun q =>
      upTo (a.run rounds) count (here + min * count) greedy (max - min) q k
  | .loop a 0 none greedy, here, p, k =>
    if a.mayBeEmpty then
      p.again here greedy (fun q => plus (a.run rounds) (here + 1) greedy rounds q k) k
    else star (a.run rounds) here greedy rounds p k
  | .loop a (n + 1) none greedy, here, p, k =>
    let count := a.choiceCount
    times (a.run rounds) count here n p fun q =>
      plus (a.run rounds) (here + n * count) greedy rounds q k

/-- Matches an expression at a place of a text. -/
def Expr.runAt (e : Expr) (rounds : Nat) (before : Option Char) (offset : Nat)
    (rest : List Char) : Search :=
  e.run rounds 0 ⟨before, rest, offset, []⟩ fun p seen => (some p, seen)

/-- A match in a text. -/
structure Match where
  /-- What stands before it. -/
  skipped : List Char
  text : List Char
  /-- The place behind it. -/
  stop : Place
deriving DecidableEq, Repr

/-- The first match from a place on; what was passed is last first.  A choice that led nowhere from
one place leads nowhere from the next. -/
def Expr.searchFrom (e : Expr) (rounds : Nat) (seen : Seen) (before : Option Char) (offset : Nat)
    (passed : List Char) : List Char → Option Match
  | [] => (e.runAt rounds before offset [] seen).1.map fun q => ⟨passed.reverse, [], q⟩
  | c :: rest =>
    match e.runAt rounds before offset (c :: rest) seen with
    | (some q, _) => some ⟨passed.reverse, (c :: rest).take (q.offset - offset), q⟩
    | (none, seen) => e.searchFrom rounds seen (some c) (offset + 1) (c :: passed) rest

/-- The rounds that a loop can need in a text: each moves on, but for the first and the last. -/
def roundsIn (text : List Char) : Nat := text.length + 2

/-- The first match from a place on, in a text whose loops need at most `rounds` rounds. -/
def search (p : Pattern) (rounds : Nat) (before : Option Char) (offset : Nat)
    (rest : List Char) : Option Match :=
  p.expr.searchFrom rounds ∅ before offset [] rest

/-- The text holds a match. -/
def matchesIn (p : Pattern) (text : String) : Bool :=
  (p.search (roundsIn text.toList) none 0 text.toList).isSome

end TaggedYaml.Pattern
