import TaggedYaml.Pattern.Basic
import TaggedYaml.Pattern.Bytes

/-!
# Shape — the normal form of an expression

An automaton is built from a normal form: characters that follow one another are one literal,
choices between single characters are a set, and what all choices begin with stands before them.
-/

namespace TaggedYaml.Pattern

open Unicode (CodeSet Interval)

/-- The normal form of an expression. -/
inductive Shape where
  | empty
  /-- Characters one behind the other, in UTF-8. -/
  | literal (bytes : List Nat)
  /-- A set of none or several characters, and its sequences in UTF-8. -/
  | set (codes : CodeSet) (sequences : List (List ByteRange))
  | look (l : Look)
  | group (index : Nat) (a : Shape)
  | loop (a : Shape) (min : Nat) (max : Option Nat) (greedy : Bool)
  | seq (a b : Shape)
  | alt (a b : Shape)
  /-- A choice of several literals. -/
  | words (ws : List (List Nat))
deriving DecidableEq, Repr

namespace Shape

/-- The code points that are characters. -/
def scalarCodes : CodeSet := ⟨[⟨0, 0xD7FF⟩, ⟨0xE000, 0x10FFFF⟩]⟩

/-- A set; one of a single character is a literal. -/
def ofCodes (s : CodeSet) : Shape :=
  let s := s.inter scalarCodes
  let several := set s (s.intervals.flatMap byteSequences)
  match s.intervals with
  | [r] => if r.first == r.last then literal (utf8Bytes r.first) else several
  | _ => several

/-- A loop; one round is what the loop repeats, and no round is nothing. -/
def ofLoop (a : Shape) (min : Nat) (max : Option Nat) (greedy : Bool) : Shape :=
  if max == some 0 then empty
  else if min == 1 && max == some 1 then a
  else loop a min max greedy

/-- The parts that stand one behind the other. -/
def parts : Shape → List Shape
  | empty => []
  | seq a b => a :: b.parts
  | a => [a]

/-- The choices. -/
def choices : Shape → List Shape
  | alt a b => a :: b.choices
  | words ws => ws.map literal
  | a => [a]

/-- Literals that follow one another become one. -/
def joinLiterals : List Shape → List Shape
  | [] => []
  | literal a :: rest =>
    match joinLiterals rest with
    | literal b :: tail => literal (a ++ b) :: tail
    | tail => literal a :: tail
  | a :: rest => a :: joinLiterals rest

/-- Parts one behind the other, as they are. -/
def chain : List Shape → Shape
  | [] => empty
  | [a] => a
  | a :: rest => seq a (chain rest)

/-- Shapes one behind the other. -/
def ofParts (as : List Shape) : Shape := chain (joinLiterals (as.flatMap parts))

/-- The bytes of a literal. -/
def bytes? : Shape → Option (List Nat)
  | literal bytes => some bytes
  | _ => none

/-- The code points of a set. -/
def codes? : Shape → Option CodeSet
  | set s _ => some s
  | _ => none

/-- A choice of shapes that have nothing in common. -/
def branch : List Shape → Shape
  | [] => set .empty []
  | [a] => a
  | a :: rest => alt a (branch rest)

/-- What several lists begin with. -/
def commonStart : List (List Shape) → List Shape
  | [] => []
  | [as] => as
  | as :: rest =>
    (as.zip (commonStart rest)).takeWhile (fun p => p.1 == p.2) |>.map (·.1)

/-- A choice of single characters, or of sets, as one set. -/
def oneSet? (as : List Shape) : Option Shape :=
  match as.mapM fun a => a.bytes?.bind charOfBytes? with
  | some cs => some (ofCodes (.ofIntervals (cs.map fun c => ⟨c, c⟩)))
  | none => (as.mapM codes?).map fun sets => ofCodes (sets.foldl CodeSet.union .empty)

/-- The number of literals, sets, conditions, groups and loops. -/
def weight : Shape → Nat
  | group _ a | loop a _ _ _ => a.weight + 1
  | seq a b | alt a b => a.weight + b.weight
  | words ws => ws.length
  | _ => 1

/-- A choice of shapes.  What all of them begin with is taken out, at most `fuel` times. -/
def ofChoices : Nat → List Shape → Shape
  | 0, as => branch as
  | fuel + 1, as =>
    match as.flatMap choices with
    | [] => branch []
    | [a] => a
    | as =>
      match oneSet? as with
      | some a => a
      | none =>
        let lists := as.map parts
        let start := if lists.all fun l => 2 ≤ l.length then commonStart lists else []
        if start.isEmpty then
          match as.mapM bytes? with
          | some ws => words ws
          | none => branch as
        else
          ofParts (start ++ [ofChoices fuel (lists.map fun l => ofParts (l.drop start.length))])

/-- A choice of shapes. -/
def ofAlternatives (as : List Shape) : Shape :=
  match as with
  | [a] => a
  | as => ofChoices ((as.map weight).foldr (· + ·) 1) as

/-- No match has characters, wherever there is one. -/
def isZeroWidth : Shape → Bool
  | empty | look _ => true
  | literal _ | set .. | words _ => false
  | group _ a => a.isZeroWidth
  | loop a _ _ _ => a.isZeroWidth
  | seq a b | alt a b => a.isZeroWidth && b.isZeroWidth

/-- No more bytes than any match has, and none only if a match can have none; there is no such
number where there is no match. -/
def leastWidth? : Shape → Option Nat
  | empty | look _ => some 0
  | literal bytes => some bytes.length
  | set s _ => if s.intervals.isEmpty then none else some 1
  | words _ => some 1
  | group _ a => a.leastWidth?
  | loop a min _ _ => a.leastWidth?.map (· * min)
  | seq a b => do return (← a.leastWidth?) + (← b.leastWidth?)
  | alt a b => do return Nat.min (← a.leastWidth?) (← b.leastWidth?)

/-- Matches begin where the text does, or end where it does. -/
def isBound (forward : Bool) : Shape → Bool
  | look l => l == if forward then .textStart else .textEnd
  | group _ a => a.isBound forward
  | loop a min _ _ => 0 < min && a.isBound forward
  | seq a b =>
    if forward then a.isBound true || (a.isZeroWidth && b.isBound true)
    else b.isBound false || (b.isZeroWidth && a.isBound false)
  | alt a b => a.isBound forward && b.isBound forward
  | _ => false

end Shape

/-- The shapes of the choices that an expression is made of. -/
def Expr.choiceShapes : Expr → List Shape
  | .empty => [.empty]
  | .set s => [.ofCodes s.toCodes]
  | .look l => [.look l]
  | .seq a b => [.ofParts [.ofAlternatives a.choiceShapes, .ofAlternatives b.choiceShapes]]
  | .alt a b => .ofAlternatives a.choiceShapes :: b.choiceShapes
  | .group index _ a => [.group index (.ofAlternatives a.choiceShapes)]
  | .loop a min max greedy => [.ofLoop (.ofAlternatives a.choiceShapes) min max greedy]

/-- The normal form of an expression. -/
def Expr.shape (e : Expr) : Shape := .ofAlternatives e.choiceShapes

end TaggedYaml.Pattern
