import TaggedYaml.Pattern.CharSet

/-!
# Pattern — regular expressions

An expression says what a match looks like; of several possible matches at a place the first in the
order of choices counts, and groups remember what they matched.
-/

namespace TaggedYaml.Pattern

/-- Where words begin and end. -/
inductive Edge where
  /-- On one side is a word character, on the other none. -/
  | either
  | neither
  | start
  | finish
  /-- No word character before. -/
  | startHalf
  /-- No word character behind. -/
  | finishHalf
deriving DecidableEq, Repr

/-- A condition on a place of a text. -/
inductive Look where
  | textStart
  | textEnd
  /-- With `crlf` a carriage return ends a line, together with the line feed behind it. -/
  | lineStart (crlf : Bool)
  | lineEnd (crlf : Bool)
  | edge (e : Edge) (ascii : Bool)
deriving DecidableEq, Repr

/-- A regular expression. -/
inductive Expr where
  | empty
  | set (s : CharSet)
  | look (l : Look)
  | seq (a b : Expr)
  /-- The first choice comes before the second. -/
  | alt (a b : Expr)
  | group (index : Nat) (name : Option String) (a : Expr)
  /-- More rounds come before fewer if it is greedy; without `max` there is no bound. -/
  | loop (a : Expr) (min : Nat) (max : Option Nat) (greedy : Bool)
deriving DecidableEq, Repr

namespace Expr

/-- A match may be without characters. -/
def mayBeEmpty : Expr → Bool
  | empty | look _ => true
  | set _ => false
  | seq a b => a.mayBeEmpty && b.mayBeEmpty
  | alt a b => a.mayBeEmpty || b.mayBeEmpty
  | group _ _ a => a.mayBeEmpty
  | loop a min _ _ => min == 0 || a.mayBeEmpty

/-- No match has characters, wherever there is one. -/
def isZeroWidth : Expr → Bool
  | empty | look _ => true
  | set _ => false
  | seq a b => a.isZeroWidth && b.isZeroWidth
  | alt a b => a.isZeroWidth && b.isZeroWidth
  | group _ _ a => a.isZeroWidth
  | loop a _ max _ => a.isZeroWidth || max == some 0

/-- A loop.  Where a round has no characters, a second one matches what the first did. -/
def repeated (a : Expr) (min : Nat) (max : Option Nat) (greedy : Bool) : Expr :=
  if a.isZeroWidth then loop a (Nat.min min 1) (some (Nat.min (max.getD 1) 1)) greedy
  else loop a min max greedy

/-- An expression in brackets, whose choices stay apart from those around it. -/
def enclosed : Expr → Expr
  | alt a b => seq (alt a b) empty
  | e => e

/-- The number of choices, counting those of a loop once for each round up to its bound. -/
def choiceCount : Expr → Nat
  | empty | set _ | look _ => 0
  | seq a b => a.choiceCount + b.choiceCount
  | alt a b => a.choiceCount + b.choiceCount + 1
  | group _ _ a => a.choiceCount
  | loop a min (some max) _ => min * a.choiceCount + (max - min) * (a.choiceCount + 1)
  | loop a min none _ => min * a.choiceCount + (a.choiceCount + 2)

/-- Expressions one behind the other. -/
def seqOf : List Expr → Expr
  | [] => empty
  | [a] => a
  | a :: rest => seq a (seqOf rest)

/-- A choice of expressions. -/
def altOf : List Expr → Expr
  | [] => empty
  | [a] => a
  | a :: rest => alt a (altOf rest)

end Expr

end TaggedYaml.Pattern

namespace TaggedYaml

/-- A pattern as it was written, and what it says. -/
structure Pattern where
  source : String
  expr : Pattern.Expr
deriving DecidableEq, Repr

end TaggedYaml
