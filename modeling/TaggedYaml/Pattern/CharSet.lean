import TaggedYaml.Unicode.Class
import TaggedYaml.Unicode.Fold

/-!
# CharSet — sets of characters

The sets that patterns can name.  Membership is computed from the expression, so a set is never
spelled out.
-/

namespace TaggedYaml.Pattern

/-- A set of characters. -/
inductive CharSet where
  | empty
  | range (first last : Char)
  | codes (s : Unicode.CodeSet)
  /-- Digits of any script. -/
  | digit
  /-- Characters of words in any script. -/
  | word
  | white
  | union (a b : CharSet)
  | inter (a b : CharSet)
  | compl (a : CharSet)
  /-- All characters that differ from one of a set in case alone. -/
  | folded (a : CharSet)
  /-- The same for ASCII letters only. -/
  | asciiFolded (a : CharSet)
deriving DecidableEq, Repr

namespace CharSet

/-- The set of one character. -/
def one (c : Char) : CharSet := range c c

/-- The union of ranges. -/
def ranges : List (Char × Char) → CharSet
  | [] => empty
  | (a, b) :: rest => union (range a b) (ranges rest)

def diff (a b : CharSet) : CharSet := inter a (compl b)

def symmDiff (a b : CharSet) : CharSet := union (diff a b) (diff b a)

/-- Membership. -/
def contains : CharSet → Char → Bool
  | empty, _ => false
  | range first last, c => first ≤ c && c ≤ last
  | codes s, c => s.contains c.toNat
  | digit, c => Unicode.isDigit c.toNat
  | word, c => Unicode.isWord c.toNat
  | white, c => isWhite c
  | union a b, c => a.contains c || b.contains c
  | inter a b, c => a.contains c && b.contains c
  | compl a, c => !a.contains c
  | folded a, c => (Unicode.caseVariants c.toNat).any fun n => a.contains (Char.ofNat n)
  | asciiFolded a, c => (Unicode.asciiVariants c.toNat).any fun n => a.contains (Char.ofNat n)

/-- The code points of the characters of a set. -/
def toCodes : CharSet → Unicode.CodeSet
  | empty => .empty
  | range first last => ⟨[⟨first.toNat, last.toNat⟩]⟩
  | codes s => s
  | digit => Unicode.digitCodes
  | word => Unicode.wordCodes
  | white => Unicode.Rule.white.codes
  | union a b => a.toCodes.union b.toCodes
  | inter a b => a.toCodes.inter b.toCodes
  | compl a => a.toCodes.compl
  | folded a => Unicode.foldClosure a.toCodes
  | asciiFolded a => Unicode.asciiClosure a.toCodes

/-- No fewer than the intervals of code points that make up a set, or the set together with its
variants in case. -/
def intervalBound (cased : Bool) : CharSet → Nat
  | empty => 0
  | range first last => if cased then 1 + 4 * (last.toNat + 1 - first.toNat) else 1
  | codes s => s.intervals.length + variants
  | digit => 100
  | word => 1000
  | white => 10
  | union a b => a.intervalBound cased + b.intervalBound cased
  | inter a b => a.intervalBound false + b.intervalBound false + variants
  | compl a => a.intervalBound false + 1 + variants
  | folded a => a.intervalBound true
  | asciiFolded a => a.intervalBound cased + 52
where
  /-- No fewer than the letters that have variants in case. -/
  variants : Nat := if cased then 3000 else 0

/-- The sets that have ASCII names. -/
def named? (name : String) : Option CharSet :=
  match name with
  | "alnum" => some (ranges [('0', '9'), ('A', 'Z'), ('a', 'z')])
  | "alpha" => some (ranges [('A', 'Z'), ('a', 'z')])
  | "ascii" => some (range '\x00' '\x7f')
  | "blank" => some (ranges [('\t', '\t'), (' ', ' ')])
  | "cntrl" => some (ranges [('\x00', '\x1f'), ('\x7f', '\x7f')])
  | "digit" => some (range '0' '9')
  | "graph" => some (range '!' '~')
  | "lower" => some (range 'a' 'z')
  | "print" => some (range ' ' '~')
  | "punct" => some (ranges [('!', '/'), (':', '@'), ('[', '\x60'), ('\x7b', '~')])
  | "space" => some (ranges [('\t', '\r'), (' ', ' ')])
  | "upper" => some (range 'A' 'Z')
  | "word" => some (ranges [('0', '9'), ('A', 'Z'), ('_', '_'), ('a', 'z')])
  | "xdigit" => some (ranges [('0', '9'), ('A', 'F'), ('a', 'f')])
  | _ => none

/-! ### Membership in built sets -/

theorem contains_one (c x : Char) : (one c).contains x = (x == c) := by
  rw [Bool.eq_iff_iff]
  simp only [one, contains, Bool.and_eq_true, decide_eq_true_eq, beq_iff_eq]
  constructor
  · rintro ⟨h₁, h₂⟩
    exact Char.le_antisymm h₂ h₁
  · rintro rfl
    exact ⟨Char.le_refl _, Char.le_refl _⟩

end CharSet

end TaggedYaml.Pattern
