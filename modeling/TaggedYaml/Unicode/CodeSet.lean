import TaggedYaml.Text.Class

/-!
# CodeSet — sets of code points

A set is a list of intervals in order, of which no two meet or touch.
-/

namespace TaggedYaml.Unicode

/-- The code points from `first` to `last`. -/
structure Interval where
  first : Nat
  last : Nat
deriving DecidableEq, Repr

/-- The interval holds a code point. -/
def Interval.contains (r : Interval) (n : Nat) : Bool := r.first ≤ n && n ≤ r.last

/-- The first interval begins where the second does or before. -/
def Interval.le (r s : Interval) : Bool := r.first ≤ s.first

/-- A set of code points. -/
structure CodeSet where
  intervals : List Interval
deriving DecidableEq, Repr

namespace CodeSet

/-- The highest code point. -/
def highest : Nat := 0x10FFFF

def empty : CodeSet := ⟨[]⟩

/-- Membership. -/
def contains (s : CodeSet) (n : Nat) : Bool := s.intervals.any (·.contains n)

/-- Joins intervals that meet or touch, where they come in the order of their beginnings; `r` is the
first of them. -/
def joinFrom (r : Interval) : List Interval → List Interval
  | [] => [r]
  | s :: rest =>
    if s.first ≤ r.last + 1 then joinFrom ⟨r.first, Nat.max r.last s.last⟩ rest
    else r :: joinFrom s rest

/-- Joins intervals that meet or touch, where they come in the order of their beginnings. -/
def join : List Interval → List Interval
  | [] => []
  | r :: rest => joinFrom r rest

/-- The set of some intervals. -/
def ofIntervals (rs : List Interval) : CodeSet := ⟨join (rs.mergeSort Interval.le)⟩

def union (a b : CodeSet) : CodeSet :=
  ⟨join (a.intervals.merge b.intervals Interval.le)⟩

/-- What lies between intervals, from a place on. -/
def gaps (start : Nat) : List Interval → List Interval
  | [] => if start ≤ highest then [⟨start, highest⟩] else []
  | r :: rest =>
    if start < r.first then ⟨start, r.first - 1⟩ :: gaps (r.last + 1) rest
    else gaps (r.last + 1) rest

def compl (a : CodeSet) : CodeSet := ⟨gaps 0 a.intervals⟩

def inter (a b : CodeSet) : CodeSet := (a.compl.union b.compl).compl

def diff (a b : CodeSet) : CodeSet := (a.compl.union b).compl

/-- A number in hexadecimal digits. -/
def hexNumber (s : String) : Nat := s.toList.foldl (fun n c => 16 * n + (hexValue? c).getD 0) 0

/-- The interval that is written as its ends with a hyphen between them, or as a single code
point. -/
def intervalOfText (s : String) : Interval :=
  match s.splitOn "-" with
  | [a, b] => ⟨hexNumber a, hexNumber b⟩
  | _ => ⟨hexNumber s, hexNumber s⟩

/-- The set that is written as its intervals in order, with spaces between them. -/
def ofLines (lines : List String) : CodeSet :=
  ⟨lines.flatMap fun line => (line.splitOn " ").map intervalOfText⟩

end CodeSet

end TaggedYaml.Unicode
