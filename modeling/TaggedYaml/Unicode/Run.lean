import TaggedYaml.Unicode.CodeSet

/-!
# Run — code points that share a value

A table gives each code point a value.  It is written as runs, each as its length and its value; a
length of one is left out.
-/

namespace TaggedYaml.Unicode

/-- Code points that follow one another and share a value. -/
structure Run where
  value : String
  codes : Interval
deriving DecidableEq, Repr

namespace Run

/-- The length and the value of a run. -/
def ofToken (s : String) : Nat × String :=
  let (digits, value) := s.toList.span Char.isDigit
  let n := digits.foldl (fun n d => 10 * n + (d.toNat - '0'.toNat)) 0
  (if digits.isEmpty then 1 else n, String.ofList value)

/-- Runs that follow one another, from a code point on. -/
def ofTokens (start : Nat) : List String → List Run
  | [] => []
  | t :: rest =>
    let (n, value) := ofToken t
    ⟨value, start, start + n - 1⟩ :: ofTokens (start + n) rest

/-- The runs of a table. -/
def ofLines (lines : List String) : List Run :=
  ofTokens 0 (lines.flatMap fun line => line.splitOn " ")

/-- The code points whose value passes a test. -/
def select (runs : List Run) (p : String → Bool) : CodeSet :=
  ⟨CodeSet.join ((runs.filter fun r => p r.value).map (·.codes))⟩

end Run

end TaggedYaml.Unicode
