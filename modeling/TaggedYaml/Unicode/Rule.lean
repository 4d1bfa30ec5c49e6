import TaggedYaml.Unicode.CategoryTable
import TaggedYaml.Unicode.ScriptTable

/-!
# Rule — what makes up a set of code points

Sets are given by lists of code points, by general categories and by scripts, and by unions and
differences of such sets.
-/

namespace TaggedYaml.Unicode

/-- What makes up a set of code points. -/
inductive Rule where
  | listed (lines : List String)
  /-- General categories, by their codes; a code of one letter is short for all that begin so. -/
  | category (codes : List String)
  | script (code : String)
  /-- Code points of equal distance. -/
  | every (step first last : Nat)
  | either (a b : Rule)
  | except (a b : Rule)

/-- The code points that a rule is about. -/
def Rule.codes : Rule → CodeSet
  | listed lines => .ofLines lines
  | category codes => Run.select categoryRuns fun value => codes.any (·.isPrefixOf value)
  | script code => Run.select scriptRuns (· == code)
  | every step first last =>
    ⟨(List.range ((last - first) / step + 1)).map fun k => ⟨first + k * step, first + k * step⟩⟩
  | either a b => a.codes.union b.codes
  | except a b => a.codes.diff b.codes

end TaggedYaml.Unicode
