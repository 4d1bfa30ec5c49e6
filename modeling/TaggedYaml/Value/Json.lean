import TaggedYaml.Json.Text
import TaggedYaml.Value.Basic

/-!
# Values as JSON

`compact` has no blanks; `pretty` puts every member on a line of its own, two columns further in
than the brackets, and leaves empty brackets together.
-/

namespace TaggedYaml

namespace Value

mutual

/-- JSON without blanks. -/
def compact : Value → List Char
  | text s => Json.quote s
  | list items => '[' :: compactItems true items
  | map entries => '\x7b' :: compactEntries true entries

def compactItems : Bool → List Value → List Char
  | _, [] => [']']
  | first, v :: rest => (if first then [] else [',']) ++ (compact v ++ compactItems false rest)

def compactEntries : Bool → List (String × Value) → List Char
  | _, [] => ['\x7d']
  | first, (k, v) :: rest =>
    (if first then [] else [',']) ++
      (Json.quote k ++ ':' :: (compact v ++ compactEntries false rest))

end

/-- The beginning of a line. -/
def newLine (depth : Nat) : List Char := '\n' :: List.replicate (2 * depth) ' '

mutual

/-- JSON on several lines, inside a number of brackets. -/
def pretty (depth : Nat) : Value → List Char
  | text s => Json.quote s
  | list [] => ['[', ']']
  | list (v :: rest) => '[' :: prettyItems depth true (v :: rest)
  | map [] => ['\x7b', '\x7d']
  | map (e :: rest) => '\x7b' :: prettyEntries depth true (e :: rest)

def prettyItems (depth : Nat) : Bool → List Value → List Char
  | _, [] => newLine depth ++ [']']
  | first, v :: rest =>
    (if first then [] else [',']) ++
      (newLine (depth + 1) ++ (pretty (depth + 1) v ++ prettyItems depth false rest))

def prettyEntries (depth : Nat) : Bool → List (String × Value) → List Char
  | _, [] => newLine depth ++ ['\x7d']
  | first, (k, v) :: rest =>
    (if first then [] else [',']) ++
      (newLine (depth + 1) ++ (Json.quote k ++
        ':' :: ' ' :: (pretty (depth + 1) v ++ prettyEntries depth false rest)))

end

/-- JSON text without blanks. -/
def toJson (v : Value) : String := String.ofList v.compact

/-- JSON text on several lines. -/
def toPrettyJson (v : Value) : String := String.ofList (v.pretty 0)

end Value

end TaggedYaml
