import TaggedYaml.Decimal.Text
import TaggedYaml.Json.Data
import TaggedYaml.Tree.Basic

/-!
# The tree of data

Texts become quoted scalars, so that they stay texts; numbers, truth values and nothing become plain
scalars.  Data has no tags, and so no node of the tree has one.  A document has no place for integers
of more than 64 bits, bytes, records of one field and choices.
-/

namespace TaggedYaml

namespace Tree

/-- What a message asks for where data does not fit. -/
def dataExpected : String := "a string, number, boolean, null, sequence or map"

/-- Adds a scalar. -/
def addScalar (t : Tree) (parent : NodeId) (value : String) (style : Style) : Tree :=
  (t.append parent { kind := .scalar, value, style }).2

mutual

/-- Adds data as the last child of a node. -/
def addData (parent : NodeId) : Json.Data → Tree → Except Json.Defect Tree
  | .null, t => .ok (t.addScalar parent "null" .plain)
  | .bool b, t => .ok (t.addScalar parent (if b then "true" else "false") .plain)
  | .int signed bits, t =>
    .ok (t.addScalar parent (toString (Json.intOfBits signed bits)) .plain)
  | .float x, t => .ok (t.addScalar parent (floatText x) .plain)
  | .text s, t => .ok (t.addScalar parent s .double)
  | .list items, t =>
    let (id, t) := t.append parent { kind := .sequence }
    addItems id items t
  | .map entries, t =>
    let (id, t) := t.append parent { kind := .mapping }
    addEntries id entries t
  | .some d, t => addData parent d t
  | .long signed bits, _ => .error (.found (.long signed bits) dataExpected)
  | .bytes, _ => .error (.found .bytes dataExpected)
  | .newtype, _ => .error (.found .newtype dataExpected)
  | .enum, _ => .error (.found .enum dataExpected)
  | .failure message, _ => .error (.source message)

def addItems (parent : NodeId) : List Json.Data → Tree → Except Json.Defect Tree
  | [], t => .ok t
  | d :: rest, t => do addItems parent rest (← addData parent d t)

def addEntries (parent : NodeId) : List (Json.Data × Json.Data) → Tree → Except Json.Defect Tree
  | [], t => .ok t
  | (k, v) :: rest, t => do addEntries parent rest (← addData parent v (← addData parent k t))

end

/-- The tree of data. -/
def ofData (d : Json.Data) : Except Json.Defect Tree := addData root d empty

end Tree

end TaggedYaml
