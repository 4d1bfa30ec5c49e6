import TaggedYaml.Error
import TaggedYaml.Scalar.Write

/-!
# Writing a tree

Block collections only: the members of a collection under a key stand four columns further in, those
of a collection in a sequence begin on the line of their `-`.  Empty collections are `[]` and a pair
of braces.  Anchors, aliases and tags other than core tags are written back.
-/

namespace TaggedYaml

/-- Where a value is written. -/
inductive Position where
  /-- The value of the document. -/
  | top
  /-- Behind a key. -/
  | mapValue
  /-- Behind a `-`. -/
  | seqItem
deriving DecidableEq, Repr

/-- How much further in the members of a collection stand. -/
def indentStep : Nat := 4

def pad (n : Nat) : List Char := List.replicate n ' '

/-- What stands between an indicator and the value behind it. -/
def Position.gap (p : Position) : List Char := if p == .top then [] else [' ']

/-- The members of a list in pairs; the last may stand alone. -/
def inPairs {α : Type} : List α → List (α × Option α)
  | [] => []
  | [k] => [(k, none)]
  | k :: v :: rest => (k, some v) :: inPairs rest

/-- Texts with an indentation before each; the first may stand on a line that has begun. -/
def padded (indent : Nat) : Bool → List (List Char) → List Char
  | _, [] => []
  | onLine, x :: rest => (if onLine then [] else pad indent) ++ (x ++ padded indent false rest)

/-- The lines of a literal block; empty lines are not indented. -/
def blockLines (indent : Nat) (body : List Char) : List Char :=
  (splitLines body).flatMap fun line =>
    (if line.isEmpty then [] else pad indent ++ line) ++ ['\n']

/-- A line behind an indicator; if it is empty there is no blank either. -/
def Position.line (p : Position) (text : List Char) : List Char :=
  (if text.isEmpty then [] else p.gap ++ text) ++ ['\n']

/-- The indentation of the members of a collection, whether the first of them stands on the line
that has begun, and what is written before. -/
def Position.open (p : Position) (indent : Nat) (properties : List Char) :
    Nat × Bool × List Char :=
  match p, properties.isEmpty with
  | .top, true => (0, false, [])
  | .top, false => (0, false, properties ++ ['\n'])
  | .mapValue, true => (indent + indentStep, false, ['\n'])
  | .mapValue, false => (indent + indentStep, false, ' ' :: properties ++ ['\n'])
  | .seqItem, true => (indent + 2, true, [' '])
  | .seqItem, false => (indent + 2, false, ' ' :: properties ++ ['\n'])

namespace Tree

/-- A node that must be in the tree. -/
def node (t : Tree) (id : NodeId) : Except Error Node :=
  match t.get? id with
  | some n => .ok n
  | none => .error (.foreignNode id)

/-- The node that an alias stands for. -/
def aliased (t : Tree) (id : NodeId) (name : String) : Except Error NodeId :=
  match t.resolve? id with
  | some r => .ok r
  | none => .error (.unresolvedAlias name)

/-- The text of a key: that of the node an alias stands for, or its own. -/
def keyText (t : Tree) (id : NodeId) : Except Error String := do
  let n ← t.node id
  if n.kind == .alias then return (← t.node (← t.aliased id n.value)).value
  return n.value

/-- A key without its colon. -/
def writeKey (t : Tree) (id : NodeId) : Except Error (List Char) := do
  let n ← t.node id
  match n.kind with
  | .alias =>
    let _ ← t.aliased id n.value
    return '*' :: n.value.toList ++ [' ']
  | .scalar =>
    let text := n.inlineText
    return joinProperties n.properties (if text.isEmpty then writeString n.value.toList else text)
  | _ => return writeString (← t.keyText id).toList

/-- A value behind its indicator, up to the end of its last line; `room` is how many more
collections may be opened. -/
def writeValue (t : Tree) (maxDepth : Nat) :
    Nat → NodeId → Nat → Position → Except Error (List Char)
  | room, id, indent, position => do
    let n ← t.node id
    match n.kind with
    | .document => throw .nestedDocument
    | .alias =>
      let _ ← t.aliased id n.value
      return position.gap ++ '*' :: n.value.toList ++ ['\n']
    | .scalar =>
      match n.literalBlock? with
      | some (header, body) =>
        return position.gap ++ joinProperties n.properties header ++
          '\n' :: blockLines (indent + indentStep) body
      | none => return position.line (joinProperties n.properties n.inlineText)
    | .mapping =>
      match room with
      | 0 => throw (.depthExceeded maxDepth)
      | room + 1 =>
        if n.children.isEmpty then
          return position.gap ++ joinProperties n.properties ['\x7b', '\x7d'] ++ ['\n']
        let (indent, onLine, head) := position.open indent n.properties
        let entries ← (inPairs n.children.toList).mapM fun (k, v) => do
          let key ← t.writeKey k
          let value ←
            match v with
            | some v => writeValue t maxDepth room v indent .mapValue
            | none => pure ['\n']
          return key ++ ':' :: value
        return head ++ padded indent onLine entries
    | .sequence =>
      match room with
      | 0 => throw (.depthExceeded maxDepth)
      | room + 1 =>
        if n.children.isEmpty then
          return position.gap ++ joinProperties n.properties ['[', ']'] ++ ['\n']
        let (indent, onLine, head) := position.open indent n.properties
        let items ← n.children.toList.mapM fun c => do
          return '-' :: (← writeValue t maxDepth room c indent .seqItem)
        return head ++ padded indent onLine items

/-- Writes a tree; a document without a value is empty text. -/
def write (t : Tree) (maxDepth : Nat) : Except Error String :=
  match t.rootValue? with
  | none => .ok ""
  | some v => do return String.ofList (← t.writeValue maxDepth maxDepth v 0 .top)

end Tree

end TaggedYaml
