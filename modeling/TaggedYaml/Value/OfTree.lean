import TaggedYaml.Tree.Write
import TaggedYaml.Value.Basic

/-!
# The value of a tree

Every scalar is its text, and an alias is what it stands for.  Of entries with one key the first
gives the place and the last the value.
-/

namespace TaggedYaml

/-- What a node is once aliases and the document are passed. -/
inductive Content where
  | text (s : String)
  | collection (n : Node)
  /-- The document without a value. -/
  | nothing

namespace Tree

/-- The content of a node.  An alias may lead to the document and its value may be an alias, but
what that one stands for is a scalar, a collection or the document again. -/
def content (t : Tree) : Nat → NodeId → Except Error Content
  | 0, _ => .error .endless
  | fuel + 1, id => do
    let n ← t.node id
    match n.kind with
    | .scalar => return .text n.value
    | .mapping | .sequence => return .collection n
    | .alias => content t fuel (← t.aliased id n.value)
    | .document =>
      if id != root then throw .nestedDocument
      match n.children[0]? with
      | some c => content t fuel c
      | none => return .nothing

/-- How often aliases and the document can be passed before they repeat. -/
def contentSteps : Nat := 4

/-- The value of a node; `room` is how many more collections may be opened. -/
def valueAt (t : Tree) (maxDepth : Nat) : Nat → NodeId → Except Error Value
  | room, id => do
    match ← t.content contentSteps id with
    | .text s => return .text s
    | .nothing => return .map []
    | .collection n =>
      match room with
      | 0 => throw (.depthExceeded maxDepth)
      | room + 1 =>
        if n.kind == .sequence then
          return .list (← n.children.toList.mapM fun c => valueAt t maxDepth room c)
        else
          let entries ← (inPairs n.children.toList).foldlM
            (fun entries (k, v) => do
              let value ←
                match v with
                | some v => valueAt t maxDepth room v
                | none => pure (.text "")
              return Value.put (← t.keyText k) value entries) []
          return .map entries

/-- The value of the node with a number. -/
def valueOf (t : Tree) (maxDepth : Nat) (id : NodeId) : Except Error Value :=
  t.valueAt maxDepth maxDepth id

/-- The value of the document; it is an empty map if there is none. -/
def value (t : Tree) (maxDepth : Nat) : Except Error Value := t.valueOf maxDepth root

end Tree

end TaggedYaml
