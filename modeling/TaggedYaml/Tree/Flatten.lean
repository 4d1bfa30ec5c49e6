import TaggedYaml.Error
import TaggedYaml.Tree.Basic

/-!
# Flattening tagged nodes

A node with an extension tag becomes a string that spells out the tag and its arguments: the tag,
the node's own text and, between brackets, the texts of its children.  The nodes are visited in
document order, each once, so a node is flattened before its children are.
-/

namespace TaggedYaml

namespace Node

/-- A flattened node's text. -/
def spelledOut (n : Node) (arguments : List String) : String :=
  let head := if n.value == "" then n.tag else n.tag ++ " " ++ n.value
  if arguments.isEmpty then head
  else head ++ " [" ++ String.intercalate ", " arguments ++ "]"

/-- A node as a string that spells it out.  It keeps its children. -/
def flatten (n : Node) (arguments : List String) : Node :=
  { n with kind := .scalar, value := n.spelledOut arguments, tag := "!!str", style := .single }

end Node

namespace Tree

/-- The number of places at which a node is named as a child. -/
def edgeCount (t : Tree) : Nat := t.nodes.toList.foldr (fun n k => n.children.size + k) 0

/-- Rounds of `preorder`, each over one number on the stack. -/
def preorderLoop (t : Tree) : Nat → List NodeId → Array Bool → List NodeId → List NodeId
  | 0, _, _, out => out.reverse
  | _, [], _, out => out.reverse
  | fuel + 1, id :: stack, seen, out =>
    if seen[id]? == some true then preorderLoop t fuel stack seen out
    else
      let children := ((t.get? id).map (·.children.toList)).getD []
      preorderLoop t fuel (children ++ stack) (seen.setIfInBounds id true) (id :: out)

/-- The nodes below the document in document order, each at its first place.  Numbers outside the
tree are listed too. -/
def preorder (t : Tree) : List NodeId :=
  t.preorderLoop (t.edgeCount + 1) [root] (Array.replicate t.size false) []

/-- A tree in which tagged nodes were flattened. -/
structure Flattened where
  tree : Tree
  /-- How many nodes were flattened. -/
  count : Nat
  /-- A number outside the tree, at which the walk ended. -/
  foreign : Option NodeId

/-- Flattens those nodes of a list whose tags are extension tags. -/
def flattenList (isExtension : String → Bool) : List NodeId → Tree → Nat → Flattened
  | [], t, count => ⟨t, count, none⟩
  | id :: rest, t, count =>
    match t.get? id with
    | none => ⟨t, count, some id⟩
    | some n =>
      if isExtension n.tag then
        match n.children.toList.find? fun c => (t.get? c).isNone with
        | some c => ⟨t, count, some c⟩
        | none =>
          let arguments := n.children.toList.filterMap fun c => (t.get? c).map (·.value)
          flattenList isExtension rest (t.modify id (·.flatten arguments)) (count + 1)
      else flattenList isExtension rest t count

/-- Flattens every node of the document whose tag is an extension tag. -/
def flatten (t : Tree) (isExtension : String → Bool) : Flattened :=
  flattenList isExtension t.preorder t 0

end Tree

end TaggedYaml
