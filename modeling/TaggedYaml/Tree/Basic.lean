import TaggedYaml.Token.Basic

/-!
# Tree — a document as numbered nodes

A tree is an array of nodes; a node names its children and the target of an alias by their numbers.
Node 0 is the document itself, and its first child is the document's value.  A number may lead
outside the array, a child may be shared and an alias may lead anywhere: what reads a tree has to
say what it does then.
-/

namespace TaggedYaml

/-- The shapes of nodes. -/
inductive Kind where
  | document
  | mapping
  | sequence
  | scalar
  | alias
deriving DecidableEq, Repr

/-- The name of a shape. -/
def Kind.name : Kind → String
  | .document => "document"
  | .mapping => "mapping"
  | .sequence => "sequence"
  | .scalar => "scalar"
  | .alias => "alias"

/-- Mappings and sequences. -/
def Kind.isCollection (k : Kind) : Bool := k == .mapping || k == .sequence

/-- The number of a node. -/
abbrev NodeId := Nat

/-- A node of a document. -/
structure Node where
  kind : Kind
  /-- The tag as written, with `!!` for a core tag; empty if there is none. -/
  tag : String := ""
  /-- The text of a scalar, or the anchor name of an alias. -/
  value : String := ""
  anchor : Option String := none
  /-- The node that an alias stands for. -/
  target : Option NodeId := none
  /-- In order; those of a mapping are keys and values in turn. -/
  children : Array NodeId := #[]
  style : Style := .plain
  /-- Where the node is written.  Nothing depends on it. -/
  mark : Mark := .start
deriving DecidableEq, Repr

/-- Core tags begin with two exclamation marks. -/
def isCoreTag (tag : String) : Bool := ['!', '!'].isPrefixOf tag.toList

namespace Node

/-- A tag that is not empty and no core tag. -/
def hasOwnTag (n : Node) : Bool := n.tag != "" && !isCoreTag n.tag

/-- A scalar that is a string by its style or tag. -/
def isString (n : Node) : Bool := n.style.isQuoted || n.tag == "!!str"

end Node

/-- A document. -/
structure Tree where
  nodes : Array Node
  size_pos : 0 < nodes.size
deriving DecidableEq

namespace Tree

/-- The document without a value. -/
def empty : Tree := ⟨#[{ kind := .document }], by decide⟩

/-- The number of the document node. -/
def root : NodeId := 0

/-- The document node. -/
def rootNode (t : Tree) : Node :=
  have := t.size_pos
  t.nodes[0]

def size (t : Tree) : Nat := t.nodes.size

def get? (t : Tree) (id : NodeId) : Option Node := t.nodes[id]?

/-- The value of the document. -/
def rootValue? (t : Tree) : Option NodeId := t.rootNode.children[0]?

/-- The document has no value. -/
def isEmpty (t : Tree) : Bool := t.rootValue?.isNone

/-- Changes one node; a number outside the tree changes nothing. -/
def modify (t : Tree) (id : NodeId) (f : Node → Node) : Tree :=
  ⟨t.nodes.modify id f, by simpa using t.size_pos⟩

/-- Adds a node that is no child yet. -/
def alloc (t : Tree) (n : Node) : NodeId × Tree :=
  (t.size, ⟨t.nodes.push n, by simp⟩)

/-- Makes a node the last child of another, which must be in the tree. -/
def pushChild? (t : Tree) (parent child : NodeId) : Option Tree :=
  if parent < t.size then
    some (t.modify parent fun n => { n with children := n.children.push child })
  else none

/-- Adds a node as the last child of another. -/
def append (t : Tree) (parent : NodeId) (n : Node) : NodeId × Tree :=
  let (id, t) := t.alloc n
  (id, t.modify parent fun n => { n with children := n.children.push id })

/-- Adds a node as the last child of another, which must be in the tree. -/
def append? (t : Tree) (parent : NodeId) (n : Node) : Option (NodeId × Tree) :=
  if parent < t.size then some (t.append parent n) else none

/-- The first node with an anchor. -/
def findAnchor? (t : Tree) (name : String) : Option NodeId :=
  t.nodes.findIdx? (·.anchor == some name)

/-- Follows alias targets for at most `fuel` nodes. -/
def follow (t : Tree) : Nat → NodeId → Option NodeId
  | 0, _ => none
  | fuel + 1, id =>
    match t.get? id with
    | none => none
    | some n => if n.kind == .alias then n.target.bind (follow t fuel) else some id

/-- The node that an alias finally stands for; any other node stands for itself.  There is none if
a target is missing, outside the tree, or reached twice. -/
def resolve? (t : Tree) (id : NodeId) : Option NodeId := t.follow (t.size + 1) id

/-! ### Sizes and look-ups -/

@[simp] theorem size_modify (t : Tree) (id : NodeId) (f : Node → Node) :
    (t.modify id f).size = t.size := by
  simp [modify, size]

@[simp] theorem get?_modify_self (t : Tree) (id : NodeId) (f : Node → Node) :
    (t.modify id f).get? id = (t.get? id).map f := by
  simp [modify, get?, Array.getElem?_modify]

theorem get?_modify_of_ne (t : Tree) {id other : NodeId} (h : id ≠ other) (f : Node → Node) :
    (t.modify id f).get? other = t.get? other := by
  simp [modify, get?, Array.getElem?_modify, h]

@[simp] theorem get?_eq_none_iff {t : Tree} {id : NodeId} : t.get? id = none ↔ t.size ≤ id := by
  simp [get?, size]

@[simp] theorem size_alloc (t : Tree) (n : Node) : (t.alloc n).2.size = t.size + 1 := by
  simp [alloc, size]

theorem get?_alloc_new (t : Tree) (n : Node) : (t.alloc n).2.get? (t.alloc n).1 = some n := by
  simp [alloc, get?, size]

theorem get?_alloc_old {t : Tree} {id : NodeId} (h : id < t.size) (n : Node) :
    (t.alloc n).2.get? id = t.get? id := by
  simp [size] at h
  simp [alloc, get?, Array.getElem?_push, Nat.ne_of_lt h]

end Tree

end TaggedYaml
