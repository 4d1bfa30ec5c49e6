import TaggedYaml.Error
import TaggedYaml.Event.Read

/-!
# Building a tree from events

Nodes are numbered in the order of the events, so a parent comes before its children.  Collections
may not nest deeper than a ceiling.
-/

namespace TaggedYaml

/-- A tree to which nodes are being added. -/
structure Builder where
  tree : Tree
  /-- The open collections, innermost first. -/
  stack : List NodeId
  /-- The nodes with anchors by the numbers of these, latest first. -/
  bound : List (Nat × NodeId)

namespace Builder

/-- Adds a node to the innermost open collection and binds its anchor. -/
def attach (b : Builder) (n : Node) (anchor : Option Anchor) : Except Error (NodeId × Builder) :=
  let parent := b.stack.headD Tree.root
  match b.tree.append? parent { n with anchor := anchor.map (·.name) } with
  | none => .error (.foreignNode parent)
  | some (id, tree) =>
    let bound :=
      match anchor with
      | none => b.bound
      | some a => (a.number, id) :: b.bound
    .ok (id, { b with tree, bound })

/-- Adds a collection and opens it. -/
def openNode (b : Builder) (maxDepth : Nat) (n : Node) (anchor : Option Anchor) :
    Except Error Builder :=
  if b.stack.length ≥ maxDepth then .error (.depthExceeded maxDepth)
  else do
    let (id, b) ← b.attach n anchor
    return { b with stack := id :: b.stack }

/-- Closes the innermost collection, which must be of a kind. -/
def closeNode (b : Builder) (kind : Kind) : Except Error Builder :=
  match b.stack with
  | id :: stack =>
    if (b.tree.get? id).any (·.kind == kind) then .ok { b with stack }
    else .error (.unbalanced kind)
  | [] => .error (.unbalanced kind)

/-- Adds what an event says. -/
def step (maxDepth : Nat) (b : Builder) (e : Marked Event) : Except Error Builder :=
  let mark := e.mark
  match e.item with
  | .scalar style value tag anchor => do
    return (← b.attach { kind := .scalar, value, tag, style, mark } anchor).2
  | .openSequence tag anchor => b.openNode maxDepth { kind := .sequence, tag, mark } anchor
  | .closeSequence => b.closeNode .sequence
  | .openMapping tag anchor => b.openNode maxDepth { kind := .mapping, tag, mark } anchor
  | .closeMapping => b.closeNode .mapping
  | .alias a =>
    match b.bound.lookup a.number with
    | none => .error (.unresolvedAlias a.name)
    | some target => do
      return (← b.attach { kind := .alias, value := a.name, target := some target, mark } none).2

end Builder

namespace Tree

/-- The tree of a list of events. -/
def ofEvents (maxDepth : Nat) (events : List (Marked Event)) : Except Error Tree := do
  return (← events.foldlM (Builder.step maxDepth) ⟨.empty, [], []⟩).tree

/-- The ceiling on nesting, where none is given. -/
def defaultMaxDepth : Nat := 128

/-- Reads the first document of a text.  A fault of the text comes before one of its depth, and too
many open brackets are one of depth. -/
def read (maxDepth : Nat) (text : String) : Except Error Tree :=
  match (scan text.toList).namedEvents with
  | .ok events => ofEvents maxDepth events
  | .error ⟨_, .flowTooDeep⟩ => .error (.depthExceeded maxDepth)
  | .error f => .error (.malformed f)

end Tree

end TaggedYaml
