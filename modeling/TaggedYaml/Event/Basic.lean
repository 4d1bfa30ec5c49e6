import TaggedYaml.Token.Basic

/-!
# Event — a document as a walk over its nodes

A scalar and an alias are one event each; a collection is the events of its members between an
opening and a closing one.  `IsNode` is the grammar of such lists.  Events are delivered with the
numbers of anchors (`EventOf Nat`) and get the names from the words of the text.
-/

namespace TaggedYaml

/-- A name given to a node.  Anchors are numbered from 1 in the order in which they are written, so
that two anchors of one name stay apart. -/
structure Anchor where
  number : Nat
  name : String
deriving DecidableEq, Repr

/-- A step of the walk; `α` is what is known of an anchor. -/
inductive EventOf (α : Type) where
  | scalar (style : Style) (text : String) (tag : String) (anchor : Option α)
  | alias (target : α)
  | openSequence (tag : String) (anchor : Option α)
  | closeSequence
  | openMapping (tag : String) (anchor : Option α)
  | closeMapping
deriving DecidableEq, Repr

/-- A step of which the anchors are known by number and name. -/
abbrev Event := EventOf Anchor

/-- The step with something else known of anchors. -/
def EventOf.map {α β : Type} (f : α → β) : EventOf α → EventOf β
  | scalar style text tag anchor => .scalar style text tag (anchor.map f)
  | .alias target => .alias (f target)
  | openSequence tag anchor => .openSequence tag (anchor.map f)
  | closeSequence => .closeSequence
  | openMapping tag anchor => .openMapping tag (anchor.map f)
  | closeMapping => .closeMapping

namespace Event

mutual

/-- The events of one node. -/
inductive IsNode : List Event → Prop where
  | scalar (style : Style) (text tag : String) (anchor : Option Anchor) :
    IsNode [.scalar style text tag anchor]
  | alias (target : Anchor) : IsNode [.alias target]
  | sequence (tag : String) (anchor : Option Anchor) {items : List Event} :
    IsItems items → IsNode (.openSequence tag anchor :: (items ++ [.closeSequence]))
  | mapping (tag : String) (anchor : Option Anchor) {entries : List Event} :
    IsEntries entries → IsNode (.openMapping tag anchor :: (entries ++ [.closeMapping]))

/-- The events of nodes one after another. -/
inductive IsItems : List Event → Prop where
  | nil : IsItems []
  | cons {node rest : List Event} : IsNode node → IsItems rest → IsItems (node ++ rest)

/-- The events of pairs of nodes. -/
inductive IsEntries : List Event → Prop where
  | nil : IsEntries []
  | cons {key value rest : List Event} :
    IsNode key → IsNode value → IsEntries rest → IsEntries (key ++ value ++ rest)

end

/-- How far a list of events nests collections below `depth` of them. -/
def nesting : Nat → List Event → Nat
  | _, [] => 0
  | depth, .openSequence _ _ :: rest | depth, .openMapping _ _ :: rest =>
    max (depth + 1) (nesting (depth + 1) rest)
  | depth, .closeSequence :: rest | depth, .closeMapping :: rest => nesting (depth - 1) rest
  | depth, _ :: rest => nesting depth rest

end Event

end TaggedYaml
