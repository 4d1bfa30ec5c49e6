import TaggedYaml.Event.Read
import TaggedYaml.Proofs.Shape.Basic

/-!
# Events — what is said of a shape, and the words that spell it

A shape has events (`Shape.events`), in which anchors are numbered behind those already known, and
words that spell it (`Shape.Spells`), in blocks or between brackets.
-/

namespace TaggedYaml

/-! ### Anchors -/

/-- The anchors behind the name of a node, latest first. -/
def nameAnchor (known : List Anchor) : Option String → List Anchor
  | none => known
  | some name => ⟨known.length + 1, name⟩ :: known

/-- The anchor that the name of a node becomes. -/
def nextAnchor (known : List Anchor) (name : Option String) : Option Anchor :=
  name.map (⟨known.length + 1, ·⟩)

/-- The anchor that an alias leads to. -/
def aliasAnchor? (known : List Anchor) (name : String) : Option Anchor :=
  known.find? (·.name == name)

/-! ### Events of a shape -/

namespace Shape

/-- The anchors behind a key. -/
def keyAnchors (known : List Anchor) : Key → List Anchor
  | .scalar f => nameAnchor known f.anchor
  | .alias _ _ => known
  | .other _ => known

mutual

/-- The anchors behind a shape. -/
def anchors (known : List Anchor) : Shape → List Anchor
  | .scalar f => nameAnchor known f.anchor
  | .alias _ => known
  | .sequence f items => anchorsItems (nameAnchor known f.anchor) items
  | .mapping f entries => anchorsEntries (nameAnchor known f.anchor) entries

def anchorsItems (known : List Anchor) : List Shape → List Anchor
  | [] => known
  | s :: rest => anchorsItems (anchors known s) rest

def anchorsEntries (known : List Anchor) : List (Key × Shape) → List Anchor
  | [] => known
  | (k, s) :: rest => anchorsEntries (anchors (keyAnchors known k) s) rest

end

theorem anchors_empty (known : List Anchor) : empty.anchors known = known := rfl

/-- What is said of a scalar. -/
def scalarEvent (known : List Anchor) (f : Face) : Event :=
  .scalar f.style f.text f.tag (nextAnchor known f.anchor)

/-- What is said of an alias. -/
def aliasEvent (known : List Anchor) (name : String) : Event :=
  .alias ((aliasAnchor? known name).getD ⟨0, name⟩)

/-- What is said of a key; a collection counts as a plain scalar. -/
def keyEvent (known : List Anchor) : Key → Event
  | .scalar f => scalarEvent known f
  | .alias name _ => aliasEvent known name
  | .other text => scalarEvent known { text }

mutual

/-- What is said of a shape behind some anchors. -/
def events (known : List Anchor) : Shape → List Event
  | .scalar f => [scalarEvent known f]
  | .alias name => [aliasEvent known name]
  | .sequence f items => .openSequence f.tag (nextAnchor known f.anchor) ::
      (eventsItems (nameAnchor known f.anchor) items ++ [.closeSequence])
  | .mapping f entries => .openMapping f.tag (nextAnchor known f.anchor) ::
      (eventsEntries (nameAnchor known f.anchor) entries ++ [.closeMapping])

def eventsItems (known : List Anchor) : List Shape → List Event
  | [] => []
  | s :: rest => events known s ++ eventsItems (anchors known s) rest

def eventsEntries (known : List Anchor) : List (Key × Shape) → List Event
  | [] => []
  | (k, s) :: rest => keyEvent known k :: (events (keyAnchors known k) s ++
      eventsEntries (anchors (keyAnchors known k) s) rest)

end

end Shape

/-! ### Words of a shape -/

/-- The word of a tag. -/
def tagWords (tag : String) : List Token :=
  if tag = "" then []
  else if tag = "!" then [.tag "" "!"]
  else [.tag "!" (String.ofList (tag.toList.drop 1))]

/-- A tag that its word stands for. -/
def IsSpelledTag (tag : String) : Prop := tag = "" ∨ tag.toList.head? = some '!'

namespace Face

/-- The words before the content of a node. -/
def properties (f : Face) : List Token := f.anchor.toList.map .anchor ++ tagWords f.tag

/-- A scalar of which at most an anchor and a tag are written. -/
def IsBare (f : Face) : Prop := f.style = .plain ∧ f.text = ""

end Face

/-- The words of members, with commas between them. -/
def commas : List (List Token) → List Token
  | [] => []
  | w :: rest => w ++ rest.flatMap (.flowEntry :: ·)

namespace Shape

/-- Words that spell a scalar. -/
inductive SpellsScalar (f : Face) : List Token → Prop where
  | written : IsSpelledTag f.tag → SpellsScalar f (f.properties ++ [.scalar f.style f.text])
  | bare : IsSpelledTag f.tag → f.IsBare → f.properties ≠ [] → SpellsScalar f f.properties

/-- Words that spell a key. -/
inductive SpellsKey (known : List Anchor) : Key → List Token → Prop where
  | scalar {f : Face} {w : List Token} : SpellsScalar f w → SpellsKey known (.scalar f) w
  | alias {name text : String} : (aliasAnchor? known name).isSome →
    SpellsKey known (.alias name text) [.alias name]

mutual

/-- Words that spell a shape behind some anchors; blocks only where they may stand. -/
inductive Spells : Bool → List Anchor → Shape → List Token → Prop where
  | scalar {inBlock : Bool} {known : List Anchor} {f : Face} {w : List Token} : SpellsScalar f w →
    Spells inBlock known (.scalar f) w
  | alias {inBlock : Bool} {known : List Anchor} {name : String} :
    (aliasAnchor? known name).isSome → Spells inBlock known (.alias name) [.alias name]
  | flowSequence {inBlock : Bool} {known : List Anchor} {f : Face} {items : List Shape}
    {ws : List (List Token)} : IsSpelledTag f.tag →
    SpellsFlowItems (nameAnchor known f.anchor) items ws →
    Spells inBlock known (.sequence f items)
      (f.properties ++ .flowSequenceStart :: (commas ws ++ [.flowSequenceEnd]))
  | flowMapping {inBlock : Bool} {known : List Anchor} {f : Face} {entries : List (Key × Shape)}
    {ws : List (List Token)} : IsSpelledTag f.tag →
    SpellsFlowEntries (nameAnchor known f.anchor) entries ws →
    Spells inBlock known (.mapping f entries)
      (f.properties ++ .flowMappingStart :: (commas ws ++ [.flowMappingEnd]))
  | blockSequence {known : List Anchor} {f : Face} {items : List Shape} {w : List Token} :
    IsSpelledTag f.tag → SpellsItems (nameAnchor known f.anchor) items w →
    Spells true known (.sequence f items)
      (f.properties ++ .blockSequenceStart :: (w ++ [.blockEnd]))
  | blockMapping {known : List Anchor} {f : Face} {entries : List (Key × Shape)}
    {w : List Token} : IsSpelledTag f.tag → SpellsEntries (nameAnchor known f.anchor) entries w →
    Spells true known (.mapping f entries)
      (f.properties ++ .blockMappingStart :: (w ++ [.blockEnd]))

inductive SpellsFlowItems : List Anchor → List Shape → List (List Token) → Prop where
  | nil {known : List Anchor} : SpellsFlowItems known [] []
  | cons {known : List Anchor} {s : Shape} {rest : List Shape} {w : List Token}
    {ws : List (List Token)} : Spells false known s w → SpellsFlowItems (anchors known s) rest ws →
    SpellsFlowItems known (s :: rest) (w :: ws)

inductive SpellsFlowEntries : List Anchor → List (Key × Shape) → List (List Token) → Prop where
  | nil {known : List Anchor} : SpellsFlowEntries known [] []
  | cons {known : List Anchor} {k : Key} {s : Shape} {rest : List (Key × Shape)}
    {u w : List Token} {ws : List (List Token)} : SpellsKey known k u →
    Spells false (keyAnchors known k) s w →
    SpellsFlowEntries (anchors (keyAnchors known k) s) rest ws →
    SpellsFlowEntries known ((k, s) :: rest) ((.key :: (u ++ .value :: w)) :: ws)

inductive SpellsItems : List Anchor → List Shape → List Token → Prop where
  | nil {known : List Anchor} : SpellsItems known [] []
  | empty {known : List Anchor} {rest : List Shape} {ws : List Token} : SpellsItems known rest ws →
    SpellsItems known (.empty :: rest) (.blockEntry :: ws)
  | cons {known : List Anchor} {s : Shape} {rest : List Shape} {w ws : List Token} :
    Spells true known s w → SpellsItems (anchors known s) rest ws →
    SpellsItems known (s :: rest) (.blockEntry :: (w ++ ws))

inductive SpellsEntries : List Anchor → List (Key × Shape) → List Token → Prop where
  | nil {known : List Anchor} : SpellsEntries known [] []
  | empty {known : List Anchor} {k : Key} {rest : List (Key × Shape)} {u ws : List Token} :
    SpellsKey known k u → SpellsEntries (keyAnchors known k) rest ws →
    SpellsEntries known ((k, .empty) :: rest) (.key :: (u ++ .value :: ws))
  | cons {known : List Anchor} {k : Key} {s : Shape} {rest : List (Key × Shape)}
    {u w ws : List Token} : SpellsKey known k u → Spells true (keyAnchors known k) s w →
    SpellsEntries (anchors (keyAnchors known k) s) rest ws →
    SpellsEntries known ((k, s) :: rest) (.key :: (u ++ .value :: (w ++ ws)))

end

end Shape

end TaggedYaml
