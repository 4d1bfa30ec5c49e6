import TaggedYaml.Proofs.Shape.Build
import TaggedYaml.Proofs.Shape.Face

/-!
# Reread — a shape as it is read back

What is read back of a shape (`Shape.reread`) has the styles that were chosen in writing, and scalars as
keys; it is written in the same way again.  It can be read back if its labels can and no alias comes
before its anchor (`Shape.Legible`).
-/

namespace TaggedYaml

/-! ### Keys -/

/-- A key that is no alias, has no anchor and no tag, and is short enough to be found. -/
def Key.Unadorned (k : Key) : Prop :=
  k.written.length ≤ 1024 ∧ match k with
    | .scalar f => f.Unadorned
    | .alias _ _ => False
    | .other _ => True

/-- A key that reads back behind some anchors: its labels do, and it is short enough to be found. -/
def Key.Legible (known : List Anchor) (k : Key) : Prop :=
  k.written.length ≤ 1024 ∧ match k with
    | .scalar f => f.Legible
    | .alias name _ => IsName name.toList ∧ (aliasAnchor? known name).isSome
    | .other _ => True

/-- What is read back of a key. -/
def Key.reread : Key → Key
  | .scalar f => .scalar f.rereadKey
  | .alias name text => .alias name text
  | .other text => .scalar (Face.plainly text (stringStyle text.toList))

namespace Key

variable {k : Key} {known : List Anchor}

theorem Unadorned.legible (h : k.Unadorned) : k.Legible known := by
  cases k with
  | scalar f => exact ⟨h.1, Face.Unadorned.legible h.2⟩
  | «alias» name text => exact h.2.elim
  | other text => exact ⟨h.1, trivial⟩

theorem text_reread (k : Key) : k.reread.text = k.text := by
  cases k <;> rfl

theorem written_reread (k : Key) : k.reread.written = k.written := by
  cases k with
  | scalar f => exact Face.writtenKey_rereadKey f
  | «alias» name text => rfl
  | other text => exact Face.writtenKey_stringStyle text

theorem keyAnchors_reread (known : List Anchor) (k : Key) :
    Shape.keyAnchors known k.reread = Shape.keyAnchors known k := by
  cases k <;> rfl

theorem buildable_reread (h : k.Legible known) : Shape.BuildableKey known k.reread := by
  cases k with
  | scalar f => trivial
  | «alias» name text => exact h.2.2
  | other text => trivial

/-- A key is written as words that spell it. -/
theorem exists_words (h : k.Legible known) :
    ∃ us, Progress.KeyText k.written us ∧ Shape.SpellsKey known k.reread us := by
  cases k with
  | scalar f =>
    exact ⟨_, Face.keyText_writtenKey h.2, .scalar (.written (Face.isSpelledTag_writtenTag h.2))⟩
  | «alias» name text =>
    have hkey := Progress.KeyText.alias h.2.1
    rw [String.ofList_toList] at hkey
    exact ⟨_, hkey, .alias h.2.2⟩
  | other text =>
    have hkey := Progress.KeyText.scalar (inline_writeString text.toList)
    rw [String.ofList_toList] at hkey
    exact ⟨_, hkey, .scalar (.written (f := Face.plainly text _) (.inl rfl))⟩

end Key

/-! ### Shapes -/

namespace Shape

mutual

/-- No alias, anchor or tag is written in a shape, and no long key. -/
def Unadorned : Shape → Prop
  | .scalar f => f.Unadorned
  | .alias _ => False
  | .sequence f items => f.Unadorned ∧ UnadornedItems items
  | .mapping f entries => f.Unadorned ∧ UnadornedEntries entries

def UnadornedItems : List Shape → Prop
  | [] => True
  | s :: rest => Unadorned s ∧ UnadornedItems rest

def UnadornedEntries : List (Key × Shape) → Prop
  | [] => True
  | (k, s) :: rest => k.Unadorned ∧ Unadorned s ∧ UnadornedEntries rest

end

mutual

/-- A shape that reads back behind some anchors. -/
def Legible (known : List Anchor) : Shape → Prop
  | .scalar f => f.Legible
  | .alias name => IsName name.toList ∧ (aliasAnchor? known name).isSome
  | .sequence f items => f.Legible ∧ LegibleItems (nameAnchor known f.anchor) items
  | .mapping f entries => f.Legible ∧ LegibleEntries (nameAnchor known f.anchor) entries

def LegibleItems (known : List Anchor) : List Shape → Prop
  | [] => True
  | s :: rest => Legible known s ∧ LegibleItems (anchors known s) rest

def LegibleEntries (known : List Anchor) : List (Key × Shape) → Prop
  | [] => True
  | (k, s) :: rest => k.Legible known ∧ Legible (keyAnchors known k) s ∧
      LegibleEntries (anchors (keyAnchors known k) s) rest

end

mutual

theorem Unadorned.legible : ∀ {s : Shape} {known : List Anchor}, s.Unadorned → s.Legible known
  | .scalar _, _, h => Face.Unadorned.legible h
  | .alias _, _, h => h.elim
  | .sequence _ _, _, h => ⟨h.1.legible, legibleItems_of_unadorned h.2⟩
  | .mapping _ _, _, h => ⟨h.1.legible, legibleEntries_of_unadorned h.2⟩

theorem legibleItems_of_unadorned : ∀ {items : List Shape} {known : List Anchor},
    UnadornedItems items → LegibleItems known items
  | [], _, _ => trivial
  | _ :: _, _, h => ⟨h.1.legible, legibleItems_of_unadorned h.2⟩

theorem legibleEntries_of_unadorned : ∀ {entries : List (Key × Shape)} {known : List Anchor},
    UnadornedEntries entries → LegibleEntries known entries
  | [], _, _ => trivial
  | (_, _) :: _, _, h => ⟨h.1.legible, h.2.1.legible, legibleEntries_of_unadorned h.2.2⟩

end

mutual

/-- What is read back of a shape. -/
def reread : Shape → Shape
  | .scalar f => .scalar f.reread
  | .alias name => .alias name
  | .sequence f items => .sequence f.head (rereadItems items)
  | .mapping f entries => .mapping f.head (rereadEntries entries)

def rereadItems : List Shape → List Shape
  | [] => []
  | s :: rest => reread s :: rereadItems rest

def rereadEntries : List (Key × Shape) → List (Key × Shape)
  | [] => []
  | (k, s) :: rest => (k.reread, reread s) :: rereadEntries rest

end

mutual

theorem height_reread : ∀ s : Shape, s.reread.height = s.height
  | .scalar _ => rfl
  | .alias _ => rfl
  | .sequence _ items => congrArg (· + 1) (heightItems_reread items)
  | .mapping _ entries => congrArg (· + 1) (heightEntries_reread entries)

theorem heightItems_reread : ∀ items : List Shape,
    heightItems (rereadItems items) = heightItems items
  | [] => rfl
  | s :: rest => congrArg₂ max (height_reread s) (heightItems_reread rest)

theorem heightEntries_reread : ∀ entries : List (Key × Shape),
    heightEntries (rereadEntries entries) = heightEntries entries
  | [] => rfl
  | (_, s) :: rest => congrArg₂ max (height_reread s) (heightEntries_reread rest)

end

mutual

theorem value_reread : ∀ s : Shape, s.reread.value = s.value
  | .scalar _ => rfl
  | .alias _ => rfl
  | .sequence _ items => congrArg Value.list (valueItems_reread items)
  | .mapping _ entries => congrArg Value.map (valueEntries_reread [] entries)

theorem valueItems_reread : ∀ items : List Shape, valueItems (rereadItems items) = valueItems items
  | [] => rfl
  | s :: rest => congrArg₂ List.cons (value_reread s) (valueItems_reread rest)

theorem valueEntries_reread : ∀ (into : List (String × Value)) (entries : List (Key × Shape)),
    valueEntries into (rereadEntries entries) = valueEntries into entries
  | _, [] => rfl
  | into, (k, s) :: rest => by
    rw [rereadEntries, valueEntries, valueEntries, k.text_reread, value_reread s]
    exact valueEntries_reread _ rest

end

mutual

theorem readable_reread : ∀ {s : Shape}, s.Unadorned → s.reread.Readable
  | .scalar _, _ => trivial
  | .alias _, h => h
  | .sequence _ _, h => ⟨⟨rfl, rfl⟩, readableItems_reread h.2⟩
  | .mapping _ _, h => ⟨⟨rfl, rfl⟩, readableEntries_reread h.2⟩

theorem readableItems_reread : ∀ {items : List Shape}, UnadornedItems items →
    ReadableItems (rereadItems items)
  | [], _ => trivial
  | _ :: _, h => ⟨readable_reread h.1, readableItems_reread h.2⟩

theorem readableEntries_reread : ∀ {entries : List (Key × Shape)}, UnadornedEntries entries →
    ReadableEntries (rereadEntries entries)
  | [], _ => trivial
  | (k, _) :: _, h => ⟨by
      cases k with
      | scalar f => exact ⟨_, rfl⟩
      | «alias» name text => exact h.1.2.elim
      | other text => exact ⟨_, rfl⟩,
    readable_reread h.2.1, readableEntries_reread h.2.2⟩

end

mutual

theorem written_reread : ∀ (s : Shape) (indent : Nat) (position : Position),
    s.reread.written indent position = s.written indent position
  | .scalar f, indent, position => Face.written_reread f indent position
  | .alias _, _, _ => rfl
  | .sequence f items, indent, position => by
    have he : (rereadItems items).isEmpty = items.isEmpty := by cases items <;> rfl
    rw [reread, written, written, he, Face.properties_eq f]
    simp only [writtenItems_reread items]
  | .mapping f entries, indent, position => by
    have he : (rereadEntries entries).isEmpty = entries.isEmpty := by
      cases entries with
      | nil => rfl
      | cons e rest => rfl
    rw [reread, written, written, he, Face.properties_eq f]
    simp only [writtenEntries_reread entries]

theorem writtenItems_reread : ∀ (items : List Shape) (indent : Nat),
    writtenItems indent (rereadItems items) = writtenItems indent items
  | [], _ => rfl
  | s :: rest, indent => by
    rw [rereadItems, writtenItems, writtenItems, written_reread s, writtenItems_reread rest]

theorem writtenEntries_reread : ∀ (entries : List (Key × Shape)) (indent : Nat),
    writtenEntries indent (rereadEntries entries) = writtenEntries indent entries
  | [], _ => rfl
  | (k, s) :: rest, indent => by
    rw [rereadEntries, writtenEntries, writtenEntries, k.written_reread, written_reread s,
      writtenEntries_reread rest]

end

end Shape

end TaggedYaml
