import TaggedYaml.Proofs.Shape.Reread

/-!
# Manner — shapes of which the scalars are written in some way

A shape is written around its scalars, however these are written (`Shape.writtenIn`), and read back around
what is read back of them (`Shape.rereadIn`).  The anchors stay what they are if those of the scalars do.
-/

namespace TaggedYaml

namespace Shape

section Written

variable (w : Face → Nat → Position → List Char)

mutual

/-- A shape of which the scalars are written in some way. -/
def writtenIn (indent : Nat) (position : Position) : Shape → List Char
  | .scalar f => w f indent position
  | .alias name => position.gap ++ '*' :: name.toList ++ ['\n']
  | .sequence f items =>
    if items.isEmpty then position.gap ++ joinProperties f.node.properties ['[', ']'] ++ ['\n']
    else
      let (indent, onLine, head) := position.open indent f.node.properties
      head ++ padded indent onLine (writtenItemsIn indent items)
  | .mapping f entries =>
    if entries.isEmpty then
      position.gap ++ joinProperties f.node.properties ['\x7b', '\x7d'] ++ ['\n']
    else
      let (indent, onLine, head) := position.open indent f.node.properties
      head ++ padded indent onLine (writtenEntriesIn indent entries)

def writtenItemsIn (indent : Nat) : List Shape → List (List Char)
  | [] => []
  | s :: rest => ('-' :: writtenIn indent .seqItem s) :: writtenItemsIn indent rest

def writtenEntriesIn (indent : Nat) : List (Key × Shape) → List (List Char)
  | [] => []
  | (k, s) :: rest =>
    (k.written ++ ':' :: writtenIn indent .mapValue s) :: writtenEntriesIn indent rest

end

end Written

section Reread

variable (g : Face → Shape)

mutual

/-- What is read back of a shape, where it is known what is read back of the scalars. -/
def rereadIn : Shape → Shape
  | .scalar f => g f
  | .alias name => .alias name
  | .sequence f items => .sequence f.head (rereadItemsIn items)
  | .mapping f entries => .mapping f.head (rereadEntriesIn entries)

def rereadItemsIn : List Shape → List Shape
  | [] => []
  | s :: rest => rereadIn s :: rereadItemsIn rest

def rereadEntriesIn : List (Key × Shape) → List (Key × Shape)
  | [] => []
  | (k, s) :: rest => (k.reread, rereadIn s) :: rereadEntriesIn rest

end

end Reread

/-! ### As a tree is written -/

mutual

theorem writtenIn_written : ∀ (s : Shape) (indent : Nat) (position : Position),
    s.writtenIn Face.written indent position = s.written indent position
  | .scalar _, _, _ => rfl
  | .alias _, _, _ => rfl
  | .sequence f items, indent, position => by
    rw [writtenIn, written]
    simp only [writtenItemsIn_written items]
  | .mapping f entries, indent, position => by
    rw [writtenIn, written]
    simp only [writtenEntriesIn_written entries]

theorem writtenItemsIn_written : ∀ (items : List Shape) (indent : Nat),
    writtenItemsIn Face.written indent items = writtenItems indent items
  | [], _ => rfl
  | s :: rest, indent => by
    rw [writtenItemsIn, writtenItems, writtenIn_written s, writtenItemsIn_written rest]

theorem writtenEntriesIn_written : ∀ (entries : List (Key × Shape)) (indent : Nat),
    writtenEntriesIn Face.written indent entries = writtenEntries indent entries
  | [], _ => rfl
  | (k, s) :: rest, indent => by
    rw [writtenEntriesIn, writtenEntries, writtenIn_written s, writtenEntriesIn_written rest]

end

mutual

theorem rereadIn_reread : ∀ s : Shape, s.rereadIn (fun f => .scalar f.reread) = s.reread
  | .scalar _ => rfl
  | .alias _ => rfl
  | .sequence f items => congrArg (Shape.sequence f.head) (rereadItemsIn_reread items)
  | .mapping f entries => congrArg (Shape.mapping f.head) (rereadEntriesIn_reread entries)

theorem rereadItemsIn_reread : ∀ items : List Shape,
    rereadItemsIn (fun f => .scalar f.reread) items = rereadItems items
  | [] => rfl
  | s :: rest => congrArg₂ List.cons (rereadIn_reread s) (rereadItemsIn_reread rest)

theorem rereadEntriesIn_reread : ∀ entries : List (Key × Shape),
    rereadEntriesIn (fun f => .scalar f.reread) entries = rereadEntries entries
  | [] => rfl
  | (k, s) :: rest =>
    congrArg₂ List.cons (congrArg (k.reread, ·) (rereadIn_reread s)) (rereadEntriesIn_reread rest)

end

/-! ### Anchors -/

section Anchors

variable {g : Face → Shape}

mutual

theorem anchors_rereadIn (hg : ∀ f known, (g f).anchors known = nameAnchor known f.anchor) :
    ∀ (known : List Anchor) (s : Shape), (s.rereadIn g).anchors known = s.anchors known
  | known, .scalar f => hg f known
  | _, .alias _ => rfl
  | known, .sequence f items => anchorsItems_rereadIn hg (nameAnchor known f.anchor) items
  | known, .mapping f entries => anchorsEntries_rereadIn hg (nameAnchor known f.anchor) entries

theorem anchorsItems_rereadIn (hg : ∀ f known, (g f).anchors known = nameAnchor known f.anchor) :
    ∀ (known : List Anchor) (items : List Shape),
      anchorsItems known (rereadItemsIn g items) = anchorsItems known items
  | _, [] => rfl
  | known, s :: rest => by
    rw [rereadItemsIn, anchorsItems, anchorsItems, anchors_rereadIn hg known s,
      anchorsItems_rereadIn hg _ rest]

theorem anchorsEntries_rereadIn (hg : ∀ f known, (g f).anchors known = nameAnchor known f.anchor) :
    ∀ (known : List Anchor) (entries : List (Key × Shape)),
      anchorsEntries known (rereadEntriesIn g entries) = anchorsEntries known entries
  | _, [] => rfl
  | known, (k, s) :: rest => by
    rw [rereadEntriesIn, anchorsEntries, anchorsEntries, Key.keyAnchors_reread,
      anchors_rereadIn hg _ s, anchorsEntries_rereadIn hg _ rest]

end

mutual

/-- What is read back of a shape can be built, if what is read back of its scalars can. -/
theorem buildable_rereadIn (hg : ∀ f known, (g f).anchors known = nameAnchor known f.anchor)
    (hbuild : ∀ f known, (g f).Buildable known) : ∀ {s : Shape} {known : List Anchor},
      s.Legible known → (s.rereadIn g).Buildable known
  | .scalar f, known, _ => hbuild f known
  | .alias _, _, h => h.2
  | .sequence _ _, _, h => ⟨⟨rfl, rfl⟩, buildableItems_rereadIn hg hbuild h.2⟩
  | .mapping _ _, _, h => ⟨⟨rfl, rfl⟩, buildableEntries_rereadIn hg hbuild h.2⟩

theorem buildableItems_rereadIn (hg : ∀ f known, (g f).anchors known = nameAnchor known f.anchor)
    (hbuild : ∀ f known, (g f).Buildable known) : ∀ {items : List Shape} {known : List Anchor},
      LegibleItems known items → BuildableItems known (rereadItemsIn g items)
  | [], _, _ => trivial
  | s :: _, known, h => by
    refine ⟨buildable_rereadIn hg hbuild h.1, ?_⟩
    rw [anchors_rereadIn hg known s]
    exact buildableItems_rereadIn hg hbuild h.2

theorem buildableEntries_rereadIn
    (hg : ∀ f known, (g f).anchors known = nameAnchor known f.anchor)
    (hbuild : ∀ f known, (g f).Buildable known) :
    ∀ {entries : List (Key × Shape)} {known : List Anchor},
      LegibleEntries known entries → BuildableEntries known (rereadEntriesIn g entries)
  | [], _, _ => trivial
  | (k, s) :: _, known, h => by
    refine ⟨Key.buildable_reread h.1, ?_, ?_⟩
    · rw [Key.keyAnchors_reread]
      exact buildable_rereadIn hg hbuild h.2.1
    · rw [Key.keyAnchors_reread, anchors_rereadIn hg _ s]
      exact buildableEntries_rereadIn hg hbuild h.2.2

end

/-! ### Heights -/

mutual

/-- Scalars may be read back as collections, but as no higher ones than some. -/
theorem height_rereadIn_le {k : Nat} (hg : ∀ f, (g f).height ≤ k) : ∀ s : Shape,
    (s.rereadIn g).height ≤ s.height + k
  | .scalar f => Nat.le_add_left_of_le (hg f)
  | .alias _ => Nat.zero_le _
  | .sequence _ items => by
    have hitems := heightItems_rereadIn_le hg items
    rw [rereadIn, height, height]
    omega
  | .mapping _ entries => by
    have hentries := heightEntries_rereadIn_le hg entries
    rw [rereadIn, height, height]
    omega

theorem heightItems_rereadIn_le {k : Nat} (hg : ∀ f, (g f).height ≤ k) : ∀ items : List Shape,
    heightItems (rereadItemsIn g items) ≤ heightItems items + k
  | [] => Nat.zero_le _
  | s :: rest => by
    have hfirst := height_rereadIn_le hg s
    have hrest := heightItems_rereadIn_le hg rest
    rw [rereadItemsIn, heightItems, heightItems]
    omega

theorem heightEntries_rereadIn_le {k : Nat} (hg : ∀ f, (g f).height ≤ k) :
    ∀ entries : List (Key × Shape),
      heightEntries (rereadEntriesIn g entries) ≤ heightEntries entries + k
  | [] => Nat.zero_le _
  | (_, s) :: rest => by
    have hfirst := height_rereadIn_le hg s
    have hrest := heightEntries_rereadIn_le hg rest
    rw [rereadEntriesIn, heightEntries, heightEntries]
    omega

end

end Anchors

end Shape

end TaggedYaml
