import TaggedYaml.Proofs.Shape.Reading
import TaggedYaml.Proofs.Tree.Makes

/-!
# Build — the events of a shape become its nodes

From the events of a shape the builder makes a node that bears this shape (`makes_node`), whatever its
aliases lead to.  A node that bears a shape without aliases has it (`denotes_of_bears`).
-/

namespace TaggedYaml

namespace Shape

mutual

/-- A shape without aliases, of which every key is a scalar and no collection has a text. -/
def Readable : Shape → Prop
  | .scalar _ => True
  | .alias _ => False
  | .sequence f items => f.IsBare ∧ ReadableItems items
  | .mapping f entries => f.IsBare ∧ ReadableEntries entries

def ReadableItems : List Shape → Prop
  | [] => True
  | s :: rest => Readable s ∧ ReadableItems rest

def ReadableEntries : List (Key × Shape) → Prop
  | [] => True
  | (k, s) :: rest => (∃ f, k = .scalar f) ∧ Readable s ∧ ReadableEntries rest

end

mutual

theorem direct_of_readable : ∀ {s : Shape}, s.Readable → s.Direct
  | .scalar _, _ => trivial
  | .alias _, h => h
  | .sequence _ _, h => directItems_of_readable h.2
  | .mapping _ _, h => directEntries_of_readable h.2

theorem directItems_of_readable : ∀ {items : List Shape}, ReadableItems items → DirectItems items
  | [], _ => trivial
  | _ :: _, h => ⟨direct_of_readable h.1, directItems_of_readable h.2⟩

theorem directEntries_of_readable : ∀ {entries : List (Key × Shape)},
    ReadableEntries entries → DirectEntries entries
  | [], _ => trivial
  | (_, _) :: _, h => ⟨direct_of_readable h.2.1, directEntries_of_readable h.2.2⟩

end

mutual

/-- A shape that can be built behind some anchors: every alias has its anchor before it, every key is a
scalar or an alias, and no collection has a text. -/
def Buildable (known : List Anchor) : Shape → Prop
  | .scalar _ => True
  | .alias name => (aliasAnchor? known name).isSome
  | .sequence f items => f.IsBare ∧ BuildableItems (nameAnchor known f.anchor) items
  | .mapping f entries => f.IsBare ∧ BuildableEntries (nameAnchor known f.anchor) entries

def BuildableItems (known : List Anchor) : List Shape → Prop
  | [] => True
  | s :: rest => Buildable known s ∧ BuildableItems (anchors known s) rest

def BuildableEntries (known : List Anchor) : List (Key × Shape) → Prop
  | [] => True
  | (k, s) :: rest => BuildableKey known k ∧ Buildable (keyAnchors known k) s ∧
      BuildableEntries (anchors (keyAnchors known k) s) rest

/-- A key that can be built behind some anchors. -/
def BuildableKey (known : List Anchor) : Key → Prop
  | .scalar _ => True
  | .alias name _ => (aliasAnchor? known name).isSome
  | .other _ => False

end

mutual

theorem buildable_of_readable : ∀ {s : Shape} {known : List Anchor}, s.Readable → s.Buildable known
  | .scalar _, _, _ => trivial
  | .alias _, _, h => h.elim
  | .sequence _ _, _, h => ⟨h.1, buildableItems_of_readable h.2⟩
  | .mapping _ _, _, h => ⟨h.1, buildableEntries_of_readable h.2⟩

theorem buildableItems_of_readable : ∀ {items : List Shape} {known : List Anchor},
    ReadableItems items → BuildableItems known items
  | [], _, _ => trivial
  | _ :: _, _, h => ⟨buildable_of_readable h.1, buildableItems_of_readable h.2⟩

theorem buildableEntries_of_readable : ∀ {entries : List (Key × Shape)} {known : List Anchor},
    ReadableEntries entries → BuildableEntries known entries
  | [], _, _ => trivial
  | (_, _) :: _, _, ⟨⟨_, hf⟩, hs, hrest⟩ =>
    ⟨hf ▸ trivial, buildable_of_readable hs, buildableEntries_of_readable hrest⟩

end

/-! ### The anchors of the events of a shape -/

theorem anchors_scalarEvent (known : List Anchor) (f : Face) :
    (Event.anchors [scalarEvent known f]).reverse ++ known = nameAnchor known f.anchor := by
  rw [Event.anchors_cons]
  cases h : f.anchor with
  | none => simp [scalarEvent, Event.anchor?, nextAnchor, h, nameAnchor, Event.anchors]
  | some a => simp [scalarEvent, Event.anchor?, nextAnchor, h, nameAnchor, Event.anchors]

theorem anchors_keyEvent (known : List Anchor) (k : Key) :
    (Event.anchors [keyEvent known k]).reverse ++ known = keyAnchors known k := by
  cases k with
  | scalar f => exact anchors_scalarEvent known f
  | «alias» name text => rfl
  | other text => exact anchors_scalarEvent known { text }

/-- The anchors of a collection are its own and those of its members. -/
theorem anchors_collection {known : List Anchor} {name : Option String} {first last : Event}
    {members : List Event} (hf : first.anchor? = nextAnchor known name) (hl : last.anchor? = none) :
    (Event.anchors (first :: (members ++ [last]))).reverse ++ known =
      (Event.anchors members).reverse ++ nameAnchor known name := by
  have hlast : Event.anchors [last] = [] := by
    rw [Event.anchors_cons, hl]
    rfl
  have happ : Event.anchors (members ++ [last]) = Event.anchors members := by
    rw [Event.anchors, List.filterMap_append]
    show Event.anchors members ++ Event.anchors [last] = _
    rw [hlast, List.append_nil]
  rw [Event.anchors_cons, hf, happ]
  cases name <;> simp [nextAnchor, nameAnchor]

mutual

theorem anchors_events : ∀ (s : Shape) (known : List Anchor),
    (Event.anchors (s.events known)).reverse ++ known = s.anchors known
  | .scalar f, known => anchors_scalarEvent known f
  | .alias _, known => rfl
  | .sequence f items, known => by
    show (Event.anchors (.openSequence f.tag (nextAnchor known f.anchor) ::
      (_ ++ [.closeSequence]))).reverse ++ known = _
    rw [anchors_collection rfl rfl]
    exact anchors_eventsItems items _
  | .mapping f entries, known => by
    show (Event.anchors (.openMapping f.tag (nextAnchor known f.anchor) ::
      (_ ++ [.closeMapping]))).reverse ++ known = _
    rw [anchors_collection rfl rfl]
    exact anchors_eventsEntries entries _

theorem anchors_eventsItems : ∀ (items : List Shape) (known : List Anchor),
    (Event.anchors (eventsItems known items)).reverse ++ known = anchorsItems known items
  | [], _ => rfl
  | s :: rest, known => by
    rw [eventsItems, anchorsItems, ← anchors_eventsItems rest, ← anchors_events s known]
    simp [Event.anchors]

theorem anchors_eventsEntries : ∀ (entries : List (Key × Shape)) (known : List Anchor),
    (Event.anchors (eventsEntries known entries)).reverse ++ known = anchorsEntries known entries
  | [], _ => rfl
  | (k, s) :: rest, known => by
    have hkey : ∀ es : List Event, (Event.anchors (keyEvent known k :: es)).reverse ++ known =
        (Event.anchors es).reverse ++ keyAnchors known k := by
      intro es
      rw [← anchors_keyEvent known k, Event.anchors_cons, Event.anchors_cons]
      simp [Event.anchors]
    rw [eventsEntries, anchorsEntries, hkey, ← anchors_eventsEntries rest,
      ← anchors_events s (keyAnchors known k)]
    simp [Event.anchors]

end

end Shape

/-! ### Nodes that bear a shape -/

namespace Tree

/-- A node is a key, whatever it leads to if it is an alias. -/
def BearsKey (t : Tree) (id : NodeId) : Key → Prop
  | .scalar f => ∃ n, t.get? id = some n ∧ n.kind = .scalar ∧ n.face = f
  | .alias name _ => ∃ n, t.get? id = some n ∧ n.kind = .alias ∧ n.value = name
  | .other text => ∃ n, t.get? id = some n ∧ n.kind ≠ .alias ∧ n.kind ≠ .scalar ∧ n.value = text

mutual

/-- A node has a shape, whatever the aliases in it lead to. -/
def Bears (t : Tree) (id : NodeId) : Shape → Prop
  | .scalar f => ∃ n, t.get? id = some n ∧ n.kind = .scalar ∧ n.face = f
  | .alias name => ∃ n, t.get? id = some n ∧ n.kind = .alias ∧ n.value = name
  | .sequence f items => ∃ n, t.get? id = some n ∧ n.kind = .sequence ∧ n.face = f ∧
      BearsItems t n.children.toList items
  | .mapping f entries => ∃ n, t.get? id = some n ∧ n.kind = .mapping ∧ n.face = f ∧
      BearsEntries t (inPairs n.children.toList) entries

def BearsItems (t : Tree) : List NodeId → List Shape → Prop
  | ids, [] => ids = []
  | ids, s :: rest => ∃ id ids', ids = id :: ids' ∧ Bears t id s ∧ BearsItems t ids' rest

def BearsEntries (t : Tree) : List (NodeId × Option NodeId) → List (Key × Shape) → Prop
  | pairs, [] => pairs = []
  | pairs, (k, s) :: rest => ∃ i v pairs', pairs = (i, some v) :: pairs' ∧ BearsKey t i k ∧
      Bears t v s ∧ BearsEntries t pairs' rest

end

variable {t : Tree}

mutual

/-- Without aliases there is nothing else to say. -/
theorem denotes_of_bears : ∀ {s : Shape} {id : NodeId}, s.Readable → t.Bears id s → t.Denotes id s
  | .scalar _, _, _, h => h
  | .alias _, _, hs, _ => hs.elim
  | .sequence _ _, _, hs, h => by
    obtain ⟨n, hn, hk, hf, hitems⟩ := h
    exact ⟨n, hn, hk, hf, denotesItems_of_bears hs.2 hitems⟩
  | .mapping _ _, _, hs, h => by
    obtain ⟨n, hn, hk, hf, hentries⟩ := h
    exact ⟨n, hn, hk, hf, denotesEntries_of_bears hs.2 hentries⟩

theorem denotesItems_of_bears : ∀ {items : List Shape} {ids : List NodeId},
    Shape.ReadableItems items → t.BearsItems ids items → t.DenotesItems ids items
  | [], _, _, h => h
  | _ :: _, _, hs, h => by
    obtain ⟨id, ids, hids, hshape, hrest⟩ := h
    exact ⟨id, ids, hids, denotes_of_bears hs.1 hshape, denotesItems_of_bears hs.2 hrest⟩

theorem denotesEntries_of_bears : ∀ {entries : List (Key × Shape)}
    {pairs : List (NodeId × Option NodeId)}, Shape.ReadableEntries entries →
    t.BearsEntries pairs entries → t.DenotesEntries pairs entries
  | [], _, _, h => h
  | (k, s) :: _, _, hs, h => by
    obtain ⟨i, v, pairs, hpairs, hkey, hvalue, hrest⟩ := h
    obtain ⟨⟨f, rfl⟩, hs, hss⟩ := hs
    refine ⟨i, some v, pairs, hpairs, hkey, fun id hid => ?_, fun hv => absurd hv (by simp),
      denotesEntries_of_bears hss hrest⟩
    obtain rfl := Option.mem_some.mp hid
    exact denotes_of_bears hs hvalue

end

end Tree

/-! ### Whole shapes -/

namespace Builder

variable {b : Builder} {maxDepth : Nat} {f : Face} {known : List Anchor}

theorem nextAnchor_name (known : List Anchor) (name : Option String) :
    (nextAnchor known name).map (·.name) = name := by
  cases name <;> rfl

/-- The anchors that are bound are those known. -/
def Binds (b : Builder) (known : List Anchor) : Prop := b.bound.map (·.1) = known.map (·.number)

theorem Binds.exists_target (h : b.Binds known) {a : Anchor} (ha : a ∈ known) :
    ∃ r, b.bound.lookup a.number = some r := by
  have hmem : a.number ∈ b.bound.map (·.1) := h ▸ List.mem_map_of_mem ha
  obtain ⟨p, hp, hpa⟩ := List.mem_map.mp hmem
  cases hl : b.bound.lookup a.number with
  | some r => exact ⟨r, rfl⟩
  | none =>
    have := List.lookup_eq_none_iff.mp hl p hp
    simp [hpa] at this

theorem map_boundFrom : ∀ (es : List Event) (next : NodeId) (bound : List (Nat × NodeId)),
    (Event.boundFrom next bound es).map (·.1) =
      ((Event.anchors es).reverse.map (·.number)) ++ bound.map (·.1)
  | [], _, _ => rfl
  | e :: es, next, bound => by
    rw [Event.boundFrom, map_boundFrom es, Event.anchors_cons, Event.bind]
    cases e.anchor? <;> simp

/-- Events bind their anchors. -/
theorem Binds.foldlM (h : b.Binds known) {es : List (Marked Event)} {b' : Builder}
    {known' : List Anchor} (hb : es.foldlM (step maxDepth) b = .ok b')
    (he : (Event.anchors (es.map (·.item))).reverse ++ known = known') : b'.Binds known' := by
  rw [Binds, (foldlM_bares hb).2.2, map_boundFrom, h, ← he, List.map_append]

/-- A scalar becomes a node. -/
theorem Makes.scalar (hp : b.parent < b.tree.size) {e : Marked Event}
    (he : e.item = Shape.scalarEvent known f) : Makes maxDepth b [e] fun t ids =>
      ∃ id n, ids = [id] ∧ t.get? id = some n ∧ n.kind = .scalar ∧ n.face = f := by
  have hstep : b.step maxDepth e = (b.attach
      { kind := .scalar, value := f.text, tag := f.tag, style := f.style, mark := e.mark }
      (nextAnchor known f.anchor)).map (·.2) := by
    rw [step, he, Shape.scalarEvent]
    rfl
  refine (Makes.leaf hp hstep).mono fun t ids hn => ⟨_, _, hn.1, hn.2, rfl, ?_⟩
  rw [Node.face, nextAnchor_name]

/-- An alias of a known anchor becomes a node. -/
theorem Makes.alias (hp : b.parent < b.tree.size) (hb : b.Binds known) {e : Marked Event}
    {name : String} (hn : (aliasAnchor? known name).isSome)
    (he : e.item = Shape.aliasEvent known name) : Makes maxDepth b [e] fun t ids =>
      ∃ id n, ids = [id] ∧ t.get? id = some n ∧ n.kind = .alias ∧ n.value = name := by
  obtain ⟨a, ha⟩ := Option.isSome_iff_exists.mp hn
  have hname : a.name = name := by simpa using List.find?_some ha
  obtain ⟨r, hr⟩ := hb.exists_target (List.mem_of_find?_eq_some ha)
  have hitem : e.item = .alias a := by
    rw [he, Shape.aliasEvent, ha]
    rfl
  have hstep : b.step maxDepth e = (b.attach
      { kind := .alias, value := a.name, target := some r, mark := e.mark } none).map (·.2) := by
    rw [step, hitem]
    simp only [hr]
    rfl
  refine (Makes.leaf hp hstep).mono fun t ids hn => ⟨_, _, hn.1, hn.2, rfl, hname⟩

/-- A key becomes a node. -/
theorem Makes.key (hp : b.parent < b.tree.size) (hb : b.Binds known) {e : Marked Event} {k : Key}
    (hk : Shape.BuildableKey known k) (he : e.item = Shape.keyEvent known k) :
    Makes maxDepth b [e] fun t ids => ∃ id, ids = [id] ∧ t.BearsKey id k := by
  cases k with
  | scalar f =>
    refine (Makes.scalar hp he).mono fun t ids hn => ?_
    obtain ⟨id, n, hids, hn⟩ := hn
    exact ⟨id, hids, n, hn⟩
  | «alias» name text =>
    refine (Makes.alias hp hb hk he).mono fun t ids hn => ?_
    obtain ⟨id, n, hids, hn⟩ := hn
    exact ⟨id, hids, n, hn⟩
  | other text => exact hk.elim

/-- The face of the node that a collection is opened as. -/
theorem face_collection (hf : f.IsBare) (known : List Anchor) :
    (⟨f.tag, "", (nextAnchor known f.anchor).map (·.name), .plain⟩ : Face) = f := by
  rw [nextAnchor_name, ← hf.1, ← hf.2]

/-- The anchor of a collection is bound when it is opened. -/
theorem Binds.first (h : b.Binds known) {e : Marked Event} {b' : Builder} {name : Option String}
    (hb : b.step maxDepth e = .ok b') (he : e.item.anchor? = nextAnchor known name) :
    b'.Binds (nameAnchor known name) := by
  have hrun : [e].foldlM (step maxDepth) b = .ok b' := by
    rw [List.foldlM_cons, hb]
    rfl
  refine h.foldlM hrun ?_
  rw [List.map_cons, List.map_nil, Event.anchors_cons, he]
  cases name <;> simp [nextAnchor, nameAnchor, Event.anchors]

mutual

/-- From the events of a shape the builder makes a node that bears this shape. -/
theorem makes_node : ∀ {s : Shape} {known : List Anchor} {b : Builder} {es : List (Marked Event)},
    s.Buildable known → b.Binds known → b.stack.length + s.height ≤ maxDepth →
    b.parent < b.tree.size → es.map (·.item) = s.events known →
    Makes maxDepth b es fun t ids => ∃ id, ids = [id] ∧ t.Bears id s
  | .scalar f, known, b, es, _, _, _, hp, he => by
    obtain ⟨e, es', rfl, hitem, hnil⟩ := map_item_eq_cons he
    obtain rfl := List.map_eq_nil_iff.mp hnil
    refine (Makes.scalar hp hitem).mono fun t ids hn => ?_
    obtain ⟨id, n, hids, hn⟩ := hn
    exact ⟨id, hids, n, hn⟩
  | .alias name, known, b, es, hs, hb, _, hp, he => by
    obtain ⟨e, es', rfl, hitem, hnil⟩ := map_item_eq_cons he
    obtain rfl := List.map_eq_nil_iff.mp hnil
    refine (Makes.alias hp hb hs hitem).mono fun t ids hn => ?_
    obtain ⟨id, n, hids, hn⟩ := hn
    exact ⟨id, hids, n, hn⟩
  | .sequence f items, known, b, es, hs, hb, hroom, hp, he => by
    rw [Shape.height] at hroom
    obtain ⟨first, members, last, rfl, hfirst, hmembers, hlast⟩ := map_item_eq_collection he
    have hopen : b.step maxDepth first = b.openNode maxDepth
        { kind := .sequence, tag := f.tag, mark := first.mark } (nextAnchor known f.anchor) := by
      rw [step, hfirst]
    refine (Makes.collection hp (by omega) rfl hopen (fun b' => by rw [step, hlast])
      fun b' hb' hp' hstack => makes_items hs.2 (hb.first hb' (by rw [hfirst]; rfl)) (by omega) hp'
        hmembers).mono fun t ids hn => ?_
    obtain ⟨children, hids, hget, hitems⟩ := hn
    exact ⟨_, hids, _, hget, rfl, face_collection hs.1 known, hitems⟩
  | .mapping f entries, known, b, es, hs, hb, hroom, hp, he => by
    rw [Shape.height] at hroom
    obtain ⟨first, members, last, rfl, hfirst, hmembers, hlast⟩ := map_item_eq_collection he
    have hopen : b.step maxDepth first = b.openNode maxDepth
        { kind := .mapping, tag := f.tag, mark := first.mark } (nextAnchor known f.anchor) := by
      rw [step, hfirst]
    refine (Makes.collection hp (by omega) rfl hopen (fun b' => by rw [step, hlast])
      fun b' hb' hp' hstack => makes_entries hs.2 (hb.first hb' (by rw [hfirst]; rfl)) (by omega) hp'
        hmembers).mono fun t ids hn => ?_
    obtain ⟨children, hids, hget, hentries⟩ := hn
    exact ⟨_, hids, _, hget, rfl, face_collection hs.1 known, hentries⟩

theorem makes_items : ∀ {items : List Shape} {known : List Anchor} {b : Builder}
    {es : List (Marked Event)}, Shape.BuildableItems known items → b.Binds known →
    b.stack.length + Shape.heightItems items ≤ maxDepth → b.parent < b.tree.size →
    es.map (·.item) = Shape.eventsItems known items →
    Makes maxDepth b es fun t ids => t.BearsItems ids items
  | [], known, b, es, _, _, _, hp, he => by
    obtain rfl := List.map_eq_nil_iff.mp he
    exact ⟨b, [], rfl, .refl b, fun t _ => rfl⟩
  | s :: rest, known, b, es, hs, hb, hroom, hp, he => by
    rw [Shape.heightItems] at hroom
    obtain ⟨es₁, es₂, rfl, he₁, he₂⟩ := List.map_eq_append_iff.mp he
    have hrest : ∀ b' : Builder, es₁.foldlM (step maxDepth) b = .ok b' → b'.parent < b'.tree.size →
        b'.stack = b.stack → Makes maxDepth b' es₂ fun t ids => t.BearsItems ids rest := by
      intro b' hb' hp' hstack
      have hbinds : b'.Binds (Shape.anchors known s) :=
        hb.foldlM hb' (by rw [he₁]; exact Shape.anchors_events s known)
      exact makes_items hs.2 hbinds (by rw [hstack]; omega) hp' he₂
    refine ((makes_node hs.1 hb (by omega) hp he₁).append hp hrest).mono fun t ids hn => ?_
    obtain ⟨ids₁, ids₂, hids, ⟨id, hid, hs⟩, hrest⟩ := hn
    exact ⟨id, ids₂, by rw [hids, hid]; rfl, hs, hrest⟩

theorem makes_entries : ∀ {entries : List (Key × Shape)} {known : List Anchor} {b : Builder}
    {es : List (Marked Event)}, Shape.BuildableEntries known entries → b.Binds known →
    b.stack.length + Shape.heightEntries entries ≤ maxDepth → b.parent < b.tree.size →
    es.map (·.item) = Shape.eventsEntries known entries →
    Makes maxDepth b es fun t ids => t.BearsEntries (inPairs ids) entries
  | [], known, b, es, _, _, _, hp, he => by
    obtain rfl := List.map_eq_nil_iff.mp he
    exact ⟨b, [], rfl, .refl b, fun t _ => rfl⟩
  | (k, s) :: rest, known, b, es, hs, hb, hroom, hp, he => by
    obtain ⟨hkey, hs, hrest⟩ := hs
    rw [Shape.heightEntries] at hroom
    obtain ⟨e, es', rfl, hitem, he⟩ := map_item_eq_cons he
    obtain ⟨es₁, es₂, rfl, he₁, he₂⟩ := List.map_eq_append_iff.mp he
    have hvalue : ∀ b' : Builder, [e].foldlM (step maxDepth) b = .ok b' →
        b'.parent < b'.tree.size → b'.stack = b.stack →
        Makes maxDepth b' (es₁ ++ es₂) fun t ids => ∃ ids₁ ids₂, ids = ids₁ ++ ids₂ ∧
          (∃ id, ids₁ = [id] ∧ t.Bears id s) ∧ t.BearsEntries (inPairs ids₂) rest := by
      intro b' hb' hp' hstack
      have hbinds : b'.Binds (Shape.keyAnchors known k) := hb.foldlM hb' (by
        rw [List.map_cons, List.map_nil, hitem]
        exact Shape.anchors_keyEvent known k)
      refine (makes_node hs hbinds (by rw [hstack]; omega) hp' he₁).append hp' ?_
      intro b'' hb'' hp'' hstack'
      have hbinds' : b''.Binds (Shape.anchors (Shape.keyAnchors known k) s) :=
        hbinds.foldlM hb'' (by rw [he₁]; exact Shape.anchors_events s _)
      exact makes_entries hrest hbinds' (by rw [hstack', hstack]; omega) hp'' he₂
    refine ((Makes.key hp hb hkey hitem).append hp hvalue).mono fun t ids hn => ?_
    obtain ⟨ids₁, ids₂, hids, ⟨i, hi, hk⟩, ids₃, ids₄, hids', ⟨v, hv, hvalue⟩, hrest⟩ := hn
    subst hids hids' hi hv
    exact ⟨i, v, inPairs ids₄, rfl, hk, hvalue, hrest⟩

end

end Builder

/-! ### Trees -/

namespace Tree

/-- The events of a shape make a tree whose document bears this shape. -/
theorem exists_bears {s : Shape} {es : List (Marked Event)} {maxDepth : Nat}
    (hs : s.Buildable []) (hroom : s.height ≤ maxDepth) (he : es.map (·.item) = s.events []) :
    ∃ t id, ofEvents maxDepth es = .ok t ∧ t.rootNode = { kind := .document, children := #[id] } ∧
      t.Bears id s := by
  have hp : (⟨.empty, [], []⟩ : Builder).parent < (⟨.empty, [], []⟩ : Builder).tree.size := by decide
  obtain ⟨b, ids, hb, hadds, hP⟩ := Builder.makes_node hs (by rfl) (by simpa using hroom) hp he
  obtain ⟨id, rfl, hbears⟩ := hP b.tree fun _ _ _ => rfl
  refine ⟨b.tree, id, by rw [ofEvents, hb]; rfl, ?_, hbears⟩
  have hroot := hadds.grown.parent { kind := .document } rfl
  have hget : b.tree.get? root = some b.tree.rootNode :=
    Array.getElem?_eq_getElem b.tree.size_pos
  exact Option.some.inj (hget.symm.trans hroot)

/-- The events of a shape make a tree with this shape below its document. -/
theorem ofEvents_of_events {s : Shape} {es : List (Marked Event)} {maxDepth : Nat}
    (hs : s.Readable) (hroom : s.height ≤ maxDepth) (he : es.map (·.item) = s.events []) :
    ∃ t id, ofEvents maxDepth es = .ok t ∧ t.rootNode = { kind := .document, children := #[id] } ∧
      t.Denotes id s := by
  obtain ⟨t, id, ht, hroot, hbears⟩ := exists_bears (Shape.buildable_of_readable hs) hroom he
  exact ⟨t, id, ht, hroot, denotes_of_bears hs hbears⟩

theorem read_of_events {text : String} {es : List (Marked Event)} {maxDepth : Nat}
    (h : (scan text.toList).namedEvents = .ok es) : read maxDepth text = ofEvents maxDepth es := by
  unfold read
  rw [h]

end Tree

end TaggedYaml
