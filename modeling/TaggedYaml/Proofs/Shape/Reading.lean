import TaggedYaml.Proofs.Event.Anchors
import TaggedYaml.Proofs.Shape.Events

/-!
# Reading — the words of a shape are read as its events

A reader in front of the words of a shape passes them and says the events of the shape
(`reads_node`), so a text of such words says these events (`Scan.events_of_spells`).
-/

namespace TaggedYaml

/-- Tokens that end a node of which the content is not written; `flush` as in `Part.node`. -/
def endsNode (flush : Bool) : Token → Bool
  | .textEnd | .key | .value | .blockEnd | .flowEntry | .flowSequenceEnd | .flowMappingEnd => true
  | .blockEntry => !flush
  | _ => false

/-- Tokens that stand before the content of a node. -/
def isProperty : Token → Bool
  | .anchor _ | .tag _ _ => true
  | _ => false

namespace EventReader

/-- A reader in front of some words, which has said some events. -/
structure Front (r : EventReader) (ts : List Token) (known : List Anchor) (said : List Event) :
    Prop where
  tokens : r.tokens.map (·.item) = ts
  anchors : r.anchors = known
  handles : r.handles = []
  events : (r.events.map (·.item)).reverse = said

variable {r : EventReader} {t : Token} {ts : List Token} {known : List Anchor} {said : List Event}
  {inBlock flush : Bool} {fuel : Nat} {p : Properties} {f : Face}

theorem Front.peek (h : Front r (t :: ts) known said) : ∃ m, r.peek = .ok ⟨m, t⟩ := by
  obtain ⟨⟨m, _⟩, ms, hr, rfl, -⟩ := List.map_eq_cons_iff.mp h.tokens
  exact ⟨m, by rw [EventReader.peek, hr]⟩

theorem Front.next (h : Front r (t :: ts) known said) : Front r.next ts known said := by
  obtain ⟨m, ms, hr, -, hms⟩ := List.map_eq_cons_iff.mp h.tokens
  exact ⟨by rw [EventReader.next, hr, List.tail_cons, hms], h.anchors, h.handles, h.events⟩

theorem Front.push (h : Front r ts known said) (m : Mark) (e : Event) :
    Front (r.push m e) ts known (said ++ [e]) :=
  ⟨h.tokens, h.anchors, h.handles, by simp [EventReader.push, h.events]⟩

theorem Front.declare (h : Front r ts known said) (name : String) :
    (r.declare name).1 = ⟨known.length + 1, name⟩ ∧
      Front (r.declare name).2 ts (⟨known.length + 1, name⟩ :: known) said := by
  rw [EventReader.declare, h.anchors]
  exact ⟨rfl, h.tokens, rfl, h.handles, h.events⟩

/-! #### Anchors and tags -/

theorem resolve_shorthand (suffix : String) :
    Handles.resolve [] "!" suffix = .ok ("!" ++ suffix) := by
  have h1 : ("!" == "!!") = false := by decide
  have h2 : isNamedHandle "!" = false := by decide
  have h3 : coreAddress.isPrefixOf "!".toList = false := by decide
  simp only [Handles.resolve, List.lookup_nil, h1, h2, showTag, h3, Bool.false_eq_true, if_false]

/-- A tag has no word or one, and the word stands for the tag. -/
theorem tagWords_cases {tag : String} (h : IsSpelledTag tag) :
    (tag = "" ∧ tagWords tag = []) ∨ ∃ handle suffix, tagWords tag = [.tag handle suffix] ∧
      Handles.resolve [] handle suffix = .ok tag := by
  rw [tagWords]
  split
  · exact .inl ⟨‹_›, rfl⟩
  · rename_i h0
    refine .inr ?_
    split
    · rename_i h1
      exact ⟨_, _, rfl, by rw [h1]; decide⟩
    · obtain ⟨rest, hrest⟩ := List.head?_eq_some_iff.mp (h.resolve_left h0)
      refine ⟨_, _, rfl, ?_⟩
      rw [resolve_shorthand, Except.ok.injEq, ← String.toList_inj, hrest]
      simp

theorem Front.tagOf (h : Front r ts known said) {handle suffix tag : String}
    (ht : Handles.resolve [] handle suffix = .ok tag) (m : Mark) :
    r.tagOf m handle suffix = .ok tag := by
  rw [EventReader.tagOf, h.handles, ht]
  rfl

/-- The words before the content of a node are read as its anchor and its tag. -/
theorem Front.properties (hf : IsSpelledTag f.tag) (ht : isProperty t = false)
    (h : Front r (f.properties ++ t :: ts) known said) :
    ∃ p r', r.properties = .ok (p, r') ∧ p.tag.getD "" = f.tag ∧
      p.anchor = nextAnchor known f.anchor ∧
      (f.properties ≠ [] → (p.tag.isSome || p.anchor.isSome) = true) ∧
      Front r' (t :: ts) (nameAnchor known f.anchor) said := by
  rw [Face.properties] at h ⊢
  cases ha : f.anchor with
  | none =>
    rcases tagWords_cases hf with ⟨h0, hw⟩ | ⟨handle, suffix, hw, hres⟩
    · simp only [ha, hw, Option.toList_none, List.map_nil, List.nil_append] at h
      obtain ⟨m, hm⟩ := h.peek
      refine ⟨⟨none, none⟩, r, ?_, h0.symm, rfl, by simp [hw], h⟩
      rw [EventReader.properties, hm]
      cases t <;> simp [isProperty] at ht <;> rfl
    · simp only [ha, hw, Option.toList_none, List.map_nil, List.nil_append, List.cons_append] at h
      obtain ⟨m, hm⟩ := h.peek
      obtain ⟨u, hu⟩ := h.next.peek
      refine ⟨⟨some f.tag, none⟩, r.next, ?_, rfl, rfl, fun _ => rfl, h.next⟩
      simp only [EventReader.properties, hm, hu, h.tagOf hres, bind, Except.bind]
      cases t <;> simp [isProperty] at ht <;> rfl
  | some name =>
    simp only [ha, Option.toList_some, List.map_cons, List.map_nil, List.cons_append,
      List.nil_append] at h
    obtain ⟨m, hm⟩ := h.peek
    obtain ⟨hname, hdecl⟩ := h.next.declare name
    rcases tagWords_cases hf with ⟨h0, hw⟩ | ⟨handle, suffix, hw, hres⟩
    · simp only [hw, List.nil_append] at hdecl
      obtain ⟨u, hu⟩ := hdecl.peek
      refine ⟨⟨none, some ⟨known.length + 1, name⟩⟩, _, ?_, h0.symm, rfl, fun _ => rfl, hdecl⟩
      simp only [EventReader.properties, hm, bind, Except.bind, hu, hname]
      cases t <;> simp [isProperty] at ht <;> rfl
    · simp only [hw, List.cons_append, List.nil_append] at hdecl
      obtain ⟨u, hu⟩ := hdecl.peek
      refine ⟨⟨some f.tag, some ⟨known.length + 1, name⟩⟩, _, ?_, rfl, rfl, fun _ => rfl, hdecl.next⟩
      simp only [EventReader.properties, hm, bind, Except.bind, hu, hname, hdecl.tagOf hres]
      rfl

/-! #### Nodes -/

theorem Front.node_eq (hp : ∃ t ts', ts = t :: ts' ∧ ∀ name, t ≠ .alias name)
    (h : Front r ts known said) : read (fuel + 1) (.node inBlock flush) r =
      r.properties >>= fun x => read fuel (.content inBlock flush x.1) x.2 := by
  obtain ⟨t, ts', rfl, ht⟩ := hp
  obtain ⟨m, hm⟩ := h.peek
  rw [read, hm]
  cases t <;> first | rfl | exact absurd rfl (ht _)

/-- A reader in front of the content of a node, behind its anchor and its tag. -/
structure Facing (r : EventReader) (f : Face) (p : Properties) (ts : List Token)
    (known : List Anchor) (said : List Event) : Prop where
  tag : p.tag.getD "" = f.tag
  anchor : p.anchor = nextAnchor known f.anchor
  some : f.properties ≠ [] → (p.tag.isSome || p.anchor.isSome) = true
  front : Front r ts (nameAnchor known f.anchor) said

/-- A node is read as its anchor and tag and then its content. -/
theorem Front.node (hf : IsSpelledTag f.tag) (ht : isProperty t = false)
    (hal : ∀ name, t ≠ .alias name) (h : Front r (f.properties ++ t :: ts) known said) :
    ∃ p r', read (fuel + 1) (.node inBlock flush) r = read fuel (.content inBlock flush p) r' ∧
      Facing r' f p (t :: ts) known said := by
  obtain ⟨p, r', hp, h1, h2, h3, hr'⟩ := h.properties hf ht
  refine ⟨p, r', ?_, h1, h2, h3, hr'⟩
  have hhead : ∃ u us, f.properties ++ t :: ts = u :: us ∧ ∀ name, u ≠ .alias name := by
    rw [Face.properties]
    cases f.anchor with
    | some a => exact ⟨.anchor a, tagWords f.tag ++ t :: ts, rfl, fun _ => nofun⟩
    | none =>
      rcases tagWords_cases hf with ⟨-, hw⟩ | ⟨handle, suffix, hw, -⟩
      · exact ⟨t, ts, by rw [hw]; rfl, hal⟩
      · exact ⟨.tag handle suffix, t :: ts, by rw [hw]; rfl, fun _ => nofun⟩
  rw [h.node_eq hhead, hp]
  rfl

theorem Front.read_alias {name : String} (hn : (aliasAnchor? known name).isSome)
    (h : Front r (.alias name :: ts) known said) :
    ∃ r', read (fuel + 1) (.node inBlock flush) r = .ok r' ∧
      Front r' ts known (said ++ [Shape.aliasEvent known name]) := by
  obtain ⟨a, ha⟩ := Option.isSome_iff_exists.mp hn
  obtain ⟨m, hm⟩ := h.peek
  have hfind : r.anchors.find? (·.name == name) = some a := by rw [h.anchors, ← ha]; rfl
  refine ⟨r.next.push m (.alias a), ?_, ?_⟩
  · simp only [read, hm, bind, Except.bind, hfind]
    rfl
  · rw [Shape.aliasEvent, ha]
    exact h.next.push m _

theorem Facing.read_bare (ht : endsNode flush t = true) (hb : f.IsBare) (hp : f.properties ≠ [])
    (h : Facing r f p (t :: ts) known said) :
    ∃ r', read (fuel + 1) (.content inBlock flush p) r = .ok r' ∧
      Front r' (t :: ts) (nameAnchor known f.anchor) (said ++ [Shape.scalarEvent known f]) := by
  obtain ⟨m, hm⟩ := h.front.peek
  refine ⟨r.push m (.scalar .plain "" (p.tag.getD "") p.anchor), ?_, ?_⟩
  · have hsome := h.some hp
    simp only [read, hm, bind, Except.bind, hsome, if_true]
    cases flush <;> cases inBlock <;> cases t <;> simp [endsNode] at ht <;> rfl
  · rw [h.tag, h.anchor, Shape.scalarEvent, hb.1, hb.2]
    exact h.front.push m _

theorem Front.read_scalar {w : List Token} (hw : Shape.SpellsScalar f w)
    (ht : endsNode flush t = true) (h : Front r (w ++ t :: ts) known said) :
    ∃ r', read (fuel + 2) (.node inBlock flush) r = .ok r' ∧
      Front r' (t :: ts) (nameAnchor known f.anchor) (said ++ [Shape.scalarEvent known f]) := by
  cases hw with
  | written hf =>
    rw [List.append_assoc, List.singleton_append] at h
    obtain ⟨p, r₁, hread, hr₁⟩ := h.node hf rfl (by simp)
    obtain ⟨m, hm⟩ := hr₁.front.peek
    refine ⟨r₁.next.push m (.scalar f.style f.text (p.tag.getD "") p.anchor), ?_, ?_⟩
    · rw [hread, read, hm]
      rfl
    · rw [hr₁.tag, hr₁.anchor]
      exact hr₁.front.next.push m _
  | bare hf hb hne =>
    have hp : isProperty t = false := by cases t <;> simp [endsNode] at ht <;> rfl
    have hal : ∀ name, t ≠ .alias name := by
      rintro name rfl
      cases ht
    obtain ⟨p, r₁, hread, hr₁⟩ := h.node hf hp hal
    rw [hread]
    exact hr₁.read_bare ht hb hne

theorem Front.read_key (fuel : Nat) {k : Key} {w : List Token} (hw : Shape.SpellsKey known k w)
    (ht : endsNode flush t = true) (h : Front r (w ++ t :: ts) known said) :
    ∃ r', read (fuel + 2) (.node inBlock flush) r = .ok r' ∧
      Front r' (t :: ts) (Shape.keyAnchors known k) (said ++ [Shape.keyEvent known k]) := by
  cases hw with
  | scalar hw => exact h.read_scalar hw ht
  | «alias» hn => exact h.read_alias hn

/-! #### Members -/

/-- Tokens that a node begins with. -/
def startsNode : Token → Bool
  | .scalar _ _ | .alias _ | .anchor _ | .tag _ _ | .flowSequenceStart | .flowMappingStart
  | .blockSequenceStart | .blockMappingStart => true
  | _ => false

/-- A node may be read in front of some words. -/
def Starts (ts : List Token) : Prop := ∃ u us, ts = u :: us ∧ startsNode u = true

variable {Q : EventReader → Prop} {first : Bool}

theorem Front.flow_end_sequence (h : Front r (.flowSequenceEnd :: ts) known said) :
    ∃ r', read (fuel + 1) (.flowItems first) r = .ok r' ∧
      Front r' ts known (said ++ [.closeSequence]) := by
  obtain ⟨m, hm⟩ := h.peek
  refine ⟨r.next.push m .closeSequence, ?_, h.next.push m _⟩
  rw [read, hm]
  rfl

theorem Front.flow_first_item (hs : Starts ts) (h : Front r ts known said) :
    read (fuel + 1) (.flowItems true) r =
      read fuel (.node false false) r >>= read fuel (.flowItems false) := by
  obtain ⟨u, us, rfl, hu⟩ := hs
  obtain ⟨m, hm⟩ := h.peek
  simp only [read, hm, bind, Except.bind]
  cases u <;> simp [startsNode] at hu <;> simp [pure, Except.pure, hm]

theorem Front.flow_item (hs : Starts ts) (h : Front r (.flowEntry :: ts) known said) :
    read (fuel + 1) (.flowItems false) r =
      read fuel (.node false false) r.next >>= read fuel (.flowItems false) := by
  obtain ⟨u, us, rfl, hu⟩ := hs
  obtain ⟨m, hm⟩ := h.peek
  obtain ⟨m', hm'⟩ := h.next.peek
  simp only [read, hm, bind, Except.bind]
  cases u <;> simp [startsNode] at hu <;> simp [pure, Except.pure, hm']

theorem Front.flow_end_mapping (h : Front r (.flowMappingEnd :: ts) known said) :
    ∃ r', read (fuel + 1) (.flowEntries first) r = .ok r' ∧
      Front r' ts known (said ++ [.closeMapping]) := by
  obtain ⟨m, hm⟩ := h.peek
  refine ⟨r.next.push m .closeMapping, ?_, h.next.push m _⟩
  rw [read, hm]
  rfl

theorem Front.flow_first_key (hs : Starts ts) (h : Front r (.key :: ts) known said) :
    read (fuel + 1) (.flowEntries true) r =
      read fuel (.node false false) r.next >>= read fuel .flowValue := by
  obtain ⟨u, us, rfl, hu⟩ := hs
  obtain ⟨m, hm⟩ := h.peek
  obtain ⟨m', hm'⟩ := h.next.peek
  simp only [read, hm, bind, Except.bind]
  cases u <;> simp [startsNode] at hu <;> simp [pure, Except.pure, hm, hm']

theorem Front.flow_key (hs : Starts ts) (h : Front r (.flowEntry :: .key :: ts) known said) :
    read (fuel + 1) (.flowEntries false) r =
      read fuel (.node false false) r.next.next >>= read fuel .flowValue := by
  obtain ⟨u, us, rfl, hu⟩ := hs
  obtain ⟨m, hm⟩ := h.peek
  obtain ⟨m', hm'⟩ := h.next.peek
  obtain ⟨m'', hm''⟩ := h.next.next.peek
  simp only [read, hm, bind, Except.bind]
  cases u <;> simp [startsNode] at hu <;> simp [pure, Except.pure, hm', hm'']

theorem Front.flow_value (hs : Starts ts) (h : Front r (.value :: ts) known said) :
    read (fuel + 1) .flowValue r =
      read fuel (.node false false) r.next >>= read fuel (.flowEntries false) := by
  obtain ⟨u, us, rfl, hu⟩ := hs
  obtain ⟨m, hm⟩ := h.peek
  obtain ⟨m', hm'⟩ := h.next.peek
  simp only [read, hm, bind, Except.bind]
  cases u <;> simp [startsNode] at hu <;> simp [hm']

theorem Front.block_end_sequence (h : Front r (.blockEnd :: ts) known said) :
    ∃ r', read (fuel + 1) .blockItems r = .ok r' ∧
      Front r' ts known (said ++ [.closeSequence]) := by
  obtain ⟨m, hm⟩ := h.peek
  refine ⟨r.next.push m .closeSequence, ?_, h.next.push m _⟩
  rw [read, hm]
  rfl

theorem Front.block_item (hs : Starts ts) (h : Front r (.blockEntry :: ts) known said) :
    read (fuel + 1) .blockItems r =
      read fuel (.node true false) r.next >>= read fuel .blockItems := by
  obtain ⟨u, us, rfl, hu⟩ := hs
  obtain ⟨m, hm⟩ := h.peek
  obtain ⟨m', hm'⟩ := h.next.peek
  simp only [read, hm, bind, Except.bind]
  cases u <;> simp [startsNode] at hu <;> simp [hm']

theorem Front.block_empty_item (fuel : Nat) (hu : t = .blockEntry ∨ t = .blockEnd)
    (h : Front r (.blockEntry :: t :: ts) known said) :
    ∃ r', read (fuel + 1) .blockItems r = read fuel .blockItems r' ∧
      Front r' (t :: ts) known (said ++ Shape.empty.events known) := by
  obtain ⟨m, hm⟩ := h.peek
  obtain ⟨m', hm'⟩ := h.next.peek
  refine ⟨r.next.pushEmpty m', ?_, h.next.push m' _⟩
  rw [read, hm]
  rcases hu with rfl | rfl <;> simp [hm', bind, Except.bind]

theorem Front.block_end_mapping (h : Front r (.blockEnd :: ts) known said) :
    ∃ r', read (fuel + 1) .blockEntries r = .ok r' ∧
      Front r' ts known (said ++ [.closeMapping]) := by
  obtain ⟨m, hm⟩ := h.peek
  refine ⟨r.next.push m .closeMapping, ?_, h.next.push m _⟩
  rw [read, hm]
  rfl

theorem Front.block_key (hs : Starts ts) (h : Front r (.key :: ts) known said) :
    read (fuel + 1) .blockEntries r =
      read fuel (.node true true) r.next >>= read fuel .blockValue := by
  obtain ⟨u, us, rfl, hu⟩ := hs
  obtain ⟨m, hm⟩ := h.peek
  obtain ⟨m', hm'⟩ := h.next.peek
  simp only [read, hm, bind, Except.bind]
  cases u <;> simp [startsNode] at hu <;> simp [hm']

theorem Front.block_value (hs : Starts ts) (h : Front r (.value :: ts) known said) :
    read (fuel + 1) .blockValue r =
      read fuel (.node true true) r.next >>= read fuel .blockEntries := by
  obtain ⟨u, us, rfl, hu⟩ := hs
  obtain ⟨m, hm⟩ := h.peek
  obtain ⟨m', hm'⟩ := h.next.peek
  simp only [read, hm, bind, Except.bind]
  cases u <;> simp [startsNode] at hu <;> simp [hm']

theorem Front.block_empty_value (fuel : Nat) (hu : t = .key ∨ t = .blockEnd)
    (h : Front r (.value :: t :: ts) known said) :
    ∃ r', read (fuel + 1) .blockValue r = read fuel .blockEntries r' ∧
      Front r' (t :: ts) known (said ++ Shape.empty.events known) := by
  obtain ⟨m, hm⟩ := h.peek
  obtain ⟨m', hm'⟩ := h.next.peek
  refine ⟨r.next.pushEmpty m', ?_, h.next.push m' _⟩
  rw [read, hm]
  rcases hu with rfl | rfl <;> simp [hm', bind, Except.bind]

/-- A node that is a collection is read as its opening and then its members. -/
theorem Front.collection (hf : IsSpelledTag f.tag) {part : Part} {e : String → Option Anchor → Event}
    (ht : isProperty t = false) (hal : ∀ name, t ≠ .alias name)
    (hcontent : ∀ {r m p}, r.peek = .ok ⟨m, t⟩ → read (fuel + 1) (.content inBlock flush p) r =
      read fuel part (r.next.push m (e (p.tag.getD "") p.anchor)))
    (h : Front r (f.properties ++ t :: ts) known said) :
    ∃ r', read (fuel + 2) (.node inBlock flush) r = read fuel part r' ∧
      Front r' ts (nameAnchor known f.anchor) (said ++ [e f.tag (nextAnchor known f.anchor)]) := by
  obtain ⟨p, r₁, hread, hr₁⟩ := h.node hf ht hal
  obtain ⟨m, hm⟩ := hr₁.front.peek
  refine ⟨_, hread.trans (hcontent hm), ?_⟩
  rw [hr₁.tag, hr₁.anchor]
  exact hr₁.front.next.push m _

theorem Front.flow_sequence (hf : IsSpelledTag f.tag)
    (h : Front r (f.properties ++ .flowSequenceStart :: ts) known said) :
    ∃ r', read (fuel + 2) (.node inBlock flush) r = read fuel (.flowItems true) r' ∧
      Front r' ts (nameAnchor known f.anchor)
        (said ++ [.openSequence f.tag (nextAnchor known f.anchor)]) :=
  h.collection hf rfl (by simp) fun hm => by rw [read, hm]; rfl

theorem Front.flow_mapping (hf : IsSpelledTag f.tag)
    (h : Front r (f.properties ++ .flowMappingStart :: ts) known said) :
    ∃ r', read (fuel + 2) (.node inBlock flush) r = read fuel (.flowEntries true) r' ∧
      Front r' ts (nameAnchor known f.anchor)
        (said ++ [.openMapping f.tag (nextAnchor known f.anchor)]) :=
  h.collection hf rfl (by simp) fun hm => by rw [read, hm]; rfl

theorem Front.block_sequence (hf : IsSpelledTag f.tag)
    (h : Front r (f.properties ++ .blockSequenceStart :: ts) known said) :
    ∃ r', read (fuel + 2) (.node true flush) r = read fuel .blockItems r' ∧
      Front r' ts (nameAnchor known f.anchor)
        (said ++ [.openSequence f.tag (nextAnchor known f.anchor)]) :=
  h.collection hf rfl (by simp) fun hm => by rw [read, hm]; rfl

theorem Front.block_mapping (hf : IsSpelledTag f.tag)
    (h : Front r (f.properties ++ .blockMappingStart :: ts) known said) :
    ∃ r', read (fuel + 2) (.node true flush) r = read fuel .blockEntries r' ∧
      Front r' ts (nameAnchor known f.anchor)
        (said ++ [.openMapping f.tag (nextAnchor known f.anchor)]) :=
  h.collection hf rfl (by simp) fun hm => by rw [read, hm]; rfl

/-! #### Whole shapes -/

theorem starts_properties (hf : IsSpelledTag f.tag) (ht : startsNode t = true) :
    Starts (f.properties ++ t :: ts) := by
  rw [Face.properties]
  cases f.anchor with
  | some a => exact ⟨.anchor a, tagWords f.tag ++ t :: ts, rfl, rfl⟩
  | none =>
    rcases tagWords_cases hf with ⟨-, hw⟩ | ⟨handle, suffix, hw, -⟩
    · exact ⟨t, ts, by rw [hw]; rfl, ht⟩
    · exact ⟨.tag handle suffix, t :: ts, by rw [hw]; rfl, rfl⟩

theorem starts_scalar {w : List Token} (hw : Shape.SpellsScalar f w) : Starts (w ++ ts) := by
  cases hw with
  | written hf =>
    rw [List.append_assoc]
    exact starts_properties hf rfl
  | bare hf _ hne =>
    rw [Face.properties] at hne ⊢
    cases ha : f.anchor with
    | some a => exact ⟨.anchor a, tagWords f.tag ++ ts, rfl, rfl⟩
    | none =>
      rcases tagWords_cases hf with ⟨-, hw⟩ | ⟨handle, suffix, hw, -⟩
      · simp [ha, hw] at hne
      · exact ⟨.tag handle suffix, ts, by rw [hw]; rfl, rfl⟩

theorem starts_key {k : Key} {w : List Token} (hw : Shape.SpellsKey known k w) :
    Starts (w ++ ts) := by
  cases hw with
  | scalar hw => exact starts_scalar hw
  | «alias» _ => exact ⟨_, _, rfl, rfl⟩

theorem starts_node {s : Shape} {w : List Token} (hs : Shape.Spells inBlock known s w) :
    Starts (w ++ ts) := by
  cases hs with
  | scalar hw => exact starts_scalar hw
  | «alias» _ => exact ⟨_, _, rfl, rfl⟩
  | flowSequence hf _ | flowMapping hf _ | blockSequence hf _ | blockMapping hf _ =>
    rw [List.append_assoc]
    exact starts_properties hf rfl

theorem Starts.length_pos {w : List Token} (h : Starts (w ++ [])) : 0 < w.length := by
  obtain ⟨u, us, hw, -⟩ := h
  rw [List.append_nil] at hw
  simp [hw]

theorem length_pos_of_spellsKey {k : Key} {w : List Token} (hw : Shape.SpellsKey known k w) :
    0 < w.length :=
  Starts.length_pos (starts_key hw)

theorem length_pos_of_spells {s : Shape} {w : List Token} (hs : Shape.Spells inBlock known s w) :
    0 < w.length :=
  Starts.length_pos (starts_node hs)

/-! What follows a member. -/

theorem flow_members_front (ws : List (List Token)) (ts : List Token)
    (ht : endsNode false t = true) :
    ∃ u us, ws.flatMap (.flowEntry :: ·) ++ t :: ts = u :: us ∧ endsNode false u = true := by
  cases ws with
  | nil => exact ⟨t, ts, rfl, ht⟩
  | cons w ws => exact ⟨.flowEntry, _, rfl, rfl⟩

theorem items_front {items : List Shape} {w : List Token}
    (hs : Shape.SpellsItems known items w) (ts : List Token) :
    ∃ u us, w ++ .blockEnd :: ts = u :: us ∧ (u = .blockEntry ∨ u = .blockEnd) := by
  cases hs with
  | nil => exact ⟨_, _, rfl, .inr rfl⟩
  | empty _ => exact ⟨_, _, rfl, .inl rfl⟩
  | cons _ _ => exact ⟨_, _, rfl, .inl rfl⟩

theorem entries_front {entries : List (Key × Shape)} {w : List Token}
    (hs : Shape.SpellsEntries known entries w) (ts : List Token) :
    ∃ u us, w ++ .blockEnd :: ts = u :: us ∧ (u = .key ∨ u = .blockEnd) := by
  cases hs with
  | nil => exact ⟨_, _, rfl, .inr rfl⟩
  | empty _ _ => exact ⟨_, _, rfl, .inl rfl⟩
  | cons _ _ _ => exact ⟨_, _, rfl, .inl rfl⟩

mutual

/-- A reader in front of the words of a node passes them and says the events of the node. -/
theorem reads_node : ∀ (fuel : Nat) (flush : Bool) {inBlock : Bool} {known : List Anchor}
    {s : Shape} {w : List Token} {r : EventReader} {t : Token} {ts : List Token}
    {said : List Event}, Shape.Spells inBlock known s w → 2 * w.length ≤ fuel →
    endsNode flush t = true → Front r (w ++ t :: ts) known said →
    ∃ r', read fuel (.node inBlock flush) r = .ok r' ∧
      Front r' (t :: ts) (s.anchors known) (said ++ s.events known) := by
  intro fuel flush inBlock known s w r t ts said hs hfuel ht h
  obtain ⟨fuel, rfl⟩ : ∃ k, fuel = k + 2 :=
    ⟨fuel - 2, by have := length_pos_of_spells hs; omega⟩
  cases hs with
  | scalar hw => exact h.read_scalar hw ht
  | «alias» hn => exact h.read_alias hn
  | @flowSequence _ _ _ _ ws hf hitems =>
    simp only [List.append_assoc, List.cons_append, List.nil_append] at h
    simp only [List.length_append, List.length_cons] at hfuel
    have hlen : 2 * (commas ws).length + 1 ≤ fuel := by omega
    obtain ⟨r₁, hr₁, h₁⟩ := h.flow_sequence hf
    obtain ⟨r₂, hr₂, h₂⟩ := reads_flow_items fuel hitems hlen h₁
    exact ⟨r₂, hr₁.trans hr₂, by simpa [Shape.anchors, Shape.events] using h₂⟩
  | @flowMapping _ _ _ _ ws hf hentries =>
    simp only [List.append_assoc, List.cons_append, List.nil_append] at h
    simp only [List.length_append, List.length_cons] at hfuel
    have hlen : 2 * (commas ws).length + 1 ≤ fuel := by omega
    obtain ⟨r₁, hr₁, h₁⟩ := h.flow_mapping hf
    obtain ⟨r₂, hr₂, h₂⟩ := reads_flow_entries fuel hentries hlen h₁
    exact ⟨r₂, hr₁.trans hr₂, by simpa [Shape.anchors, Shape.events] using h₂⟩
  | @blockSequence _ _ _ ws hf hitems =>
    simp only [List.append_assoc, List.cons_append, List.nil_append] at h
    simp only [List.length_append, List.length_cons] at hfuel
    have hlen : 2 * ws.length + 1 ≤ fuel := by omega
    obtain ⟨r₁, hr₁, h₁⟩ := h.block_sequence hf
    obtain ⟨r₂, hr₂, h₂⟩ := reads_items fuel hitems hlen h₁
    exact ⟨r₂, hr₁.trans hr₂, by simpa [Shape.anchors, Shape.events] using h₂⟩
  | @blockMapping _ _ _ ws hf hentries =>
    simp only [List.append_assoc, List.cons_append, List.nil_append] at h
    simp only [List.length_append, List.length_cons] at hfuel
    have hlen : 2 * ws.length + 1 ≤ fuel := by omega
    obtain ⟨r₁, hr₁, h₁⟩ := h.block_mapping hf
    obtain ⟨r₂, hr₂, h₂⟩ := reads_entries fuel hentries hlen h₁
    exact ⟨r₂, hr₁.trans hr₂, by simpa [Shape.anchors, Shape.events] using h₂⟩

theorem reads_flow_items : ∀ (fuel : Nat) {known : List Anchor} {items : List Shape}
    {ws : List (List Token)} {r : EventReader} {ts : List Token} {said : List Event},
    Shape.SpellsFlowItems known items ws → 2 * (commas ws).length + 1 ≤ fuel →
    Front r (commas ws ++ .flowSequenceEnd :: ts) known said →
    ∃ r', read fuel (.flowItems true) r = .ok r' ∧
      Front r' ts (Shape.anchorsItems known items)
        (said ++ Shape.eventsItems known items ++ [.closeSequence]) := by
  intro fuel known items ws r ts said hs hfuel h
  obtain ⟨fuel, rfl⟩ : ∃ k, fuel = k + 1 := ⟨fuel - 1, by omega⟩
  cases hs with
  | nil => simpa [Shape.anchorsItems, Shape.eventsItems] using h.flow_end_sequence
  | @cons _ s rest w ws hs hrest =>
    simp only [commas, List.append_assoc, List.length_append] at h hfuel
    have hpos := length_pos_of_spells hs
    obtain ⟨u, us, hu, hends⟩ := flow_members_front ws ts (t := .flowSequenceEnd) rfl
    obtain ⟨r₁, hr₁, h₁⟩ := reads_node fuel false hs (by omega) hends (hu ▸ h)
    obtain ⟨r₂, hr₂, h₂⟩ := reads_flow_later fuel hrest (by omega) (hu ▸ h₁)
    refine ⟨r₂, ?_, by simpa [Shape.anchorsItems, Shape.eventsItems] using h₂⟩
    rw [h.flow_first_item (starts_node hs), bind_ok hr₁, hr₂]

theorem reads_flow_later : ∀ (fuel : Nat) {known : List Anchor} {items : List Shape}
    {ws : List (List Token)} {r : EventReader} {ts : List Token} {said : List Event},
    Shape.SpellsFlowItems known items ws →
    2 * (ws.flatMap (.flowEntry :: ·)).length + 1 ≤ fuel →
    Front r (ws.flatMap (.flowEntry :: ·) ++ .flowSequenceEnd :: ts) known said →
    ∃ r', read fuel (.flowItems false) r = .ok r' ∧
      Front r' ts (Shape.anchorsItems known items)
        (said ++ Shape.eventsItems known items ++ [.closeSequence]) := by
  intro fuel known items ws r ts said hs hfuel h
  obtain ⟨fuel, rfl⟩ : ∃ k, fuel = k + 1 := ⟨fuel - 1, by omega⟩
  cases hs with
  | nil => simpa [Shape.anchorsItems, Shape.eventsItems] using h.flow_end_sequence
  | @cons _ s rest w ws hs hrest =>
    simp only [List.flatMap_cons, List.append_assoc, List.length_append, List.cons_append,
      List.length_cons] at h hfuel
    obtain ⟨u, us, hu, hends⟩ := flow_members_front ws ts (t := .flowSequenceEnd) rfl
    obtain ⟨r₁, hr₁, h₁⟩ := reads_node fuel false hs (by omega) hends (hu ▸ h.next)
    obtain ⟨r₂, hr₂, h₂⟩ := reads_flow_later fuel hrest (by omega) (hu ▸ h₁)
    refine ⟨r₂, ?_, by simpa [Shape.anchorsItems, Shape.eventsItems] using h₂⟩
    rw [h.flow_item (starts_node hs), bind_ok hr₁, hr₂]

theorem reads_flow_entries : ∀ (fuel : Nat) {known : List Anchor} {entries : List (Key × Shape)}
    {ws : List (List Token)} {r : EventReader} {ts : List Token} {said : List Event},
    Shape.SpellsFlowEntries known entries ws → 2 * (commas ws).length + 1 ≤ fuel →
    Front r (commas ws ++ .flowMappingEnd :: ts) known said →
    ∃ r', read fuel (.flowEntries true) r = .ok r' ∧
      Front r' ts (Shape.anchorsEntries known entries)
        (said ++ Shape.eventsEntries known entries ++ [.closeMapping]) := by
  intro fuel known entries ws r ts said hs hfuel h
  obtain ⟨fuel, rfl⟩ : ∃ k, fuel = k + 1 := ⟨fuel - 1, by omega⟩
  cases hs with
  | nil => simpa [Shape.anchorsEntries, Shape.eventsEntries] using h.flow_end_mapping
  | @cons _ k s rest u w ws hk hs hrest =>
    simp only [commas, List.append_assoc, List.cons_append, List.length_append,
      List.length_cons] at h hfuel
    rw [h.flow_first_key (starts_key hk)]
    exact reads_flow_entry fuel hk hs hrest (by omega) h.next

theorem reads_flow_later_entries : ∀ (fuel : Nat) {known : List Anchor}
    {entries : List (Key × Shape)} {ws : List (List Token)} {r : EventReader} {ts : List Token}
    {said : List Event}, Shape.SpellsFlowEntries known entries ws →
    2 * (ws.flatMap (.flowEntry :: ·)).length + 1 ≤ fuel →
    Front r (ws.flatMap (.flowEntry :: ·) ++ .flowMappingEnd :: ts) known said →
    ∃ r', read fuel (.flowEntries false) r = .ok r' ∧
      Front r' ts (Shape.anchorsEntries known entries)
        (said ++ Shape.eventsEntries known entries ++ [.closeMapping]) := by
  intro fuel known entries ws r ts said hs hfuel h
  obtain ⟨fuel, rfl⟩ : ∃ k, fuel = k + 1 := ⟨fuel - 1, by omega⟩
  cases hs with
  | nil => simpa [Shape.anchorsEntries, Shape.eventsEntries] using h.flow_end_mapping
  | @cons _ k s rest u w ws hk hs hrest =>
    simp only [List.flatMap_cons, List.append_assoc, List.length_append, List.cons_append,
      List.length_cons] at h hfuel
    rw [h.flow_key (starts_key hk)]
    exact reads_flow_entry fuel hk hs hrest (by omega) h.next.next

/-- A key and its value between brackets are read, and the entries behind them. -/
theorem reads_flow_entry : ∀ (fuel : Nat) {known : List Anchor} {k : Key} {s : Shape}
    {rest : List (Key × Shape)} {u w : List Token} {ws : List (List Token)} {r : EventReader}
    {ts : List Token} {said : List Event}, Shape.SpellsKey known k u →
    Shape.Spells false (Shape.keyAnchors known k) s w →
    Shape.SpellsFlowEntries ((s.anchors (Shape.keyAnchors known k))) rest ws →
    2 * (u.length + w.length + (ws.flatMap (.flowEntry :: ·)).length) + 2 ≤ fuel →
    Front r (u ++ .value :: (w ++ (ws.flatMap (.flowEntry :: ·) ++ .flowMappingEnd :: ts)))
      known said →
    ∃ r', (read fuel (.node false false) r >>= read fuel .flowValue) = .ok r' ∧
      Front r' ts (Shape.anchorsEntries known ((k, s) :: rest))
        (said ++ Shape.eventsEntries known ((k, s) :: rest) ++ [.closeMapping]) := by
  intro fuel known k s rest u w ws r ts said hk hs hrest hfuel h
  obtain ⟨fuel, rfl⟩ : ∃ n, fuel = n + 2 := ⟨fuel - 2, by omega⟩
  have hkey := length_pos_of_spellsKey hk
  obtain ⟨r₁, hr₁, h₁⟩ := h.read_key fuel hk rfl
  obtain ⟨v, vs, hv, hends⟩ := flow_members_front ws ts (t := .flowMappingEnd) rfl
  obtain ⟨r₂, hr₂, h₂⟩ := reads_node (fuel + 1) false hs (by omega) hends (hv ▸ h₁.next)
  obtain ⟨r₃, hr₃, h₃⟩ := reads_flow_later_entries (fuel + 1) hrest (by omega) (hv ▸ h₂)
  refine ⟨r₃, ?_, by simpa [Shape.anchorsEntries, Shape.eventsEntries] using h₃⟩
  rw [bind_ok hr₁, h₁.flow_value (starts_node hs), bind_ok hr₂, hr₃]

theorem reads_items : ∀ (fuel : Nat) {known : List Anchor} {items : List Shape} {w : List Token}
    {r : EventReader} {ts : List Token} {said : List Event},
    Shape.SpellsItems known items w → 2 * w.length + 1 ≤ fuel →
    Front r (w ++ .blockEnd :: ts) known said →
    ∃ r', read fuel .blockItems r = .ok r' ∧
      Front r' ts (Shape.anchorsItems known items)
        (said ++ Shape.eventsItems known items ++ [.closeSequence]) := by
  intro fuel known items w r ts said hs hfuel h
  obtain ⟨fuel, rfl⟩ : ∃ k, fuel = k + 1 := ⟨fuel - 1, by omega⟩
  cases hs with
  | nil => simpa [Shape.anchorsItems, Shape.eventsItems] using h.block_end_sequence
  | empty hrest =>
    simp only [List.cons_append, List.length_cons] at h hfuel
    obtain ⟨u, us, hu, hends⟩ := items_front hrest ts
    rw [hu] at h
    obtain ⟨r₁, hr₁, h₁⟩ := h.block_empty_item fuel hends
    obtain ⟨r₂, hr₂, h₂⟩ := reads_items fuel hrest (by omega) (hu ▸ h₁)
    exact ⟨r₂, hr₁.trans hr₂, by
      simpa [Shape.anchorsItems, Shape.eventsItems, Shape.anchors_empty] using h₂⟩
  | cons hs hrest =>
    simp only [List.cons_append, List.append_assoc, List.length_cons, List.length_append] at h hfuel
    obtain ⟨u, us, hu, hends⟩ := items_front hrest ts
    obtain ⟨r₁, hr₁, h₁⟩ := reads_node fuel false hs (by omega)
      (by rcases hends with rfl | rfl <;> rfl) (hu ▸ h.next)
    obtain ⟨r₂, hr₂, h₂⟩ := reads_items fuel hrest (by omega) (hu ▸ h₁)
    refine ⟨r₂, ?_, by simpa [Shape.anchorsItems, Shape.eventsItems] using h₂⟩
    rw [h.block_item (starts_node hs), bind_ok hr₁, hr₂]

theorem reads_entries : ∀ (fuel : Nat) {known : List Anchor} {entries : List (Key × Shape)}
    {w : List Token} {r : EventReader} {ts : List Token} {said : List Event},
    Shape.SpellsEntries known entries w → 2 * w.length + 1 ≤ fuel →
    Front r (w ++ .blockEnd :: ts) known said →
    ∃ r', read fuel .blockEntries r = .ok r' ∧
      Front r' ts (Shape.anchorsEntries known entries)
        (said ++ Shape.eventsEntries known entries ++ [.closeMapping]) := by
  intro fuel known entries w r ts said hs hfuel h
  obtain ⟨fuel, rfl⟩ : ∃ k, fuel = k + 1 := ⟨fuel - 1, by omega⟩
  cases hs with
  | nil => simpa [Shape.anchorsEntries, Shape.eventsEntries] using h.block_end_mapping
  | empty hk hrest =>
    simp only [List.cons_append, List.append_assoc, List.length_cons, List.length_append] at h hfuel
    have hkey := length_pos_of_spellsKey hk
    obtain ⟨fuel, rfl⟩ : ∃ n, fuel = n + 2 := ⟨fuel - 2, by omega⟩
    obtain ⟨v, vs, hv, hends⟩ := entries_front hrest ts
    obtain ⟨r₁, hr₁, h₁⟩ := h.next.read_key fuel hk rfl
    rw [hv] at h₁
    obtain ⟨r₂, hr₂, h₂⟩ := h₁.block_empty_value (fuel + 1) hends
    obtain ⟨r₃, hr₃, h₃⟩ := reads_entries (fuel + 1) hrest (by omega) (hv ▸ h₂)
    refine ⟨r₃, ?_, by
      simpa [Shape.anchorsEntries, Shape.eventsEntries, Shape.anchors_empty] using h₃⟩
    rw [h.block_key (starts_key hk), bind_ok hr₁, hr₂, hr₃]
  | cons hk hs hrest =>
    simp only [List.cons_append, List.append_assoc, List.length_cons, List.length_append] at h hfuel
    have hkey := length_pos_of_spellsKey hk
    obtain ⟨fuel, rfl⟩ : ∃ n, fuel = n + 2 := ⟨fuel - 2, by omega⟩
    obtain ⟨v, vs, hv, hends⟩ := entries_front hrest ts
    obtain ⟨r₁, hr₁, h₁⟩ := h.next.read_key fuel hk rfl
    obtain ⟨r₂, hr₂, h₂⟩ := reads_node (fuel + 1) true hs (by omega)
      (by rcases hends with rfl | rfl <;> rfl) (hv ▸ h₁.next)
    obtain ⟨r₃, hr₃, h₃⟩ := reads_entries (fuel + 1) hrest (by omega) (hv ▸ h₂)
    refine ⟨r₃, ?_, by simpa [Shape.anchorsEntries, Shape.eventsEntries] using h₃⟩
    rw [h.block_key (starts_key hk), bind_ok hr₁, h₁.block_value (starts_node hs), bind_ok hr₂, hr₃]

end

theorem Front.document {s : Shape} {w : List Token} (hs : Shape.Spells true [] s w)
    (h : Front r (w ++ [.textEnd]) [] []) :
    ∃ r', r.document = .ok r' ∧ (r'.events.map (·.item)).reverse = s.events [] := by
  obtain ⟨u, us, hu, hstart⟩ : Starts (w ++ [.textEnd]) := starts_node hs
  have hskip : r.skipDocumentEnds = r := by
    obtain ⟨m, ms, hr, hm, -⟩ := List.map_eq_cons_iff.mp (h.tokens.trans hu)
    have hne : (m.item == Token.documentEnd) = false := by
      rw [hm]
      cases u <;> simp [startsNode] at hstart <;> rfl
    rw [skipDocumentEnds, hr, List.dropWhile_cons_of_neg (by simp [hne]), ← hr]
  have hlen : r.tokens.length = w.length + 1 := by
    have := congrArg List.length h.tokens
    simpa using this
  obtain ⟨r₁, hr₁, h₁⟩ := reads_node (4 * r.tokens.length + 4) false hs (by omega) rfl h
  have hend : r₁.endDocument = .ok r₁ := by
    obtain ⟨m, hm⟩ := h₁.peek
    rw [endDocument, hm]
    rfl
  refine ⟨r₁, ?_, by simpa using h₁.events⟩
  rw [hu] at h
  obtain ⟨m, hm⟩ := h.peek
  rw [EventReader.document, hskip, hm]
  cases u <;> simp [startsNode] at hstart <;> simp [bind, Except.bind, hr₁, hend]

end EventReader

/-- A text that is read as the words of a shape says its events. -/
theorem Scan.events_of_spells {s : Shape} {w : List Token} {scan : Scan}
    (hs : Shape.Spells true [] s w) (h : scan.tokens.map (·.item) = w ++ [.textEnd]) :
    ∃ es, scan.namedEvents = .ok es ∧ es.map (·.item) = s.events [] := by
  have hfront : EventReader.Front ⟨scan.tokens, scan.stop, [], [], []⟩ (w ++ [.textEnd]) [] [] :=
    ⟨h, rfl, rfl, rfl⟩
  obtain ⟨r', hr', hsaid⟩ := hfront.document hs
  refine ⟨r'.events.reverse, ?_, by rw [← hsaid, List.map_reverse]⟩
  rw [Scan.namedEvents_eq, hr']
  rfl

end TaggedYaml
