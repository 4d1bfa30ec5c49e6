import TaggedYaml.Proofs.Scan.Names
import TaggedYaml.Proofs.Tree.Bindings
import TaggedYaml.Proofs.Tree.RoundTrip
import TaggedYaml.Proofs.Tree.Tags
import TaggedYaml.Proofs.Tree.Ties

/-!
# Legible — trees of texts that read back with their names and tags

The names in a text that was read are names again (`isName_of_read`).  If the tags of a tree are written
as they are read, and if no alias leads to a node that is written without its names, then its shape reads
back with all its labels (`legible_of_read`).
-/

namespace TaggedYaml

/-- A tag that is read again as it is written: a `!` and no second one, no escape and no indicator. -/
def IsShorthand (tag : String) : Prop := ∃ suffix, tag.toList = '!' :: suffix ∧ IsSuffix suffix

theorem isShorthand_iff {tag : String} : IsShorthand tag ↔ (tag.toList.head? == some '!' &&
    tag.toList.tail.all fun c => isTagChar c && c != '%') = true := by
  rw [Bool.and_eq_true, List.all_eq_true]
  constructor
  · rintro ⟨suffix, htag, hs⟩
    rw [htag]
    exact ⟨rfl, fun c hc => by simpa using hs c hc⟩
  · rintro ⟨hhead, htail⟩
    have hhead : tag.toList.head? = some '!' := by simpa using hhead
    exact ⟨_, (List.cons_head?_tail hhead).symm, fun c hc => by simpa using htail c hc⟩

instance (tag : String) : Decidable (IsShorthand tag) := decidable_of_iff _ isShorthand_iff.symm

namespace Tree

variable {t : Tree} {maxDepth : Nat} {text : String} {id : NodeId} {n : Node}

/-! ### Names -/

theorem exists_event_of_mem : ∀ {es : List (Marked Event)} {next : NodeId}
    {bound : List (Nat × NodeId)}, n ∈ nodesFrom next bound es →
    ∃ e ∈ es, ∃ bound', e.node? bound' = some n
  | [], _, _, h => by cases h
  | e :: es, _, _, h => by
    rcases List.mem_append.mp h with h | h
    · exact ⟨e, List.mem_cons_self, _, by simpa using h⟩
    · obtain ⟨e', he', hn⟩ := exists_event_of_mem h
      exact ⟨e', List.mem_cons_of_mem _ he', hn⟩

/-- A node of a text is the document or comes from an event. -/
theorem event_of_read (h : read maxDepth text = .ok t) (hn : t.get? id = some n) :
    n.bare = { kind := .document } ∨
      ∃ (e : Marked Event) (bound : List (Nat × NodeId)), e.node? bound = some n.bare := by
  obtain ⟨es, -, ht⟩ := exists_of_read h
  have hbare : n.bare ∈ t.bares := by
    refine List.mem_of_getElem? (i := id) ?_
    rw [getElem?_bares, hn]
    rfl
  rw [bares_ofEvents ht] at hbare
  rcases List.mem_cons.mp hbare with hb | hb
  · exact .inl hb
  · obtain ⟨e, -, bound, he⟩ := exists_event_of_mem hb
    exact .inr ⟨e, bound, he⟩

/-- An alias has no tag. -/
theorem hasOwnTag_alias (h : read maxDepth text = .ok t) (hn : t.get? id = some n)
    (hk : n.kind = .alias) : n.hasOwnTag = false := by
  rcases event_of_read h hn with hb | ⟨⟨mark, e⟩, bound, he⟩
  · have hkind : n.kind = .document := congrArg Node.kind hb
    rw [hk] at hkind
    cases hkind
  · have htag : n.tag = "" := by
      cases e with
      | «alias» a => exact (congrArg Node.tag (Option.some.inj he)).symm
      | closeSequence => cases he
      | closeMapping => cases he
      | _ => cases (congrArg Node.kind (Option.some.inj he)).trans hk
    rw [Node.hasOwnTag, htag]
    rfl

/-- A node with an anchor is no alias. -/
theorem kind_of_anchor (h : read maxDepth text = .ok t) (hn : t.get? id = some n) {name : String}
    (ha : n.anchor = some name) : n.kind ≠ .alias := by
  rcases event_of_read h hn with hb | ⟨e, bound, he⟩
  · have hanchor : n.anchor = none := congrArg Node.anchor hb
    rw [ha] at hanchor
    cases hanchor
  · have hanchor : some name = e.item.anchor?.map (·.name) :=
      ha.symm.trans (Marked.anchor_of_node? (n := n.bare) he)
    obtain ⟨c, hc, -⟩ := Option.map_eq_some_iff.mp hanchor.symm
    exact (Builder.kind_of_anchor he hc).1

theorem isName_anchor (h : read maxDepth text = .ok t) (hn : t.get? id = some n) {name : String}
    (ha : n.anchor = some name) : IsName name.toList := by
  obtain ⟨es, hes, ht⟩ := exists_of_read h
  have hmem : name ∈ (Event.anchors (es.map (·.item))).map (·.name) := by
    rw [← names_ofEvents ht]
    refine List.mem_filterMap.mpr ⟨n, ?_, ha⟩
    exact List.mem_of_getElem? (i := id) (by simpa [get?] using hn)
  obtain ⟨tok, htok, hname⟩ := List.mem_filterMap.mp ((Scan.names_events hes).subset hmem)
  have hnamed := named_of_mem_scan htok
  obtain ⟨mark, tok⟩ := tok
  cases tok with
  | anchor name' =>
    obtain rfl := Option.some.inj hname
    exact hnamed
  | _ => cases hname

theorem isName_alias (h : read maxDepth text = .ok t) (hn : t.get? id = some n)
    (hk : n.kind = .alias) : IsName n.value.toList := by
  obtain ⟨r, -, hlatest⟩ := latest_of_read h hn hk
  obtain ⟨m, hm, -, ha⟩ := hlatest.node
  exact isName_anchor h hm ha

/-! ### Shapes -/

/-- What is written of a tree can be read again: names are names, tags are written as they are read, and
no key is too long. -/
structure Legible (t : Tree) : Prop where
  anchors : ∀ id n name, t.Shown id → t.get? id = some n → n.anchor = some name → IsName name.toList
  aliases : ∀ id n, t.Shown id → t.get? id = some n → n.kind = .alias → IsName n.value.toList
  tags : ∀ id n, t.Shown id → t.get? id = some n → n.kind ≠ .alias → n.hasOwnTag = true →
    IsShorthand n.tag
  keys : t.ShortKeys

theorem WritesValue.shown (h : t.WritesValue id) : t.Shown id := by
  induction h with
  | root hv => exact .value hv
  | item _ hn hk hc ih => exact .item ih hn hk (by simpa using hc)
  | value _ hn hk hp ih => exact .entry ih hn hk hp

theorem Legible.face (h : t.Legible) (hs : t.Shown id) (hn : t.get? id = some n)
    (hk : n.kind ≠ .alias) : n.face.Legible :=
  ⟨fun a ha => h.anchors id n a hs hn ha, fun htag => h.tags id n hs hn hk htag⟩

theorem isSome_aliasAnchor? {known : List Anchor} {name : String} (h : name ∈ known.map (·.name)) :
    (aliasAnchor? known name).isSome := by
  obtain ⟨a, ha, hname⟩ := List.mem_map.mp h
  rw [aliasAnchor?, List.find?_isSome]
  exact ⟨a, ha, by simpa using hname⟩

theorem Legible.key (h : t.Legible) {known : List Anchor} {k : Key} (hw : t.WritesKey id)
    (hs : ∀ n, t.get? id = some n → n.kind = .scalar ∨ n.kind = .alias → t.Shown id)
    (hd : DenotesKey t id k) (ht : Tie.Tied (known.map (·.name)) k.ties) : k.Legible known := by
  refine ⟨h.keys id _ hw (writeKey_eq_ok.mpr ⟨k, hd, rfl⟩), ?_⟩
  cases k with
  | scalar f =>
    obtain ⟨n, hn, hk, rfl⟩ := hd
    exact h.face (hs n hn (.inl hk)) hn (by rw [hk]; decide)
  | «alias» name text =>
    obtain ⟨n, r, m, hn, hk, rfl, -⟩ := hd
    exact ⟨h.aliases id n (hs n hn (.inr hk)) hn hk, isSome_aliasAnchor? ht.1⟩
  | other text => trivial

mutual

/-- A shape whose aliases stand behind their anchors reads back. -/
theorem legible_of_denotes (h : t.Legible) : ∀ {s : Shape} {id : NodeId} {known : List Anchor},
    t.WritesValue id → Denotes t id s → Tie.Tied (known.map (·.name)) s.ties → s.Legible known
  | .scalar f, id, known, hw, hd, _ => by
    obtain ⟨n, hn, hk, rfl⟩ := hd
    exact h.face hw.shown hn (by rw [hk]; decide)
  | .alias name, id, known, hw, hd, ht => by
    obtain ⟨n, hn, hk, rfl, -⟩ := hd
    exact ⟨h.aliases id n hw.shown hn hk, isSome_aliasAnchor? ht.1⟩
  | .sequence f items, id, known, hw, hd, ht => by
    obtain ⟨n, hn, hk, rfl, hitems⟩ := hd
    rw [Shape.ties, Tie.tied_append, Shape.after_face] at ht
    refine ⟨h.face hw.shown hn (by rw [hk]; decide),
      legibleItems_of_denotes h (fun c hc => ?_) hitems ht.2⟩
    exact .item hw hn hk (by simpa using hc)
  | .mapping f entries, id, known, hw, hd, ht => by
    obtain ⟨n, hn, hk, rfl, hentries⟩ := hd
    rw [Shape.ties, Tie.tied_append, Shape.after_face] at ht
    refine ⟨h.face hw.shown hn (by rw [hk]; decide), legibleEntries_of_denotes h
      (fun k v hkv => ⟨⟨id, n, v, hw, hn, hk, hkv⟩, fun m hm => .key hw.shown hn hk hkv hm⟩)
      (fun k v hkv => .value hw hn hk hkv) hentries ht.2⟩

theorem legibleItems_of_denotes (h : t.Legible) : ∀ {items : List Shape} {ids : List NodeId}
    {known : List Anchor}, (∀ c ∈ ids, t.WritesValue c) → DenotesItems t ids items →
    Tie.Tied (known.map (·.name)) (Shape.tiesItems items) → Shape.LegibleItems known items
  | [], _, _, _, _, _ => trivial
  | s :: rest, _, known, hw, hd, ht => by
    obtain ⟨id, ids, rfl, hd, hrest⟩ := hd
    rw [Shape.tiesItems, Tie.tied_append, Shape.after_ties] at ht
    exact ⟨legible_of_denotes h (hw id List.mem_cons_self) hd ht.1,
      legibleItems_of_denotes h (fun c hc => hw c (List.mem_cons_of_mem _ hc)) hrest ht.2⟩

theorem legibleEntries_of_denotes (h : t.Legible) : ∀ {entries : List (Key × Shape)}
    {pairs : List (NodeId × Option NodeId)} {known : List Anchor},
    (∀ k v, (k, v) ∈ pairs → t.WritesKey k ∧
      ∀ m, t.get? k = some m → m.kind = .scalar ∨ m.kind = .alias → t.Shown k) →
    (∀ k v, (k, some v) ∈ pairs → t.WritesValue v) → DenotesEntries t pairs entries →
    Tie.Tied (known.map (·.name)) (Shape.tiesEntries entries) → Shape.LegibleEntries known entries
  | [], _, _, _, _, _, _ => trivial
  | (k, s) :: rest, _, known, hkeys, hvalues, hd, ht => by
    obtain ⟨i, v, pairs, rfl, hk, hv, hnone, hrest⟩ := hd
    rw [Shape.tiesEntries, Tie.tied_append, Tie.tied_append, Shape.after_key, Shape.after_ties] at ht
    obtain ⟨hwritten, hshown⟩ := hkeys i v List.mem_cons_self
    have hshape : s.Legible (Shape.keyAnchors known k) := by
      cases v with
      | none =>
        rw [hnone rfl]
        exact (Face.unadorned_plainly "" .plain).legible
      | some v => exact legible_of_denotes h (hvalues i v List.mem_cons_self) (hv v rfl) ht.2.1
    exact ⟨h.key hwritten hshown hk ht.1, hshape,
      legibleEntries_of_denotes h (fun k v hkv => hkeys k v (List.mem_cons_of_mem _ hkv))
        (fun k v hkv => hvalues k v (List.mem_cons_of_mem _ hkv)) hrest ht.2.2⟩

end

/-- Every alias that is written stands behind an anchor of its name. -/
def AnchorsFirst (t : Tree) (maxDepth : Nat) : Prop :=
  ∀ before a name behind, t.writePieces maxDepth = .ok (before ++ .alias a name :: behind) →
    ∃ r, .anchor r name ∈ before

/-- The shape of a tree reads back, if its names and tags do and its anchors come first. -/
theorem Legible.shape (h : t.Legible) (hfirst : t.AnchorsFirst maxDepth) {s : Shape}
    (hv : t.rootValue? = some id) (hd : Denotes t id s) (hroom : s.height ≤ maxDepth) :
    s.Legible [] := by
  refine legible_of_denotes h (.root hv) hd ?_
  have hwrite : t.writeValue maxDepth maxDepth id 0 .top = .ok (s.written 0 .top) :=
    writeValue_eq_ok.mpr ⟨s, hd, hroom, rfl⟩
  rw [← render_valuePieces] at hwrite
  obtain ⟨ps, hps, -⟩ := map_eq_ok hwrite
  have hpieces : t.writePieces maxDepth = .ok ps := by
    rw [writePieces, hv]
    exact hps
  rw [← ties_value hd hps]
  refine Piece.tied_of_anchors ps [] (fun _ _ hm => by cases hm) fun before a name behind heq => ?_
  rw [List.nil_append] at heq
  subst heq
  exact hfirst before a name behind hpieces

/-- The shape of a text reads back, flattened or not, if its tags do and before every alias an anchor
of its name is written. -/
theorem legible_of_flattens {p : Tree} (h : read maxDepth text = .ok p) (hf : p.Flattens t) {s : Shape}
    (htags : ∀ id n, t.Shown id → t.get? id = some n → n.hasOwnTag = true → IsShorthand n.tag)
    (hkeys : t.ShortKeys)
    (hanchors : ∀ id n, t.Shown id → t.get? id = some n → n.kind = .alias →
      ∃ r m, r < id ∧ t.Shown r ∧ t.get? r = some m ∧ m.anchor = some n.value)
    (hv : t.rootValue? = some id) (hd : Denotes t id s) (hroom : s.height ≤ maxDepth) :
    s.Legible [] := by
  have hanchor (id : NodeId) (n : Node) (name : String) (hn : t.get? id = some n)
      (ha : n.anchor = some name) : IsName name.toList ∧ n.kind ≠ .alias := by
    obtain ⟨n₀, hn₀, hnf⟩ := hf.node id n hn
    have ha₀ : n₀.anchor = some name := hnf.anchor.symm.trans ha
    refine ⟨isName_anchor h hn₀ ha₀, fun hk => ?_⟩
    obtain rfl := hnf.eq (by rw [hk]; decide)
    exact kind_of_anchor h hn₀ ha₀ hk
  have halias (id : NodeId) (n : Node) (hn : t.get? id = some n) (hk : n.kind = .alias) :
      IsName n.value.toList := by
    obtain ⟨n₀, hn₀, hnf⟩ := hf.node id n hn
    obtain rfl := hnf.eq (by rw [hk]; decide)
    exact isName_alias h hn₀ hk
  have hlegible : t.Legible := ⟨fun id n name _ hn ha => (hanchor id n name hn ha).1,
    fun id n _ hn hk => halias id n hn hk, fun id n hs hn _ htag => htags id n hs hn htag, hkeys⟩
  refine hlegible.shape (fun before a name behind hpieces => ?_) hv hd hroom
  have hcovers := covers_write h hf hpieces
  obtain ⟨hs, n, hn, hk, rfl⟩ := hcovers.tells (.alias a name) (by simp)
  obtain ⟨r, m, hlt, hr, hm, ha⟩ := hanchors a n hs hn hk
  have hmem := (among_of_shown hpieces hr).anchor hm (hanchor r m _ hm ha).2 ha
  exact ⟨r, hcovers.mem_before hmem hlt⟩

/-- The shape of a text reads back, if its tags do and no alias is left without its anchor. -/
theorem legible_of_read (h : read maxDepth text = .ok t) {s : Shape}
    (htags : ∀ id n, t.Shown id → t.get? id = some n → n.hasOwnTag = true → IsShorthand n.tag)
    (hkeys : t.ShortKeys)
    (hbound : ∀ id n r, t.Shown id → t.get? id = some n → n.kind = .alias →
      t.resolve? id = some r → t.Shown r)
    (hv : t.rootValue? = some id) (hd : Denotes t id s) (hroom : s.height ≤ maxDepth) :
    s.Legible [] := by
  refine legible_of_flattens h (.refl t) htags hkeys (fun id n hs hn hk => ?_) hv hd hroom
  obtain ⟨r, hr, hlatest⟩ := latest_of_flattens h (.refl t) hn hk
  obtain ⟨m, hm, -, ha⟩ := hlatest.node
  exact ⟨r, m, hlatest.lt, hbound id n r hs hn hk hr, hm, ha⟩

end Tree

namespace Shape

variable {s : Shape} {maxDepth : Nat}

/-- A legible shape that is not read back as an empty scalar is read back, with the tags that were said
of it, if there is room for it. -/
theorem exists_readIn (manner : Manner) (h : s.Legible [])
    (hb : s.rereadIn manner.reread ≠ .empty) (hroom : (s.rereadIn manner.reread).height ≤ maxDepth) :
    ∃ t id, Tree.read maxDepth (String.ofList (s.writtenIn manner.written 0 .top)) = .ok t ∧
      t.rootValue? = some id ∧ t.Bears id (s.rereadIn manner.reread) ∧
      ∀ P : String → Prop, P "" → (∀ e ∈ (s.rereadIn manner.reread).events [], P e.tag) →
        t.Tagged P := by
  obtain ⟨es, hevents, hes⟩ := events_writtenIn manner h hb
  obtain ⟨t, id, ht, hroot, hbears⟩ := Tree.exists_bears
    (buildable_rereadIn manner.anchors manner.buildable h) hroom hes
  have hevents' : (scan (String.ofList (s.writtenIn manner.written 0 .top)).toList).namedEvents =
      .ok es := by
    rw [String.toList_ofList]
    exact hevents
  refine ⟨t, id, by rw [Tree.read_of_events hevents', ht], ?_, hbears, fun P h0 hP => ?_⟩
  · rw [Tree.rootValue?, hroot]
    rfl
  · refine Tree.tagged_ofEvents h0 (fun e he => hP e.item ?_) ht
    rw [← hes]
    exact List.mem_map_of_mem he

/-- A legible shape that is not bare is read back, with the tags that were said of it. -/
theorem exists_read (h : s.Legible []) (hb : ¬ s.Bare) (hroom : s.height ≤ maxDepth) :
    ∃ t id, Tree.read maxDepth (String.ofList (s.written 0 .top)) = .ok t ∧
      t.rootValue? = some id ∧ t.Bears id s.reread ∧
      ∀ P : String → Prop, P "" → (∀ e ∈ s.reread.events [], P e.tag) → t.Tagged P := by
  have hreread : s.rereadIn Manner.quoted.reread = s.reread := rereadIn_reread s
  have hwritten : s.writtenIn Manner.quoted.written 0 .top = s.written 0 .top := writtenIn_written ..
  have hroom' : (s.rereadIn Manner.quoted.reread).height ≤ maxDepth := by
    rw [hreread, height_reread]
    exact hroom
  have hread := exists_readIn .quoted h (hreread ▸ hb) hroom'
  rwa [hreread, hwritten] at hread

end Shape

end TaggedYaml
