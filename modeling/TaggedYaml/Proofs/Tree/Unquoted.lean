import TaggedYaml.Proofs.Tree.Respelled
import TaggedYaml.Proofs.Tree.Stripped
import TaggedYaml.Proofs.Tree.Survives
import TaggedYaml.Proofs.Tree.Untagged

/-!
# Unquoted — what is written without quotes around calls has the same value

If each text that is written between quotes and begins with an exclamation mark is a call, and no other
quotes stand before an exclamation mark (`Tree.Unquotable`), then what is written of a text without these
quotes can be read, and it has the same value (`Settings.decode_encodeStripped`).
-/

namespace TaggedYaml

/-! ### Texts that begin with an exclamation mark -/

theorem Call.shape_ne_empty (c : Call) (anchor : Option String) : c.shape anchor ≠ .empty := by
  intro he
  cases c with
  | word suffix text =>
    have htag : String.ofList ('!' :: suffix) = "" := congrArg Face.tag (Shape.scalar.inj he)
    rw [← String.toList_inj, String.toList_ofList] at htag
    cases htag
  | list suffix first rest => cases he

/-- What is read back as an empty scalar is one. -/
theorem Shape.bare_of_bareReread {isExtension : String → Bool} {s : Shape}
    (h : s.rereadIn (Face.bareReread isExtension) = .empty) : s.Bare := by
  cases s with
  | scalar f =>
    rw [rereadIn, Face.bareReread] at h
    split at h
    · exact absurd h (Call.shape_ne_empty _ _)
    · exact h
  | _ => cases h

theorem Segment.marked_ofString {key : Bool} {s : List Char} (h : s.head? ≠ some '!') :
    (ofString key s).marked = false := by
  rw [ofString]
  split
  · rfl
  · simpa [marked] using h

namespace Face

variable {f : Face}

theorem head?_of_marked (h : f.textSegment.marked = true) : f.text.toList.head? = some '!' := by
  rw [textSegment] at h
  split at h
  · cases h
  · by_contra hne
    rw [Segment.marked_ofString hne] at h
    cases h

theorem marked_keySegment (h : f.text.toList.head? ≠ some '!') : f.keySegment.marked = false := by
  rw [keySegment]
  split
  · rfl
  · exact Segment.marked_ofString h

end Face

namespace Tree

/-- What is written of a tree means the same without the quotes that are taken. -/
structure Unquotable (isExtension : String → Bool) (t : Tree) : Prop where
  /-- No quote stands before an exclamation mark. -/
  calm : ∀ id n, t.WritesValue id ∨ t.WritesKey id → t.get? id = some n → n.face.Calm
  /-- A text between quotes that begins with an exclamation mark is a call, and stands behind no tag. -/
  calls : ∀ id n, t.WritesValue id → t.get? id = some n → n.kind = .scalar → n.literalBlock? = none →
    n.value.toList.head? = some '!' →
    n.hasOwnTag = false ∧ ∃ c : Call, c.Legible isExtension ∧ c.text = n.value.toList
  /-- No key begins with an exclamation mark. -/
  keys : ∀ id n, t.WritesKey id → t.get? id = some n → n.kind ≠ .alias →
    n.value.toList.head? ≠ some '!'
  /-- Keys are found by their colons. -/
  short : t.ShortKeys
  /-- Tags are written as they are read. -/
  tags : ∀ id n, t.Shown id → t.get? id = some n → n.hasOwnTag = true → IsShorthand n.tag
  /-- What an alias leads to is written with its name. -/
  bound : ∀ id n r, t.Shown id → t.get? id = some n → n.kind = .alias → t.resolve? id = some r →
    t.Shown r

variable {isExtension : String → Bool} {t p : Tree} {id : NodeId} {n : Node} {s : Shape}
  {maxDepth : Nat} {text : String}

namespace Unquotable

theorem face (h : t.Unquotable isExtension) (hw : t.WritesValue id) (hn : t.get? id = some n)
    (hk : n.kind = .scalar) : n.face.Unquotes isExtension := by
  intro hblock hmark
  obtain ⟨htag, c, hc, htext⟩ := h.calls id n hw hn hk hblock (Face.head?_of_marked hmark)
  exact Face.exists_call? htag hc htext

theorem key (h : t.Unquotable isExtension) {k : Key} (hw : t.WritesKey id) (hd : t.DenotesKey id k) :
    k.Unmarked := by
  intro g hg
  cases k with
  | scalar f =>
    obtain ⟨n, hn, hk, rfl⟩ := hd
    have hhead := h.keys id n hw hn (by rw [hk]; decide)
    exact Segment.marked_of_mem_join (Face.marked_keySegment hhead) hg
  | «alias» name text =>
    rw [List.mem_singleton.mp hg]
    rfl
  | other text =>
    obtain ⟨n, hn, hk, -, rfl⟩ := hd
    rw [List.mem_singleton.mp hg]
    exact Segment.marked_ofString (h.keys id n hw hn hk)

end Unquotable

mutual

/-- The shape of an unquotable tree can be written without the quotes of its calls. -/
theorem unquotes_of_denotes (h : t.Unquotable isExtension) : ∀ {s : Shape} {id : NodeId},
    t.WritesValue id → t.Denotes id s → s.Unquotes isExtension
  | .scalar f, id, hw, hd => by
    obtain ⟨n, hn, hk, rfl⟩ := hd
    exact h.face hw hn hk
  | .alias name, id, _, _ => trivial
  | .sequence f items, id, hw, hd => by
    obtain ⟨n, hn, hk, rfl, hitems⟩ := hd
    refine unquotesItems_of_denotes h (fun c hc => ?_) hitems
    exact .item hw hn hk (by simpa using hc)
  | .mapping f entries, id, hw, hd => by
    obtain ⟨n, hn, hk, rfl, hentries⟩ := hd
    exact unquotesEntries_of_denotes h (fun k v hkv => ⟨id, n, v, hw, hn, hk, hkv⟩)
      (fun k v hkv => .value hw hn hk hkv) hentries

theorem unquotesItems_of_denotes (h : t.Unquotable isExtension) : ∀ {items : List Shape}
    {ids : List NodeId}, (∀ c ∈ ids, t.WritesValue c) → t.DenotesItems ids items →
      Shape.UnquotesItems isExtension items
  | [], _, _, _ => trivial
  | _ :: _, _, hw, hd => by
    obtain ⟨id, ids, rfl, hd, hrest⟩ := hd
    exact ⟨unquotes_of_denotes h (hw id List.mem_cons_self) hd,
      unquotesItems_of_denotes h (fun c hc => hw c (List.mem_cons_of_mem _ hc)) hrest⟩

theorem unquotesEntries_of_denotes (h : t.Unquotable isExtension) :
    ∀ {entries : List (Key × Shape)} {pairs : List (NodeId × Option NodeId)},
      (∀ k v, (k, v) ∈ pairs → t.WritesKey k) → (∀ k v, (k, some v) ∈ pairs → t.WritesValue v) →
      t.DenotesEntries pairs entries → Shape.UnquotesEntries isExtension entries
  | [], _, _, _, _ => trivial
  | (k, s) :: rest, _, hkeys, hvalues, hd => by
    obtain ⟨i, v, pairs, rfl, hk, hv, hnone, hrest⟩ := hd
    have hshape : s.Unquotes isExtension := by
      cases v with
      | none =>
        rw [hnone rfl]
        exact fun _ hmark => by cases hmark
      | some v => exact unquotes_of_denotes h (hvalues i v List.mem_cons_self) (hv v rfl)
    exact ⟨h.key (hkeys i v List.mem_cons_self) hk, hshape, unquotesEntries_of_denotes h
      (fun k v hkv => hkeys k v (List.mem_cons_of_mem _ hkv))
      (fun k v hkv => hvalues k v (List.mem_cons_of_mem _ hkv)) hrest⟩

end

/-- The default rule takes the quotes of the calls. -/
theorem Unquotable.strip (h : t.Unquotable isExtension) (hv : t.rootValue? = some id)
    (hd : t.Denotes id s) : Settings.default.strip (String.ofList (s.written 0 .top)) =
      String.ofList (s.writtenIn (Face.bareWritten isExtension) 0 .top) := by
  have hunquotes := unquotes_of_denotes h (.root hv) hd
  have hfreed := Shape.freed_segments (calm_of_denotes h.calm (.root hv) hd) 0 .top
  rw [← s.render_segments, hfreed.strip (hunquotes.keysAlone 0 .top),
    Shape.bare_segments hunquotes 0 .top]

/-- The shape of an unquotable text, flattened or not, reads back. -/
theorem Unquotable.legible (h : t.Unquotable isExtension) (hp : read maxDepth text = .ok p)
    (hflat : p.Flattens t) (hv : t.rootValue? = some id) (hd : t.Denotes id s)
    (hroom : s.height ≤ maxDepth) : s.Legible [] := by
  refine legible_of_flattens hp hflat h.tags h.short (fun a n hs hn hk => ?_) hv hd hroom
  obtain ⟨r, hr, hlatest⟩ := latest_of_flattens hp hflat hn hk
  obtain ⟨m, hm, -, ha⟩ := hlatest.node
  exact ⟨r, m, hlatest.lt, h.bound a n r hs hn hk hr, hm, ha⟩

/-- Of two texts, flattened or not, of which one mirrors the other, the values are the same: if what the
aliases of the mirrored one lead to is written with its names. -/
theorem Mirrors.value_eq {u q : Tree} {text' : String} {ps : List (NodeId × NodeId)} {id' : NodeId}
    (hp : read maxDepth text = .ok p) (hflat : p.Flattens t) (hq : read maxDepth text' = .ok q)
    (hflat' : q.Flattens u) (hv : t.rootValue? = some id) (hv' : u.rootValue? = some id')
    (hbound : ∀ id n r, t.Shown id → t.get? id = some n → n.kind = .alias → t.resolve? id = some r →
      t.Shown r)
    (h : Mirrors t u id id' ps) (depth : Nat) :
    t.valueAt depth depth id = u.valueAt depth depth id' := by
  have hpairs := h.pairs (spans_rootValue hp hflat hv).2 (spans_rootValue hq hflat' hv').2
  refine h.valueAt_eq (h.bindsAlike hpairs (fun pair hpair n hn hk => ?_) fun a m hm hk =>
    latest_of_flattens hq hflat' hm hk) depth depth (id, id') h.self
  obtain ⟨r, hr, hlatest⟩ := latest_of_flattens hp hflat hn hk
  obtain ⟨r', hmem⟩ := h.of_shown hv (hbound _ n r (h.shown (.value hv) pair hpair) hn hk hr)
  exact ⟨r, r', hr, hlatest, hmem⟩

/-- The value of a text that is flattened is that of its first child. -/
theorem value_flatten (hp : read maxDepth text = .ok p) (hempty : isExtension "" = false)
    (depth : Nat) : (p.flatten isExtension).tree.value depth =
      p.rootValue?.elim (.ok (.map [])) ((p.flatten isExtension).tree.valueAt depth depth) := by
  have hkind : (p.flatten isExtension).tree.rootNode.kind = .document := by
    rw [(regular_read hp).rootNode_flatten (rooted_read hp) hempty]
    exact ((rooted_read hp).document root _ p.get?_root).mpr rfl
  rw [value_eq hkind, (flattens_flatten p isExtension).rootValue?]

end Tree

namespace Settings

variable {s : Settings} {text e : String} {t : Tree} {id : NodeId} {shape : Shape}

/-- What is written of a text without the quotes of its calls is read as a document with the same
value. -/
theorem decode_bareWritten (hempty : s.isExtensionTag "" = false) (ht : s.decode text = .ok t)
    (h : t.Unquotable s.isExtensionTag) (hv : t.rootValue? = some id) (hd : t.Denotes id shape)
    (hbare : ¬ shape.Bare) (hroom : shape.height + 1 ≤ s.maxDepth) :
    ∃ t', s.decode (String.ofList (shape.writtenIn (Face.bareWritten s.isExtensionTag) 0 .top)) =
      .ok t' ∧ s.value t' = s.value t := by
  obtain ⟨p, hp, rfl⟩ := exists_of_decode ht
  have hflat := Tree.flattens_flatten p s.isExtensionTag
  have hlegible := h.legible hp hflat hv hd (Nat.le_of_succ_le hroom)
  have hheight : (shape.rereadIn (Face.bareReread s.isExtensionTag)).height ≤ s.maxDepth :=
    Nat.le_trans (Shape.height_rereadIn_le Face.height_bareReread_le shape) hroom
  obtain ⟨q, id', hq, hroot, hbears, -⟩ := Shape.exists_readIn (.bare s.isExtensionTag) hlegible
    (fun he => hbare (Shape.bare_of_bareReread he)) hheight
  have hflat' := Tree.flattens_flatten q s.isExtensionTag
  have hrespells : Tree.Respells s.isExtensionTag q (s.flatten q).tree :=
    ⟨(Tree.rooted_read hq).get?_flatten s.isExtensionTag, Tree.regular_read hq, Tree.terse_read hq,
      hempty⟩
  have hsettled : Tree.Settled s.isExtensionTag (s.flatten p).tree :=
    ⟨(Tree.terse_read hp).flattens hflat, fun id n hs hn => tag_of_decode ht hs hn⟩
  obtain ⟨ps, hps⟩ := Tree.exists_mirrors hrespells hsettled (.value hv) hd hbears
  have hvalue : p.rootValue? = some id := hflat.rootValue?.symm.trans hv
  refine ⟨_, decode_of_read hq, ?_⟩
  rw [value, value, flatten, flatten, Tree.value_flatten hp hempty, Tree.value_flatten hq hempty,
    hroot, hvalue]
  exact (hps.value_eq hp hflat hq hflat' hv (hflat'.rootValue?.trans hroot) h.bound s.maxDepth).symm

/-- What is written of a text without the quotes of its spelled-out tags is read as a document with the
same value: if it is no empty line, if there is room for one more collection, and if each text that
begins with an exclamation mark is a call and no other quote stands before one. -/
theorem decode_encodeStripped (ht : default.decode text = .ok t)
    (h : t.Unquotable default.isExtensionTag) (he : t.write 127 = .ok e) (hline : e ≠ "\n") :
    ∃ r t', default.encodeStripped t = .ok r ∧ default.decode r = .ok t' ∧
      default.value t' = default.value t := by
  have hempty : default.isExtensionTag "" = false := isExtensionTag_empty rfl
  cases hv : t.rootValue? with
  | none =>
    obtain ⟨p, hp, rfl⟩ := exists_of_decode ht
    have hvalue : p.rootValue? = none := (Tree.flattens_flatten p _).rootValue?.symm.trans hv
    refine ⟨"", _, ?_, decode_of_read (Tree.read_nothing 128), ?_⟩
    · have hencode : default.encode (default.flatten p).tree = .ok "" := by
        rw [encode, Tree.write, hv]
      rw [encodeStripped, bind_ok hencode, strip_default]
      rfl
    · rw [value, value, flatten, flatten, Tree.value_flatten hp hempty,
        Tree.value_flatten (Tree.read_nothing 128) hempty, hvalue]
      rfl
  | some id =>
    obtain ⟨shape, hd, hroom, rfl⟩ := (Tree.write_eq_ok hv).mp he
    have hbare : ¬ shape.Bare := by
      intro hb
      rw [Shape.written_bare hb] at hline
      exact hline rfl
    obtain ⟨t', ht', hvalue⟩ := decode_bareWritten hempty ht h hv hd hbare (Nat.succ_le_succ hroom)
    have hencode : default.encode t = .ok (String.ofList (shape.written 0 .top)) :=
      (Tree.write_eq_ok hv).mpr ⟨shape, hd, Nat.le_succ_of_le hroom, rfl⟩
    refine ⟨_, t', ?_, ht', hvalue⟩
    rw [encodeStripped, bind_ok hencode, ← h.strip hv hd]
    rfl

/-- A tag with a list behind it, a tag with a word, and an alias of the list. -/
theorem decode_encodeStripped_calls :
    ∃ t t', default.decode "[&a !Find [x, y z], \x7bk: !Ref w\x7d, *a]\n" = .ok t ∧
      t.Unquotable default.isExtensionTag ∧
      t.write 127 = .ok "- &a '!Find [x, y z]'\n- k: '!Ref w'\n- *a\n" ∧
      default.encodeStripped t = .ok "- &a !Find [x, y z]\n- k: !Ref w\n- *a\n" ∧
      default.decode "- &a !Find [x, y z]\n- k: !Ref w\n- *a\n" = .ok t' ∧
      default.value t' = .ok (.list
        [.text "!Find [x, y z]", .map [("k", .text "!Ref w")], .text "!Find [x, y z]"]) := by
  obtain ⟨t, ht⟩ : ∃ t : Tree, t = ⟨#[{ kind := .document, children := #[1] },
      { kind := .sequence, children := #[2, 5, 8] },
      { kind := .scalar, tag := "!!str", value := "!Find [x, y z]", anchor := some "a",
        children := #[3, 4], style := .single, mark := ⟨10, 1, 10⟩ },
      { kind := .scalar, value := "x", mark := ⟨11, 1, 11⟩ },
      { kind := .scalar, value := "y z", mark := ⟨14, 1, 14⟩ },
      { kind := .mapping, children := #[6, 7], mark := ⟨20, 1, 20⟩ },
      { kind := .scalar, value := "k", mark := ⟨21, 1, 21⟩ },
      { kind := .scalar, tag := "!!str", value := "!Ref w", style := .single, mark := ⟨29, 1, 29⟩ },
      { kind := .alias, value := "a", target := some 2, mark := ⟨33, 1, 33⟩ }], by decide⟩ := ⟨_, rfl⟩
  have hdecode : default.decode "[&a !Find [x, y z], \x7bk: !Ref w\x7d, *a]\n" = .ok t := by
    subst ht
    decide +kernel
  have hwrite : t.write 127 = .ok "- &a '!Find [x, y z]'\n- k: '!Ref w'\n- *a\n" := by
    subst ht
    decide +kernel
  have hstripped : default.encodeStripped t = .ok "- &a !Find [x, y z]\n- k: !Ref w\n- *a\n" := by
    subst ht
    decide +kernel
  have hvalue : default.value t = .ok (.list
      [.text "!Find [x, y z]", .map [("k", .text "!Ref w")], .text "!Find [x, y z]"]) := by
    subst ht
    cbv
  have hcalm : ∀ n ∈ t.nodes, n.face.Calm ∧ n.hasOwnTag = false := by
    subst ht
    decide
  have hmarked : ∀ n ∈ t.nodes, n.value.toList.head? = some '!' →
      n.value = "!Find [x, y z]" ∨ n.value = "!Ref w" := by
    subst ht
    decide
  have hkeys : ∀ id < t.size, ∀ n ∈ t.get? id, n.kind = .mapping →
      ∀ e ∈ inPairs n.children.toList, ∀ m ∈ t.get? e.1, m.value = "k" := by
    subst ht
    decide
  have haliases : ∀ id < t.size, ∀ n ∈ t.get? id, n.kind = .alias → t.resolve? id = some 2 := by
    subst ht
    decide
  have hshort : t.ShortKeys := Tree.shortKeys_of_size (by subst ht; decide +kernel)
  have hshown : t.Shown 2 := by
    subst ht
    exact .item (.value rfl) rfl rfl List.mem_cons_self
  have hfind : (Call.list ['F', 'i', 'n', 'd'] ['x'] [['y', ' ', 'z']]).Legible
      default.isExtensionTag := by
    decide +kernel
  have href : (Call.word ['R', 'e', 'f'] ['w']).Legible default.isExtensionTag := by decide +kernel
  have hunquotable : t.Unquotable default.isExtensionTag := by
    refine ⟨fun id n _ hn => (hcalm n (Array.mem_of_getElem? hn)).1, fun id n _ hn _ _ hhead => ?_,
      ?_, hshort, fun id n _ hn htag => ?_, fun id n r _ hn hk hr => ?_⟩
    · refine ⟨(hcalm n (Array.mem_of_getElem? hn)).2, ?_⟩
      rcases hmarked n (Array.mem_of_getElem? hn) hhead with hvalue | hvalue <;> rw [hvalue]
      · exact ⟨_, hfind, by decide⟩
      · exact ⟨_, href, by decide⟩
    · rintro id n ⟨p, m, v, -, hm, hk, hmem⟩ hn -
      rw [hkeys p (Tree.lt_size hm) m hm hk _ hmem n hn]
      decide
    · rw [(hcalm n (Array.mem_of_getElem? hn)).2] at htag
      cases htag
    · obtain rfl := Option.some.inj ((haliases id (Tree.lt_size hn) n hn hk).symm.trans hr)
      exact hshown
  obtain ⟨r, t', hr, ht', hsame⟩ := decode_encodeStripped hdecode hunquotable hwrite (by decide)
  obtain rfl := Except.ok.inj (hstripped.symm.trans hr)
  exact ⟨t, t', hdecode, hunquotable, hwrite, hr, ht', hsame.trans hvalue⟩

/-- Quotes before an exclamation mark are taken from any text, and the text is another one then. -/
theorem decode_encodeStripped_apostrophes : ¬ ∀ (text : String) (t : Tree),
    default.decode text = .ok t → ∃ r t', default.encodeStripped t = .ok r ∧
      default.decode r = .ok t' ∧ default.value t' = default.value t := by
  intro h
  let t : Tree := ⟨#[{ kind := .document, children := #[1] },
    { kind := .mapping, children := #[2, 3], mark := ⟨1, 1, 1⟩ }, { kind := .scalar, value := "a" },
    { kind := .scalar, value := "x '!b' y", mark := ⟨3, 1, 3⟩ }], by decide⟩
  let u : Tree := ⟨#[{ kind := .document, children := #[1] },
    { kind := .mapping, children := #[2, 3], mark := ⟨1, 1, 1⟩ }, { kind := .scalar, value := "a" },
    { kind := .scalar, value := "x !b y", mark := ⟨3, 1, 3⟩ }], by decide⟩
  obtain ⟨r, t', hr, ht', hsame⟩ := h "a: x '!b' y\n" t (by decide +kernel)
  have hstripped : default.encodeStripped t = .ok "a: x !b y\n" := by decide +kernel
  obtain rfl := Except.ok.inj (hstripped.symm.trans hr)
  have hread : default.decode "a: x !b y\n" = .ok u := by decide +kernel
  obtain rfl := Except.ok.inj (hread.symm.trans ht')
  have hvalue : default.value t = .ok (.map [("a", .text "x '!b' y")]) := by cbv
  have hvalue' : default.value u = .ok (.map [("a", .text "x !b y")]) := by cbv
  rw [hvalue, hvalue'] at hsame
  simp at hsame

end Settings

end TaggedYaml
