import TaggedYaml.Proofs.Tree.Legible
import TaggedYaml.Proofs.Tree.Unshared

/-!
# Reformat — what is written of a text is written of itself

A flattened tree is written without extension tags, so nothing of it is flattened when it is read
again, and a shape that is read back is written as before.
-/

namespace TaggedYaml

namespace Tree

variable {P : String → Prop} {t : Tree} {id : NodeId}

/-! ### Tags that are written -/

theorem tag_written {n : Node} (h0 : P "") (hn : P n.tag) : P n.face.writtenTag := by
  unfold Face.writtenTag
  split
  · exact hn
  · exact h0

mutual

/-- What is said of a shape when it is read back has the tags of the nodes that are written. -/
theorem tags_events (h0 : P "") (hP : ∀ id n, t.Shown id → t.get? id = some n → P n.tag) :
    ∀ {s : Shape} {id : NodeId} {known : List Anchor}, t.Shown id → t.Denotes id s →
      ∀ e ∈ s.reread.events known, P e.tag
  | .scalar f, id, known, hs, hd, e, he => by
    obtain ⟨n, hn, -, rfl⟩ := hd
    obtain rfl := List.mem_singleton.mp he
    exact tag_written h0 (hP id n hs hn)
  | .alias name, id, known, _, _, e, he => by
    obtain rfl := List.mem_singleton.mp he
    exact h0
  | .sequence f items, id, known, hs, hd, e, he => by
    obtain ⟨n, hn, hk, rfl, hitems⟩ := hd
    rcases List.mem_cons.mp he with rfl | he
    · exact tag_written h0 (hP id n hs hn)
    rcases List.mem_append.mp he with he | he
    · exact tags_eventsItems h0 hP (fun c hc => .item hs hn hk hc) hitems e he
    · obtain rfl := List.mem_singleton.mp he
      exact h0
  | .mapping f entries, id, known, hs, hd, e, he => by
    obtain ⟨n, hn, hk, rfl, hentries⟩ := hd
    rcases List.mem_cons.mp he with rfl | he
    · exact tag_written h0 (hP id n hs hn)
    rcases List.mem_append.mp he with he | he
    · exact tags_eventsEntries h0 hP (fun k v m hkv hm hkey => .key hs hn hk hkv hm hkey)
        (fun k v hkv => .entry hs hn hk hkv) hentries e he
    · obtain rfl := List.mem_singleton.mp he
      exact h0

theorem tags_eventsItems (h0 : P "") (hP : ∀ id n, t.Shown id → t.get? id = some n → P n.tag) :
    ∀ {items : List Shape} {ids : List NodeId} {known : List Anchor}, (∀ c ∈ ids, t.Shown c) →
      t.DenotesItems ids items → ∀ e ∈ Shape.eventsItems known (Shape.rereadItems items), P e.tag
  | [], _, _, _, _, e, he => by cases he
  | s :: rest, _, _, hs, hd, e, he => by
    obtain ⟨id, ids, rfl, hd, hrest⟩ := hd
    rcases List.mem_append.mp he with he | he
    · exact tags_events h0 hP (hs id List.mem_cons_self) hd e he
    · exact tags_eventsItems h0 hP (fun c hc => hs c (List.mem_cons_of_mem _ hc)) hrest e he

theorem tags_eventsEntries (h0 : P "") (hP : ∀ id n, t.Shown id → t.get? id = some n → P n.tag) :
    ∀ {entries : List (Key × Shape)} {pairs : List (NodeId × Option NodeId)} {known : List Anchor},
      (∀ k v m, (k, v) ∈ pairs → t.get? k = some m → m.kind = .scalar ∨ m.kind = .alias →
        t.Shown k) →
      (∀ k v, (k, some v) ∈ pairs → t.Shown v) → t.DenotesEntries pairs entries →
      ∀ e ∈ Shape.eventsEntries known (Shape.rereadEntries entries), P e.tag
  | [], _, _, _, _, _, e, he => by cases he
  | (k, s) :: rest, _, _, hkeys, hvalues, hd, e, he => by
    obtain ⟨i, v, pairs, rfl, hk, hv, hnone, hrest⟩ := hd
    rcases List.mem_cons.mp he with rfl | he
    · cases k with
      | scalar f =>
        obtain ⟨n, hn, hkind, rfl⟩ := hk
        exact tag_written h0 (hP i n (hkeys i v n List.mem_cons_self hn (.inl hkind)) hn)
      | «alias» name text => exact h0
      | other text => exact h0
    rcases List.mem_append.mp he with he | he
    · cases v with
      | none =>
        rw [hnone rfl] at he
        obtain rfl := List.mem_singleton.mp he
        exact h0
      | some v => exact tags_events h0 hP (hvalues i v List.mem_cons_self) (hv v rfl) e he
    · exact tags_eventsEntries h0 hP (fun k v m hkv => hkeys k v m (List.mem_cons_of_mem _ hkv))
        (fun k v hkv => hvalues k v (List.mem_cons_of_mem _ hkv)) hrest e he

end

/-! ### Texts that are written -/

/-- What is written of a key does not depend on what it stands for. -/
theorem written_key {k k' : Key} (hd : t.DenotesKey id k) (hb : t.BearsKey id k') :
    k.written = k'.written := by
  have hwrite : t.writeKey id = .ok k.written := writeKey_eq_ok.mpr ⟨k, hd, rfl⟩
  cases k' with
  | scalar f =>
    obtain ⟨n, hn, hk, rfl⟩ := hb
    rw [writeKey_scalar hn hk] at hwrite
    exact (Except.ok.inj hwrite).symm
  | «alias» name text =>
    obtain ⟨n, hn, hk, rfl⟩ := hb
    rw [writeKey_alias hn hk] at hwrite
    obtain ⟨r, -, hwrite⟩ := bind_eq_ok hwrite
    exact (Except.ok.inj hwrite).symm
  | other text =>
    obtain ⟨n, hn, ha, hs, rfl⟩ := hb
    rw [writeKey_other hn hs ha] at hwrite
    exact (Except.ok.inj hwrite).symm

theorem isEmpty_writtenItems (indent : Nat) (items : List Shape) :
    (Shape.writtenItems indent items).isEmpty = items.isEmpty := by
  cases items <;> rfl

theorem isEmpty_writtenEntries (indent : Nat) (entries : List (Key × Shape)) :
    (Shape.writtenEntries indent entries).isEmpty = entries.isEmpty := by
  cases entries <;> rfl

mutual

/-- What is written of a shape does not depend on what its aliases lead to. -/
theorem written_eq : ∀ {s s' : Shape} {id : NodeId}, t.Denotes id s → t.Bears id s' →
    ∀ (indent : Nat) (position : Position), s.written indent position = s'.written indent position
  | s, .scalar f, id, hd, hb, indent, position => by
    obtain ⟨m, hm, hk, rfl⟩ := hb
    cases s with
    | scalar f =>
      obtain ⟨n, hn, -, rfl⟩ := hd
      rw [Option.some.inj (hn.symm.trans hm)]
    | _ => cases hk.symm.trans (kind_of_denotes hd hm)
  | s, .alias name, id, hd, hb, indent, position => by
    obtain ⟨m, hm, hk, rfl⟩ := hb
    cases s with
    | «alias» name =>
      obtain ⟨n, hn, -, rfl, -⟩ := hd
      rw [Option.some.inj (hn.symm.trans hm)]
    | _ => cases hk.symm.trans (kind_of_denotes hd hm)
  | s, .sequence f items', id, hd, hb, indent, position => by
    obtain ⟨m, hm, hk, rfl, hbears⟩ := hb
    cases s with
    | sequence f items =>
      obtain ⟨n, hn, -, rfl, hitems⟩ := hd
      obtain rfl := Option.some.inj (hn.symm.trans hm)
      have hmembers := writtenItems_eq hitems hbears
      have hempty : items.isEmpty = items'.isEmpty := by
        rw [← isEmpty_writtenItems 0 items, hmembers, isEmpty_writtenItems]
      simp only [Shape.written, hempty, hmembers]
    | _ => cases hk.symm.trans (kind_of_denotes hd hm)
  | s, .mapping f entries', id, hd, hb, indent, position => by
    obtain ⟨m, hm, hk, rfl, hbears⟩ := hb
    cases s with
    | mapping f entries =>
      obtain ⟨n, hn, -, rfl, hentries⟩ := hd
      obtain rfl := Option.some.inj (hn.symm.trans hm)
      have hmembers := writtenEntries_eq hentries hbears
      have hempty : entries.isEmpty = entries'.isEmpty := by
        rw [← isEmpty_writtenEntries 0 entries, hmembers, isEmpty_writtenEntries]
      simp only [Shape.written, hempty, hmembers]
    | _ => cases hk.symm.trans (kind_of_denotes hd hm)

theorem writtenItems_eq : ∀ {items items' : List Shape} {ids : List NodeId},
    t.DenotesItems ids items → t.BearsItems ids items' →
    ∀ indent : Nat, Shape.writtenItems indent items = Shape.writtenItems indent items'
  | items, [], ids, hd, hb, indent => by
    obtain rfl : ids = [] := hb
    cases items with
    | nil => rfl
    | cons s rest =>
      obtain ⟨id, ids, hids, -⟩ := hd
      cases hids
  | items, s' :: rest', ids, hd, hb, indent => by
    obtain ⟨id, ids, rfl, hb, hbears⟩ := hb
    cases items with
    | nil => cases hd
    | cons s rest =>
      obtain ⟨id, ids, hids, hd, hrest⟩ := hd
      obtain ⟨rfl, rfl⟩ := List.cons_eq_cons.mp hids
      rw [Shape.writtenItems, Shape.writtenItems, written_eq hd hb, writtenItems_eq hrest hbears]

theorem writtenEntries_eq : ∀ {entries entries' : List (Key × Shape)}
    {pairs : List (NodeId × Option NodeId)}, t.DenotesEntries pairs entries →
    t.BearsEntries pairs entries' →
    ∀ indent : Nat, Shape.writtenEntries indent entries = Shape.writtenEntries indent entries'
  | entries, [], pairs, hd, hb, indent => by
    obtain rfl : pairs = [] := hb
    cases entries with
    | nil => rfl
    | cons e rest =>
      obtain ⟨id, v, pairs, hpairs, -⟩ := hd
      cases hpairs
  | entries, (k', s') :: rest', pairs, hd, hb, indent => by
    obtain ⟨id, v, pairs, rfl, hkey, hvalue, hbears⟩ := hb
    cases entries with
    | nil => cases hd
    | cons e rest =>
      obtain ⟨id, w, pairs, hpairs, hk, hv, -, hrest⟩ := hd
      obtain ⟨hhead, rfl⟩ := List.cons_eq_cons.mp hpairs
      obtain ⟨rfl, rfl⟩ := Prod.mk.inj hhead
      rw [Shape.writtenEntries, Shape.writtenEntries, written_key hk hkey,
        written_eq (hv v rfl) hvalue, writtenEntries_eq hrest hbears]

end

/-- What is written of a node below the document stands below it. -/
theorem Shown.below_root {x : NodeId} (h : t.Shown x) : t.Below root x := by
  induction h with
  | value hv =>
    refine .single (child_of_mem t.get?_root ?_)
    exact Array.mem_toList_iff.mpr (Array.mem_of_getElem? hv)
  | item _ hn _ hc ih => exact ih.tail (child_of_mem hn hc)
  | key _ hn _ hc _ _ ih => exact ih.tail (child_of_mem hn (mem_inPairs hc).1)
  | entry _ hn _ hc ih => exact ih.tail (child_of_mem hn ((mem_inPairs hc).2 _ rfl))

end Tree

namespace Settings

variable {s : Settings} {text r : String} {t : Tree}

/-- Nothing with an extension tag is written of a text. -/
theorem tag_of_decode (h : s.decode text = .ok t) {id : NodeId} {n : Node} (hs : t.Shown id)
    (hn : t.get? id = some n) : s.isExtensionTag n.tag = false := by
  obtain ⟨p, hp, rfl⟩ := exists_of_decode h
  have hflat : p.Flattens (s.flatten p).tree := Tree.flattens_flatten p s.isExtensionTag
  obtain ⟨es, -, hes⟩ := Tree.exists_of_read hp
  have hstring : s.isExtensionTag "!!str" = false := rfl
  have hsettled := (Tree.flatten_settles hstring (Tree.rooted_ofEvents hes).inside).2 id
    (hflat.below ▸ hs.below_root)
  exact (Tree.isExtended_eq hn).symm.trans hsettled

/-- A text of which a tree without extension tags is read is written as this tree. -/
theorem reformat_of_read (hrules : s.stripRules = []) (hread : Tree.read s.maxDepth text = .ok t)
    (htagged : t.Tagged fun tag => s.isExtensionTag tag = false)
    (hwrite : t.write s.maxDepth = .ok r) : s.reformat text = .ok r := by
  have hdecode : s.decode text = .ok t := by
    rw [decode, bind_ok hread]
    exact congrArg Except.ok (Tree.flatten_of_tagged htagged).1
  have hencode : s.encode t = .ok r := hwrite
  rw [reformat, bind_ok hdecode, encodeStripped, bind_ok hencode, strip, hrules]
  rfl

/-- What is written of a text without rules for quotes is written of itself again, unless it is an
empty line: if each tag is a `!` and characters that need no escape, no key is too long to be found,
and before every alias an anchor of its name is written. -/
theorem reformat_reformat (s : Settings) (hrules : s.stripRules = [])
    (hempty : s.isExtensionTag "" = false) {text r : String} {t : Tree} (ht : s.decode text = .ok t)
    (htags : ∀ id n, t.Shown id → t.get? id = some n → n.hasOwnTag = true → IsShorthand n.tag)
    (hkeys : t.ShortKeys)
    (hanchors : ∀ id n, t.Shown id → t.get? id = some n → n.kind = .alias →
      ∃ r m, r < id ∧ t.Shown r ∧ t.get? r = some m ∧ m.anchor = some n.value)
    (hr : s.reformat text = .ok r) (hline : r ≠ "\n") : s.reformat r = .ok r := by
  have hwrite : t.write s.maxDepth = .ok r := by
    rw [reformat, bind_ok ht, encodeStripped] at hr
    obtain ⟨y, hy, hr⟩ := bind_eq_ok hr
    rw [strip, hrules] at hr
    exact Except.ok.inj hr ▸ hy
  cases hv : t.rootValue? with
  | none =>
    rw [Tree.write, hv] at hwrite
    obtain rfl := Except.ok.inj hwrite
    refine reformat_of_read hrules (Tree.read_nothing s.maxDepth) (fun id n hn => ?_) rfl
    have hmem : n ∈ Tree.empty.nodes := Array.mem_of_getElem? hn
    obtain rfl : n = { kind := .document } := by simpa [Tree.empty] using hmem
    exact hempty
  | some v =>
    obtain ⟨shape, hd, hroom, rfl⟩ := (Tree.write_eq_ok hv).mp hwrite
    have hb : ¬ shape.Bare := by
      intro hb
      rw [Shape.written_bare hb] at hline
      exact hline rfl
    obtain ⟨p, hp, rfl⟩ := exists_of_decode ht
    have hlegible := Tree.legible_of_flattens hp (Tree.flattens_flatten p s.isExtensionTag) htags
      hkeys hanchors hv hd hroom
    obtain ⟨t', id, ht', hroot, hbears, htagged⟩ := Shape.exists_read hlegible hb hroom
    refine reformat_of_read hrules ht' (htagged _ hempty ?_) ?_
    · exact Tree.tags_events (P := fun tag => s.isExtensionTag tag = false) hempty
        (fun id n hs hn => tag_of_decode ht hs hn) (.value hv) hd
    · obtain ⟨level, hlevel⟩ := Tree.levelled_read ht'
      obtain ⟨y, hy⟩ := Tree.exists_write (Tree.closed_read ht') hlevel
      obtain ⟨shape', hd', -, rfl⟩ := (Tree.write_eq_ok hroot).mp hy
      rw [hy, Tree.written_eq hd' hbears, Shape.written_reread]

/-- A tag that is left, an anchor with an alias, and a sequence that is spelled out. -/
theorem reformat_reformat_flow :
    ({ default with stripRules := [] } : Settings).reformat "[!-t &a {b: !Find [c]}, *a]\n" =
        .ok "- &a !-t\n  b: '!Find [c]'\n- *a\n" ∧
      ({ default with stripRules := [] } : Settings).reformat "- &a !-t\n  b: '!Find [c]'\n- *a\n" =
        .ok "- &a !-t\n  b: '!Find [c]'\n- *a\n" := by
  obtain ⟨t, ht⟩ : ∃ t : Tree, t = ⟨#[{ kind := .document, children := #[1] },
      { kind := .sequence, children := #[2, 6] },
      { kind := .mapping, tag := "!-t", anchor := some "a", children := #[3, 4], mark := ⟨8, 1, 8⟩ },
      { kind := .scalar, value := "b", mark := ⟨9, 1, 9⟩ },
      { kind := .scalar, tag := "!!str", value := "!Find [c]", children := #[5], style := .single,
        mark := ⟨18, 1, 18⟩ },
      { kind := .scalar, value := "c", mark := ⟨19, 1, 19⟩ },
      { kind := .alias, value := "a", target := some 2, mark := ⟨24, 1, 24⟩ }], by decide⟩ := ⟨_, rfl⟩
  have hdecode : ({ default with stripRules := [] } : Settings).decode
      "[!-t &a {b: !Find [c]}, *a]\n" = .ok t := by
    subst ht
    decide +kernel
  have hwrite : ({ default with stripRules := [] } : Settings).reformat
      "[!-t &a {b: !Find [c]}, *a]\n" = .ok "- &a !-t\n  b: '!Find [c]'\n- *a\n" := by
    decide +kernel
  have htags : ∀ n ∈ t.nodes, n.hasOwnTag = true → IsShorthand n.tag := by
    subst ht
    decide
  have hkeys : t.ShortKeys := Tree.shortKeys_of_size (by subst ht; decide +kernel)
  have haliases : ∀ id < t.size, ∀ n ∈ t.get? id, n.kind = .alias → id = 6 ∧ n.value = "a" := by
    subst ht
    decide
  have hanchor : ∃ m, t.Shown 2 ∧ t.get? 2 = some m ∧ m.anchor = some "a" := by
    subst ht
    exact ⟨_, .item (.value rfl) rfl rfl List.mem_cons_self, rfl, rfl⟩
  refine ⟨hwrite, reformat_reformat _ rfl (isExtensionTag_empty rfl) hdecode
    (fun id n _ hn => htags n (Array.mem_of_getElem? hn)) hkeys (fun id n _ hn hk => ?_) hwrite
    (by decide)⟩
  obtain ⟨rfl, hvalue⟩ := haliases id (Tree.lt_size hn) n hn hk
  obtain ⟨m, hshown, hm, ha⟩ := hanchor
  exact ⟨2, m, by decide, hshown, hm, hvalue ▸ ha⟩

/-- Of a sequence that is a key a text is written, without the anchor that the alias needs. -/
theorem reformat_reformat_key :
    ({ default with stripRules := [] } : Settings).reformat "? &a [x]\n: *a\n" =
        .ok "'': *a\n" ∧
      ({ default with stripRules := [] } : Settings).reformat "'': *a\n" =
        .error (.malformed ⟨⟨4, 1, 4⟩, .unknownAnchor⟩) := by
  decide +kernel

/-- A document with an empty value is written as an empty line, which has no value. -/
example : ({ default with stripRules := [] } : Settings).reformat "---\n" = .ok "\n" ∧
    ({ default with stripRules := [] } : Settings).reformat "\n" = .ok "" := by
  decide +kernel

end Settings

end TaggedYaml
