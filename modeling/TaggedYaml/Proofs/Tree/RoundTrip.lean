import TaggedYaml.Proofs.Shape.Said

/-!
# A written document reads back

Where neither anchors nor tags are written, what is written of a tree reads back as a tree with the
same value that is written in the same way (`read_write`).
-/

namespace TaggedYaml

/-- An unadorned shape that is not bare is read back. -/
theorem Shape.read_written {s : Shape} {maxDepth : Nat} (h : s.Unadorned) (hb : ¬ s.Bare)
    (hroom : s.height ≤ maxDepth) :
    ∃ t id, Tree.read maxDepth (String.ofList (s.written 0 .top)) = .ok t ∧
      t.rootNode = { kind := .document, children := #[id] } ∧ t.Denotes id s.reread := by
  obtain ⟨es, hevents, hes⟩ := events_written h.legible hb
  have hroom' : s.reread.height ≤ maxDepth := by
    rw [height_reread]
    exact hroom
  obtain ⟨t, id, ht, hroot, hdenotes⟩ := Tree.ofEvents_of_events (readable_reread h) hroom' hes
  have hevents' : (scan (String.ofList (s.written 0 .top)).toList).namedEvents = .ok es := by
    rw [String.toList_ofList]
    exact hevents
  refine ⟨t, id, ?_, hroot, hdenotes⟩
  rw [Tree.read_of_events hevents', ht]

namespace Tree

/-! ### What is written of a tree -/

/-- A node is written as a value. -/
inductive WritesValue (t : Tree) : NodeId → Prop where
  | root {id : NodeId} : t.rootValue? = some id → WritesValue t id
  | item {id c : NodeId} {n : Node} : WritesValue t id → t.get? id = some n → n.kind = .sequence →
    c ∈ n.children → WritesValue t c
  | value {id k v : NodeId} {n : Node} : WritesValue t id → t.get? id = some n → n.kind = .mapping →
    (k, some v) ∈ inPairs n.children.toList → WritesValue t v

/-- A node is written as a key. -/
def WritesKey (t : Tree) (k : NodeId) : Prop :=
  ∃ id n v, t.WritesValue id ∧ t.get? id = some n ∧ n.kind = .mapping ∧
    (k, v) ∈ inPairs n.children.toList

/-- No anchors, no aliases and no tags but core tags are written.  Of a collection as a key nothing
but a text is written. -/
structure TagFree (t : Tree) : Prop where
  values : ∀ id n, t.WritesValue id → t.get? id = some n →
    n.kind ≠ .alias ∧ n.anchor = none ∧ n.hasOwnTag = false
  keys : ∀ k n, t.WritesKey k → t.get? k = some n →
    n.kind ≠ .alias ∧ (n.kind = .scalar → n.anchor = none ∧ n.hasOwnTag = false)

/-- No key is longer than a key may be that is found by its colon. -/
def ShortKeys (t : Tree) : Prop :=
  ∀ k text, t.WritesKey k → t.writeKey k = .ok text → text.length ≤ 1024

variable {t : Tree} {id : NodeId}

theorem unadorned_key (h : t.TagFree) (hs : t.ShortKeys) {k : Key} (hw : t.WritesKey id)
    (hk : DenotesKey t id k) : k.Unadorned := by
  have hlen : k.written.length ≤ 1024 := hs id _ hw (writeKey_eq_ok.mpr ⟨k, hk, rfl⟩)
  refine ⟨hlen, ?_⟩
  cases k with
  | scalar f =>
    obtain ⟨n, hn, hkind, rfl⟩ := hk
    exact (h.keys id n hw hn).2 hkind
  | «alias» name text =>
    obtain ⟨n, r, m, hn, hkind, -⟩ := hk
    exact (h.keys id n hw hn).1 hkind
  | other text => trivial

mutual

/-- Shapes of a tree without anchors and tags are unadorned. -/
theorem unadorned_of_denotes (h : t.TagFree) (hs : t.ShortKeys) : ∀ {s : Shape} {id : NodeId},
    t.WritesValue id → Denotes t id s → s.Unadorned
  | .scalar f, id, hw, hd => by
    obtain ⟨n, hn, -, rfl⟩ := hd
    exact (h.values id n hw hn).2
  | .alias name, id, hw, hd => by
    obtain ⟨n, hn, hk, -⟩ := hd
    exact (h.values id n hw hn).1 hk
  | .sequence f items, id, hw, hd => by
    obtain ⟨n, hn, hk, rfl, hitems⟩ := hd
    refine ⟨(h.values id n hw hn).2, unadornedItems_of_denotes h hs (fun c hc => ?_) hitems⟩
    exact .item hw hn hk (by simpa using hc)
  | .mapping f entries, id, hw, hd => by
    obtain ⟨n, hn, hk, rfl, hentries⟩ := hd
    exact ⟨(h.values id n hw hn).2, unadornedEntries_of_denotes h hs
      (fun k v hkv => ⟨id, n, v, hw, hn, hk, hkv⟩) (fun k v hkv => .value hw hn hk hkv) hentries⟩

theorem unadornedItems_of_denotes (h : t.TagFree) (hs : t.ShortKeys) :
    ∀ {items : List Shape} {ids : List NodeId}, (∀ c ∈ ids, t.WritesValue c) →
      DenotesItems t ids items → Shape.UnadornedItems items
  | [], _, _, _ => trivial
  | _ :: _, _, hw, hd => by
    obtain ⟨id, ids, rfl, hd, hrest⟩ := hd
    exact ⟨unadorned_of_denotes h hs (hw id (List.mem_cons_self ..)) hd,
      unadornedItems_of_denotes h hs (fun c hc => hw c (List.mem_cons_of_mem _ hc)) hrest⟩

theorem unadornedEntries_of_denotes (h : t.TagFree) (hs : t.ShortKeys) :
    ∀ {entries : List (Key × Shape)} {pairs : List (NodeId × Option NodeId)},
      (∀ k v, (k, v) ∈ pairs → t.WritesKey k) → (∀ k v, (k, some v) ∈ pairs → t.WritesValue v) →
      DenotesEntries t pairs entries → Shape.UnadornedEntries entries
  | [], _, _, _, _ => trivial
  | (k, s) :: rest, _, hkeys, hvalues, hd => by
    obtain ⟨i, v, pairs, rfl, hk, hv, hnone, hrest⟩ := hd
    have hshape : s.Unadorned := by
      cases v with
      | none =>
        rw [hnone rfl]
        exact Face.unadorned_plainly "" .plain
      | some v =>
        exact unadorned_of_denotes h hs (hvalues i v (List.mem_cons_self ..)) (hv v rfl)
    exact ⟨unadorned_key h hs (hkeys i v (List.mem_cons_self ..)) hk, hshape,
      unadornedEntries_of_denotes h hs (fun k v hkv => hkeys k v (List.mem_cons_of_mem _ hkv))
        (fun k v hkv => hvalues k v (List.mem_cons_of_mem _ hkv)) hrest⟩

end

end Tree

namespace Shape

mutual

/-- The values of an unadorned shape are no aliases. -/
theorem direct_of_unadorned : ∀ {s : Shape}, s.Unadorned → s.Direct
  | .scalar _, _ => trivial
  | .alias _, h => h
  | .sequence _ _, h => directItems_of_unadorned h.2
  | .mapping _ _, h => directEntries_of_unadorned h.2

theorem directItems_of_unadorned : ∀ {items : List Shape}, UnadornedItems items → DirectItems items
  | [], _ => trivial
  | _ :: _, h => ⟨direct_of_unadorned h.1, directItems_of_unadorned h.2⟩

theorem directEntries_of_unadorned : ∀ {entries : List (Key × Shape)}, UnadornedEntries entries →
    DirectEntries entries
  | [], _ => trivial
  | (_, _) :: _, h => ⟨direct_of_unadorned h.2.1, directEntries_of_unadorned h.2.2⟩

end

end Shape

namespace Tree

variable {t : Tree}

/-- Of a scalar nothing is written only if it is empty and no string. -/
theorem text_of_bare {f : Face} (h : f.reread = {}) : f.text = "" ∧ f.node.isString = false := by
  have htext : f.text = "" := congrArg Face.text h
  have hstyle : f.writtenStyle = .plain := congrArg Face.style h
  refine ⟨htext, ?_⟩
  unfold Face.writtenStyle at hstyle
  split at hstyle
  · exact absurd hstyle (by decide)
  · split at hstyle
    · rename_i hp
      have := (Bool.and_eq_true _ _ ▸ hp).1
      simpa using this
    · rw [htext] at hstyle
      exact absurd hstyle (by decide)

/-- Empty text is a document without a value. -/
theorem read_nothing (maxDepth : Nat) : read maxDepth "" = .ok .empty := by
  have h : (scan "".toList).namedEvents = .ok [] := by decide +kernel
  rw [read_of_events h]
  rfl

theorem value_of_nothing (hk : t.rootNode.kind = .document) (hv : t.rootValue? = none)
    (maxDepth : Nat) : t.value maxDepth = .ok (.map []) := by
  rw [rootValue?] at hv
  have hcontent : t.content contentSteps root = .ok .nothing := by
    simp [contentSteps, content, node_eq_ok.mpr t.get?_root, bind, Except.bind, hk, hv]
    rfl
  rw [value, valueOf, valueAt.eq_def]
  simp only [hcontent]
  rfl

/-- What is written of a document without anchors and tags reads back as a document with the same
value, and that one is written in the same way. -/
theorem read_write {maxDepth : Nat} {text : String} (hroot : t.rootNode.kind = .document)
    (h : t.TagFree) (hs : t.ShortKeys)
    (hvalue : ∀ id n, t.rootValue? = some id → t.get? id = some n →
      ¬ (n.kind = .scalar ∧ n.value = "" ∧ n.isString = false))
    (hw : t.write maxDepth = .ok text) :
    ∃ t' v, read maxDepth text = .ok t' ∧ t.value maxDepth = .ok v ∧ t'.value maxDepth = .ok v ∧
      t'.write maxDepth = .ok text := by
  cases hv : t.rootValue? with
  | none =>
    have htext : text = "" := by
      rw [write, hv] at hw
      exact (Except.ok.inj hw).symm
    subst htext
    exact ⟨.empty, .map [], read_nothing maxDepth, value_of_nothing hroot hv maxDepth,
      value_of_nothing rfl rfl maxDepth, rfl⟩
  | some id =>
    obtain ⟨s, hd, hle, rfl⟩ := (write_eq_ok hv).mp hw
    have hun : s.Unadorned := unadorned_of_denotes h hs (.root hv) hd
    have hbare : ¬ s.Bare := by
      intro hb
      cases s with
      | scalar f =>
        obtain ⟨n, hn, hk, rfl⟩ := hd
        obtain ⟨htext, hstring⟩ := text_of_bare (Shape.scalar.inj hb)
        exact hvalue id n hv hn ⟨hk, htext, hstring⟩
      | «alias» name => exact hun.elim
      | sequence f items => cases hb
      | mapping f entries => cases hb
    obtain ⟨t', id', ht', hroot', hd'⟩ := Shape.read_written hun hbare hle
    have hv' : t'.rootValue? = some id' := by
      rw [rootValue?, hroot']
      rfl
    have hle' : s.reread.height ≤ maxDepth := by
      rw [Shape.height_reread]
      exact hle
    refine ⟨t', s.value, ht', value_of_denotes hroot hv hd (Shape.direct_of_unadorned hun) hle, ?_, ?_⟩
    · have hdirect := Shape.direct_of_readable (Shape.readable_reread hun)
      rw [value_of_denotes (by rw [hroot']) hv' hd' hdirect hle', Shape.value_reread]
    · exact (write_eq_ok hv').mpr ⟨s.reread, hd', hle', by rw [Shape.written_reread]⟩

/-- A tree none of whose nodes has an anchor or a tag or is an alias. -/
theorem tagFree_of_nodes
    (h : ∀ n ∈ t.nodes, n.kind ≠ .alias ∧ n.anchor = none ∧ n.hasOwnTag = false) : t.TagFree := by
  have hget {id : NodeId} {n : Node} (hn : t.get? id = some n) : n ∈ t.nodes :=
    Array.mem_of_getElem? hn
  exact ⟨fun id n _ hn => h n (hget hn), fun k n _ hn => ⟨(h n (hget hn)).1, fun _ => (h n (hget hn)).2⟩⟩

theorem shortKeys_of_size
    (h : ∀ k < t.size, ∀ text ∈ (t.writeKey k).toOption, text.length ≤ 1024) : t.ShortKeys := by
  intro k text _ hk
  have hsize : k < t.size := by
    obtain ⟨n, hn, -⟩ := bind_eq_ok hk
    by_contra hle
    rw [node_eq_ok, get?_eq_none_iff.mpr (Nat.le_of_not_lt hle)] at hn
    exact absurd hn nofun
  exact h k hsize text (by simp [hk, Except.toOption])

/-- A literal block under a key. -/
theorem read_write_literal : ∃ t' v, read 128 "k: |\n    x\n    y\n" = .ok t' ∧
    (⟨#[{ kind := .document, children := #[1] }, { kind := .mapping, children := #[2, 3] },
      { kind := .scalar, value := "k" }, { kind := .scalar, value := "x\ny\n", style := .double }],
      by decide⟩ : Tree).value 128 = .ok v ∧ t'.value 128 = .ok v ∧
    t'.write 128 = .ok "k: |\n    x\n    y\n" := by
  refine read_write rfl (tagFree_of_nodes (by decide)) (shortKeys_of_size (by decide +kernel)) ?_
    (by decide +kernel)
  intro id n hid hn
  obtain rfl : 1 = id := by simpa [rootValue?, rootNode] using hid
  obtain rfl := Option.some.inj hn
  decide

/-- Where the root is no document, the value of the tree is that of the root, which is not written. -/
theorem read_write_scalar_root : ¬ ∀ (t : Tree) (maxDepth : Nat) (text : String), t.TagFree →
    t.ShortKeys → (∀ id n, t.rootValue? = some id → t.get? id = some n →
      ¬ (n.kind = .scalar ∧ n.value = "" ∧ n.isString = false)) →
    t.write maxDepth = .ok text →
    ∃ t' v, read maxDepth text = .ok t' ∧ t.value maxDepth = .ok v ∧ t'.value maxDepth = .ok v ∧
      t'.write maxDepth = .ok text := by
  intro h
  obtain ⟨t', v, ht', hv, hv', -⟩ := h
    ⟨#[{ kind := .scalar, tag := "!!str", value := "!Find [a]", style := .single, children := #[1] },
      { kind := .scalar, value := "a" }], by decide⟩ 128 "a\n" (tagFree_of_nodes (by decide))
    (shortKeys_of_size (by decide +kernel)) (fun id n hid hn => by
      obtain rfl : 1 = id := by simpa [rootValue?, rootNode] using hid
      obtain rfl := Option.some.inj hn
      decide) (by decide +kernel)
  have hread : read 128 "a\n" = .ok ⟨#[{ kind := .document, children := #[1] },
      { kind := .scalar, value := "a" }], by decide⟩ := by decide +kernel
  obtain rfl := Except.ok.inj (hread.symm.trans ht')
  have hroot : Value.text "!Find [a]" = v := Except.ok.inj ((valueAt_scalar rfl rfl ..).symm.trans hv)
  have hread' : Value.text "a" = v := Except.ok.inj ((value_of_denotes
    (s := .scalar { text := "a" }) rfl (show _ = some 1 from rfl) ⟨_, rfl, rfl, rfl⟩ trivial
    (Nat.zero_le _)).symm.trans hv')
  exact absurd (Value.text.inj (hroot.trans hread'.symm)) (by decide)

end Tree

end TaggedYaml
