import TaggedYaml.Proofs.Tree.Steps

/-!
# Aliases — which node an alias of a text leads to

The target of an alias is the last node before it that has the name of the alias, and it is no alias
itself (`targets_read`).  The names of nodes are those that are written in the text, in their order.
-/

namespace TaggedYaml

namespace Tree

variable {t t' : Tree} {parent before r : Nat} {n m : Node} {name : String}

/-- Of the nodes before some number, the last one with a name; it is no alias. -/
structure Latest (t : Tree) (name : String) (before r : Nat) : Prop where
  lt : r < before
  node : ∃ m, t.get? r = some m ∧ m.kind ≠ .alias ∧ m.anchor = some name
  last : ∀ (k : Nat) m, r < k → k < before → t.get? k = some m → m.anchor ≠ some name

theorem Latest.append (hl : t.Latest name before r) (hb : before ≤ t.size)
    (h : Appends t parent n t') : t'.Latest name before r := by
  obtain ⟨hlt, ⟨m, hm, hk, ha⟩, hlast⟩ := hl
  have hold {id : Nat} (hid : id < before) {m' : Node} (hm' : t'.get? id = some m') :
      ∃ m₀, t.get? id = some m₀ ∧ m'.bare = m₀.bare := by
    rcases h.cases hm' with ⟨rfl, -⟩ | ⟨m₀, hm₀, hbare, -⟩
    · exact absurd hid (Nat.not_lt.mpr hb)
    · exact ⟨m₀, hm₀, hbare⟩
  refine ⟨hlt, ?_, fun k m' hk hkb hm' => ?_⟩
  · have hlt' : r < t'.size := by
      rw [h.size]
      omega
    obtain ⟨m', hm'⟩ := exists_get? hlt'
    obtain ⟨m₀, hm₀, hbare⟩ := hold hlt hm'
    obtain rfl := Option.some.inj (hm.symm.trans hm₀)
    exact ⟨m', hm', Node.kind_of_bare hbare ▸ hk, (Node.anchor_of_bare hbare).trans ha⟩
  · obtain ⟨m₀, hm₀, hbare⟩ := hold hkb hm'
    exact Node.anchor_of_bare hbare ▸ hlast k m₀ hk hkb hm₀

/-- A new node with another name leaves the last node with a name what it is. -/
theorem Latest.skip (hl : t.Latest name t.size r) (h : Appends t parent n t')
    (hn : n.anchor ≠ some name) : t'.Latest name t'.size r := by
  have hold := hl.append (Nat.le_refl _) h
  have hlt := hl.lt
  refine ⟨by rw [h.size]; omega, hold.node, fun k m hk hkb hm => ?_⟩
  rw [h.size] at hkb
  rcases Nat.lt_succ_iff_lt_or_eq.mp hkb with hlt | rfl
  · exact hold.last k m hk hlt hm
  · obtain rfl := Option.some.inj (h.get?_new.symm.trans hm)
    exact hn

/-- A new node is the last one with its name. -/
theorem Appends.latest (h : Appends t parent n t') (hk : n.kind ≠ .alias)
    (ha : n.anchor = some name) : t'.Latest name t'.size t.size := by
  refine ⟨by rw [h.size]; omega, ⟨n, h.get?_new, hk, ha⟩, fun k m hk hkb _ => ?_⟩
  rw [h.size] at hkb
  omega

end Tree

theorem Event.number_of_fits {known : List Anchor} {e : Event} {c : Anchor} (h : e.Fits known)
    (hc : e.anchor? = some c) : c.number = known.length + 1 := by
  cases e with
  | «alias» a => cases hc
  | _ => exact h c hc

namespace Builder

variable {b b' : Builder} {e : Marked Event} {past : List Event} {maxDepth : Nat} {n : Node}

/-- Behind some events the latest anchor of a name is bound to the last node of this name, and every
alias leads to the last node of its name before it. -/
structure Named (past : List Event) (b : Builder) : Prop where
  latest : ∀ a, (Event.anchors past).find? (·.name == a.name) = some a →
    ∃ r, b.bound.lookup a.number = some r ∧ b.tree.Latest a.name b.tree.size r
  aliases : ∀ id n, b.tree.get? id = some n → n.kind = .alias →
    ∃ r, n.target = some r ∧ b.tree.Latest n.value id r
  numbers : ∀ p ∈ b.bound, p.1 ≤ (Event.anchors past).length

theorem Named.leaves (h : Named past b) (hl : Leaves b e b') : Named (e.item :: past) b' := by
  have hanchors : Event.anchors (e.item :: past) = Event.anchors past := by
    rw [Event.anchors_cons, Event.anchor?_of_isNode hl.node]
    rfl
  refine ⟨?_, ?_, ?_⟩
  · rw [hanchors, hl.tree, hl.bound]
    exact h.latest
  · rw [hl.tree]
    exact h.aliases
  · rw [hanchors, hl.bound]
    exact h.numbers

/-- An alias has no anchor, so a node with an anchor is none. -/
theorem kind_of_anchor {bound : List (Nat × NodeId)} {c : Anchor} (h : e.node? bound = some n)
    (hc : e.item.anchor? = some c) : n.kind ≠ .alias ∧ n.anchor = some c.name := by
  refine ⟨?_, by rw [Marked.anchor_of_node? h, hc]; rfl⟩
  obtain ⟨mark, e⟩ := e
  cases e with
  | «alias» a => cases hc
  | _ => cases h <;> exact nofun

/-- The latest anchors behind an event with the anchor `c`. -/
theorem Named.latest_enters (h : Named past b) (hn : Enters maxDepth b e n b')
    (hfits : e.item.Fits (Event.anchors past)) (a : Anchor)
    (ha : (Event.anchors (e.item :: past)).find? (·.name == a.name) = some a) :
    ∃ r, b'.bound.lookup a.number = some r ∧ b'.tree.Latest a.name b'.tree.size r := by
  rw [Event.anchors_cons] at ha
  rw [hn.bound, Event.bind]
  cases hc : e.item.anchor? with
  | none =>
    rw [hc] at ha
    obtain ⟨r, hr, hlatest⟩ := h.latest a ha
    refine ⟨r, hr, hlatest.skip hn.tree ?_⟩
    rw [Marked.anchor_of_node? hn.node, hc]
    intro h
    cases h
  | some c =>
    obtain ⟨hkind, hanchor⟩ := kind_of_anchor hn.node hc
    rw [hc] at ha
    by_cases hname : c.name = a.name
    · obtain rfl : c = a := by simpa [hname] using ha
      exact ⟨b.tree.size, by simp, hn.tree.latest hkind hanchor⟩
    · have ha' : (Event.anchors past).find? (·.name == a.name) = some a := by
        simpa [hname] using ha
      obtain ⟨r, hr, hlatest⟩ := h.latest a ha'
      have hnumber := Event.number_of_fits hfits hc
      have hle : a.number ≤ (Event.anchors past).length :=
        h.numbers (a.number, r) (mem_of_lookup hr)
      refine ⟨r, ?_, hlatest.skip hn.tree (by simpa [hanchor] using hname)⟩
      have hne : (a.number == c.number) = false := by simp; omega
      simpa [List.lookup_cons, hne] using hr

/-- A new node that is an alias leads to the last node of its name. -/
theorem Named.alias_enters (h : Named past b) (hn : e.node? b.bound = some n)
    (hfits : e.item.Fits (Event.anchors past)) (hk : n.kind = .alias) :
    ∃ r, n.target = some r ∧ b.tree.Latest n.value b.tree.size r := by
  obtain ⟨mark, e⟩ := e
  cases e with
  | «alias» a =>
    cases hn
    exact h.latest a hfits
  | closeSequence => cases hn
  | closeMapping => cases hn
  | _ => cases hn; cases hk

theorem Named.enters (h : Named past b) (hn : Enters maxDepth b e n b')
    (hfits : e.item.Fits (Event.anchors past)) : Named (e.item :: past) b' := by
  refine ⟨h.latest_enters hn hfits, fun id m hm hk => ?_, fun p hp => ?_⟩
  · rcases hn.tree.cases hm with ⟨rfl, rfl⟩ | ⟨m₀, hm₀, hbare, -⟩
    · obtain ⟨r, hr, hlatest⟩ := h.alias_enters hn.node hfits hk
      exact ⟨r, hr, hlatest.append (Nat.le_refl _) hn.tree⟩
    · rw [Node.kind_of_bare hbare] at hk
      obtain ⟨r, hr, hlatest⟩ := h.aliases id m₀ hm₀ hk
      rw [Node.eq_of_bare hbare]
      exact ⟨r, hr, hlatest.append (Nat.le_of_lt (Tree.lt_size hm₀)) hn.tree⟩
  · rw [Event.anchors_cons, List.length_append]
    rw [hn.bound, List.mem_append] at hp
    rcases hp with hp | hp
    · cases hc : e.item.anchor? with
      | none => simp [Event.bind, hc] at hp
      | some c =>
        obtain rfl : p = (c.number, b.tree.size) := by simpa [Event.bind, hc] using hp
        rw [Event.number_of_fits hfits hc, Option.toList_some, List.length_singleton]
        omega
    · have := h.numbers p hp
      omega

theorem named_start : Named [] ⟨.empty, [], []⟩ := by
  refine ⟨nofun, fun id n hn hk => ?_, nofun⟩
  have hmem : n ∈ Tree.empty.nodes := Array.mem_of_getElem? hn
  obtain rfl : n = { kind := .document } := by simpa [Tree.empty] using hmem
  cases hk

theorem named_foldlM {es : List (Marked Event)} (hes : Event.Bound (es.map (·.item)).reverse)
    (hb : es.foldlM (step maxDepth) ⟨.empty, [], []⟩ = .ok b) :
    Named (es.map (·.item)).reverse b := by
  refine run_keeps (P := fun past b => Event.Bound past → Named past b)
    (fun past e b b' h hs hbound => ?_) (fun _ => named_start) hb hes
  rcases step_cases hs with ⟨n, hn⟩ | hl
  · exact (h hbound.2).enters hn hbound.1
  · exact (h hbound.2).leaves hl

end Builder

namespace Tree

variable {t : Tree} {maxDepth : Nat} {text : String} {es : List (Marked Event)}

/-- A text is read as the tree of its events. -/
theorem exists_of_read (h : read maxDepth text = .ok t) :
    ∃ es, (scan text.toList).namedEvents = .ok es ∧ ofEvents maxDepth es = .ok t := by
  unfold read at h
  split at h
  · exact ⟨_, ‹_›, h⟩
  · cases h
  · cases h

theorem anchors_node? (e : Marked Event) (bound : List (Nat × NodeId)) :
    (e.node? bound).toList.filterMap (·.anchor) = e.item.anchor?.toList.map (·.name) := by
  obtain ⟨mark, e⟩ := e
  cases e with
  | scalar _ _ _ anchor => cases anchor <;> rfl
  | openSequence _ anchor => cases anchor <;> rfl
  | openMapping _ anchor => cases anchor <;> rfl
  | _ => rfl

theorem anchors_nodesFrom : ∀ (es : List (Marked Event)) (next : NodeId)
    (bound : List (Nat × NodeId)), (nodesFrom next bound es).filterMap (·.anchor) =
      (Event.anchors (es.map (·.item))).map (·.name)
  | [], _, _ => rfl
  | e :: rest, next, bound => by
    rw [nodesFrom, List.filterMap_append, anchors_node?, anchors_nodesFrom rest, List.map_cons,
      Event.anchors_cons, List.map_append]

/-- The names of the nodes of a tree are those of the anchors of its events. -/
theorem names_ofEvents (h : ofEvents maxDepth es = .ok t) :
    t.nodes.toList.filterMap (·.anchor) = (Event.anchors (es.map (·.item))).map (·.name) := by
  have hbares : t.bares.filterMap (·.anchor) = t.nodes.toList.filterMap (·.anchor) := by
    rw [bares, List.filterMap_map]
    rfl
  rw [← hbares, bares_ofEvents h, List.filterMap_cons]
  exact anchors_nodesFrom es 1 []

theorem getElem?_names : ∀ {nodes : List Node} {id : Nat} {n : Node} {name : String},
    nodes[id]? = some n → n.anchor = some name →
    (nodes.filterMap (·.anchor))[(nodes.take (id + 1)).countP (·.anchor.isSome) - 1]? = some name
  | [], _, _, _, hn, _ => by simp at hn
  | m :: rest, 0, n, name, hn, ha => by
    obtain rfl : m = n := by simpa using hn
    simp [ha]
  | m :: rest, id + 1, n, name, hn, ha => by
    have hn' : rest[id]? = some n := by simpa using hn
    have ih := getElem?_names hn' ha
    have hpos : 0 < (rest.take (id + 1)).countP (·.anchor.isSome) := by
      refine List.countP_pos_iff.mpr ⟨n, ?_, by simp [ha]⟩
      exact List.mem_of_getElem? (i := id) (by rw [List.getElem?_take, if_pos (Nat.lt_succ_self id), hn'])
    rw [List.take_succ_cons, List.countP_cons, List.filterMap_cons]
    cases hm : m.anchor with
    | none => simpa using ih
    | some other =>
      obtain ⟨k, hk⟩ := Nat.exists_eq_add_of_lt hpos
      rw [hk] at ih ⊢
      simpa using ih

/-- In a text the target of an alias is the last node before it with the name of the alias. -/
theorem latest_of_read {id : NodeId} {n : Node} (h : read maxDepth text = .ok t)
    (hn : t.get? id = some n) (hk : n.kind = .alias) :
    ∃ r, n.target = some r ∧ t.Latest n.value id r := by
  obtain ⟨es, hes, ht⟩ := exists_of_read h
  obtain ⟨b, hb, rfl⟩ := exists_of_ofEvents ht
  exact (Builder.named_foldlM (Scan.bound_events hes) hb).aliases id n hn hk

/-- In a text the target of an alias is the last node before it with the name of the alias, and no
alias.  The name of a node is found among the written names at the place of its anchor. -/
theorem targets_read (h : read maxDepth text = .ok t) :
    (∀ a n, t.get? a = some n → n.kind = .alias →
      ∃ r, n.target = some r ∧ t.Latest n.value a r) ∧
    ∀ id n name, t.get? id = some n → n.anchor = some name →
      (anchorNames (scan text.toList).tokens)[t.anchorNumber id - 1]? = some name := by
  refine ⟨fun a n hn hk => latest_of_read h hn hk, fun id n name hn ha => ?_⟩
  obtain ⟨es, hes, ht⟩ := exists_of_read h
  have hnode : t.nodes.toList[id]? = some n := by simpa [get?] using hn
  have hname := getElem?_names hnode ha
  rw [names_ofEvents ht] at hname
  obtain ⟨later, hlater⟩ := Scan.names_events hes
  obtain ⟨hlt, -⟩ := List.getElem?_eq_some_iff.mp hname
  rw [← hlater]
  exact (List.getElem?_append_left hlt).trans hname

/-- A name is given twice, and the second node of this name holds an alias of itself. -/
theorem targets_read_again : ∃ t n, read 128 "- &a x\n- &a [*a]\n" = .ok t ∧
    t.get? 4 = some n ∧ n.kind = .alias ∧ n.target = some 3 ∧ t.Latest "a" 4 3 ∧
    (anchorNames (scan "- &a x\n- &a [*a]\n".toList).tokens)[t.anchorNumber 3 - 1]? = some "a" := by
  have h : read 128 "- &a x\n- &a [*a]\n" = .ok ⟨#[{ kind := .document, children := #[1] },
      { kind := .sequence, children := #[2, 3] },
      { kind := .scalar, value := "x", anchor := some "a", mark := ⟨5, 1, 5⟩ },
      { kind := .sequence, anchor := some "a", children := #[4], mark := ⟨12, 2, 5⟩ },
      { kind := .alias, value := "a", target := some 3, mark := ⟨13, 2, 6⟩ }], by decide⟩ := by
    decide +kernel
  obtain ⟨htargets, hnames⟩ := targets_read h
  obtain ⟨r, hr, hlatest⟩ := htargets 4 _ rfl rfl
  obtain rfl : 3 = r := Option.some.inj hr
  exact ⟨_, _, h, rfl, rfl, rfl, hlatest, hnames 3 _ "a" rfl rfl⟩

end Tree

end TaggedYaml
