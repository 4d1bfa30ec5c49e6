import TaggedYaml.Codec
import TaggedYaml.Proofs.Shape.Written
import TaggedYaml.Proofs.Tree.Aliases
import TaggedYaml.Proofs.Tree.Flattens
import TaggedYaml.Proofs.Tree.Lossless

/-!
# Total — what is read can be written

In a tree that was read every number leads to a node (`Tree.Closed`), and no collection stands deeper
than the ceiling (`Tree.Levelled`).  Flattening keeps both, and from both follows that there is a
shape with room enough below the document (`exists_shape`), so the tree can be written.  Its value
fails on aliases only, which may lead to a collection that is too deep for the place of the alias.
-/

namespace TaggedYaml

namespace Tree

variable {t t' : Tree} {id : NodeId} {n : Node} {maxDepth : Nat} {level : NodeId → Nat}

/-- Children and targets are nodes other than the root, and no target is an alias. -/
structure Closed (t : Tree) : Prop where
  document : ∀ id n, t.get? id = some n → n.kind = .document → id = root
  child : ∀ id n c, t.get? id = some n → c ∈ n.children → c ≠ root ∧ ∃ m, t.get? c = some m
  target : ∀ id n, t.get? id = some n → n.kind = .alias →
    ∃ r m, n.target = some r ∧ r ≠ root ∧ t.get? r = some m ∧ m.kind ≠ .alias

/-- The value of the document stands at level 0, the members of a collection one level further in,
and no collection at the ceiling. -/
structure Levelled (maxDepth : Nat) (level : NodeId → Nat) (t : Tree) : Prop where
  child : ∀ id n c, t.get? id = some n → c ∈ n.children →
    level c = if id = root then 0 else level id + 1
  lt : ∀ id n, t.get? id = some n → n.kind.isCollection = true → level id < maxDepth

/-! ### Flattening -/

theorem Closed.flattens (h : t.Closed) (hf : t.Flattens t') : t'.Closed := by
  refine ⟨fun id n' hn' hk => ?_, fun id n' c hn' hc => ?_, fun id n' hn' hk => ?_⟩
  · obtain ⟨n, hn, hnf⟩ := hf.node id n' hn'
    rw [hnf.eq (by rw [hk]; exact nofun)] at hk
    exact h.document id n hn hk
  · obtain ⟨n, hn, hnf⟩ := hf.node id n' hn'
    obtain ⟨hne, m, hm⟩ := h.child id n c hn (hnf.children ▸ hc)
    obtain ⟨m', hm', -⟩ := hf.of_get? hm
    exact ⟨hne, m', hm'⟩
  · obtain ⟨n, hn, hnf⟩ := hf.node id n' hn'
    rw [hnf.eq (by rw [hk]; exact nofun)] at hk
    obtain ⟨r, m, hr, hne, hm, hmk⟩ := h.target id n hn hk
    obtain ⟨m', hm', hmf⟩ := hf.of_get? hm
    refine ⟨r, m', hnf.target.trans hr, hne, hm', ?_⟩
    rcases hmf.eq_or_scalar with rfl | hs
    · exact hmk
    · rw [hs]
      exact nofun

theorem Levelled.flattens (h : t.Levelled maxDepth level) (hf : t.Flattens t') :
    t'.Levelled maxDepth level := by
  refine ⟨fun id n' c hn' hc => ?_, fun id n' hn' hk => ?_⟩
  · obtain ⟨n, hn, hnf⟩ := hf.node id n' hn'
    exact h.child id n c hn (hnf.children ▸ hc)
  · obtain ⟨n, hn, hnf⟩ := hf.node id n' hn'
    rw [hnf.eq (by rintro hs; rw [hs] at hk; cases hk)] at hk
    exact h.lt id n hn hk

/-! ### Reading -/

theorem closed_read {text : String} (h : read maxDepth text = .ok t) : t.Closed := by
  obtain ⟨es, -, ht⟩ := exists_of_read h
  have hrooted := rooted_ofEvents ht
  refine ⟨fun id n hn => (hrooted.document id n hn).mp, fun id n c hn hc => ?_, fun id n hn hk => ?_⟩
  · obtain ⟨hlt, hsize⟩ := hrooted.forward id n c hn hc
    exact ⟨Nat.ne_of_gt (Nat.lt_of_le_of_lt (Nat.zero_le _) hlt), exists_get? hsize⟩
  · obtain ⟨r, hr, -, ⟨m, hm, hmk, hanchor⟩, -⟩ := latest_of_read h hn hk
    refine ⟨r, m, hr, ?_, hm, hmk⟩
    rintro rfl
    have hroot := t.getElem?_bares root
    rw [bares_ofEvents ht, hm] at hroot
    have hdocument : ({ kind := .document } : Node) = m.bare := Option.some.inj hroot
    rw [← Node.anchor_of_bare (m := m) (n := { kind := .document }) hdocument] at hanchor
    cases hanchor

end Tree

namespace Builder

variable {b b' : Builder} {e : Marked Event} {maxDepth : Nat} {level : NodeId → Nat} {n : Node}

/-- The open collections stand one inside the other. -/
structure Nests (maxDepth : Nat) (level : NodeId → Nat) (b : Builder) : Prop where
  tree : b.tree.Levelled maxDepth level
  stack : ∀ id outer, id :: outer <:+ b.stack →
    id ≠ Tree.root ∧ id < b.tree.size ∧ level id = outer.length

/-- A new node stands inside the open collections. -/
theorem Nests.enters (h : Nests maxDepth level b) (hrooted : b.tree.Rooted)
    (hn : Enters maxDepth b e n b') :
    Nests maxDepth (Function.update level b.tree.size b.stack.length) b' := by
  have hold {id : Nat} (hid : id < b.tree.size) :
      Function.update level b.tree.size b.stack.length id = level id :=
    Function.update_of_ne (Nat.ne_of_lt hid) ..
  have hparent : b.stack.length = if b.parent = Tree.root then 0 else level b.parent + 1 := by
    rw [parent]
    cases hs : b.stack with
    | nil => rfl
    | cons id outer =>
      obtain ⟨hne, -, hlevel⟩ := h.stack id outer (hs ▸ List.suffix_refl _)
      rw [List.headD_cons, if_neg hne, hlevel, List.length_cons]
  refine ⟨⟨fun id m c hm hc => ?_, fun id m hm hk => ?_⟩, fun id outer hsuffix => ?_⟩
  · rcases hn.tree.cases hm with ⟨rfl, rfl⟩ | ⟨m₀, hm₀, -, hchildren⟩
    · rw [Marked.children_of_node? hn.node] at hc
      simp at hc
    · rw [hold (Tree.lt_size hm₀)]
      rcases hchildren c hc with hc | ⟨rfl, rfl⟩
      · rw [hold (hrooted.forward id m₀ c hm₀ hc).2]
        exact h.tree.child id m₀ c hm₀ hc
      · rw [Function.update_self]
        exact hparent
  · rcases hn.tree.cases hm with ⟨rfl, rfl⟩ | ⟨m₀, hm₀, hbare, -⟩
    · rw [Function.update_self]
      exact hn.room hk
    · rw [hold (Tree.lt_size hm₀)]
      exact h.tree.lt id m₀ hm₀ (Node.kind_of_bare hbare ▸ hk)
  · have hinner (hsuffix : id :: outer <:+ b.stack) : id ≠ Tree.root ∧ id < b'.tree.size ∧
        Function.update level b.tree.size b.stack.length id = outer.length := by
      obtain ⟨hne, hlt, hlevel⟩ := h.stack id outer hsuffix
      exact ⟨hne, hn.tree.size ▸ Nat.lt_succ_of_lt hlt, (hold hlt).trans hlevel⟩
    rw [hn.stack] at hsuffix
    split at hsuffix
    · rcases List.suffix_cons_iff.mp hsuffix with heq | hsuffix
      · obtain ⟨rfl, rfl⟩ := List.cons.inj heq
        refine ⟨Nat.ne_of_gt b.tree.size_pos, ?_, Function.update_self ..⟩
        rw [hn.tree.size]
        exact Nat.lt_succ_self _
      · exact hinner hsuffix
    · exact hinner hsuffix

theorem Nests.leaves (h : Nests maxDepth level b) (hl : Leaves b e b') : Nests maxDepth level b' := by
  obtain ⟨inner, hstack⟩ := hl.stack
  refine ⟨hl.tree ▸ h.tree, fun id outer hsuffix => ?_⟩
  rw [hl.tree]
  exact h.stack id outer (hsuffix.trans (hstack ▸ List.suffix_cons inner _))

theorem nests_foldlM {es : List (Marked Event)}
    (hb : es.foldlM (step maxDepth) ⟨.empty, [], []⟩ = .ok b) : ∃ level, Nests maxDepth level b := by
  have hrun := run_keeps (P := fun _ b => b.tree.Rooted ∧ ∃ level, Nests maxDepth level b)
    (fun _ e b b' ⟨hrooted, level, h⟩ hs => ?_) ⟨Tree.rooted_empty, fun _ => 0, ?_⟩ hb
  · exact hrun.2
  · rcases step_cases hs with ⟨n, hn⟩ | hl
    · refine ⟨hrooted.appends hn.tree ?_ (Marked.children_of_node? hn.node), _, h.enters hrooted hn⟩
      exact Marked.kind_of_node? hn.node
    · exact ⟨hl.tree ▸ hrooted, level, h.leaves hl⟩
  · refine ⟨⟨fun id n c hn hc => ?_, fun id n hn hk => ?_⟩, fun id outer h => ?_⟩
    · exact absurd (Tree.rooted_empty.forward id n c hn hc).2
        (Nat.not_lt.mpr (Nat.lt_of_le_of_lt (Nat.zero_le _) (Tree.rooted_empty.forward id n c hn hc).1))
    · obtain rfl : id = 0 := Nat.lt_one_iff.mp (Tree.lt_size hn)
      cases hn
      cases hk
    · exact absurd h.length_le (Nat.not_succ_le_zero _)

end Builder

namespace Tree

variable {t : Tree} {id : NodeId} {n : Node} {maxDepth room : Nat} {level : NodeId → Nat}

theorem levelled_read {text : String} (h : read maxDepth text = .ok t) :
    ∃ level, t.Levelled maxDepth level := by
  obtain ⟨es, -, ht⟩ := exists_of_read h
  obtain ⟨b, hb, rfl⟩ := exists_of_ofEvents ht
  obtain ⟨level, hlevel⟩ := Builder.nests_foldlM hb
  exact ⟨level, hlevel.tree⟩

/-! ### Writing -/

theorem Closed.resolve? (h : t.Closed) (hn : t.get? id = some n) (hk : n.kind = .alias) :
    ∃ r m, t.resolve? id = some r ∧ r ≠ root ∧ t.get? r = some m ∧ m.kind ≠ .alias ∧
      n.target = some r := by
  obtain ⟨r, m, htarget, hne, hm, hmk⟩ := h.target id n hn hk
  have hb : (m.kind == .alias) = false := by simpa using hmk
  obtain ⟨k, hsize⟩ := Nat.exists_eq_succ_of_ne_zero (Nat.ne_of_gt t.size_pos)
  refine ⟨r, m, ?_, hne, hm, hmk, htarget⟩
  rw [Tree.resolve?, size, hsize, follow, hn]
  simp only [hk, beq_self_eq_true, if_true, htarget, Option.bind_some, follow, hm, hb,
    Bool.false_eq_true, if_false]

/-- Every node is a key. -/
theorem Closed.exists_key (h : t.Closed) (hn : t.get? id = some n) : ∃ k, t.DenotesKey id k := by
  by_cases ha : n.kind = .alias
  · obtain ⟨r, m, hr, -, hm, -⟩ := h.resolve? hn ha
    exact ⟨.alias n.value m.value, n, r, m, hn, ha, rfl, hr, hm, rfl⟩
  by_cases hs : n.kind = .scalar
  · exact ⟨.scalar n.face, n, hn, hs, rfl⟩
  · exact ⟨.other n.value, n, hn, ha, hs, rfl⟩

/-- What every node below the document has, if there is some room. -/
def Shaped (t : Tree) (room : Nat) (id : NodeId) : Prop :=
  ∃ s, t.Denotes id s ∧ s.height ≤ room ∧
    ((∀ id n, t.get? id = some n → n.kind ≠ .alias) → s.Direct)

theorem exists_items : ∀ {ids : List NodeId}, (∀ id ∈ ids, t.Shaped room id) →
    ∃ items, t.DenotesItems ids items ∧ Shape.heightItems items ≤ room ∧
      ((∀ id n, t.get? id = some n → n.kind ≠ .alias) → Shape.DirectItems items)
  | [], _ => ⟨[], rfl, Nat.zero_le _, fun _ => trivial⟩
  | id :: ids, h => by
    rw [List.forall_mem_cons] at h
    obtain ⟨s, hs, hheight, hdirect⟩ := h.1
    obtain ⟨items, hitems, hheights, hdirects⟩ := exists_items h.2
    exact ⟨s :: items, ⟨id, ids, rfl, hs, hitems⟩, Nat.max_le.mpr ⟨hheight, hheights⟩,
      fun hno => ⟨hdirect hno, hdirects hno⟩⟩

theorem exists_entries : ∀ {pairs : List (NodeId × Option NodeId)},
    (∀ p ∈ pairs, (∃ k, t.DenotesKey p.1 k) ∧ ∀ v ∈ p.2, t.Shaped room v) →
    ∃ entries, t.DenotesEntries pairs entries ∧ Shape.heightEntries entries ≤ room ∧
      ((∀ id n, t.get? id = some n → n.kind ≠ .alias) → Shape.DirectEntries entries)
  | [], _ => ⟨[], rfl, Nat.zero_le _, fun _ => trivial⟩
  | (i, v) :: pairs, h => by
    rw [List.forall_mem_cons] at h
    obtain ⟨⟨k, hk⟩, hv⟩ := h.1
    obtain ⟨entries, hentries, hheights, hdirects⟩ := exists_entries h.2
    cases v with
    | none =>
      exact ⟨(k, .empty) :: entries, ⟨i, none, pairs, rfl, hk, by simp, fun _ => rfl, hentries⟩,
        Nat.max_le.mpr ⟨Nat.zero_le _, hheights⟩, fun hno => ⟨trivial, hdirects hno⟩⟩
    | some v =>
      obtain ⟨s, hs, hheight, hdirect⟩ := hv v rfl
      refine ⟨(k, s) :: entries, ⟨i, some v, pairs, rfl, hk, ?_, by simp, hentries⟩,
        Nat.max_le.mpr ⟨hheight, hheights⟩, fun hno => ⟨hdirect hno, hdirects hno⟩⟩
      rintro _ ⟨⟩
      exact hs

theorem Closed.shaped (h : t.Closed) (hn : t.get? id = some n) (hne : id ≠ root)
    (hk : n.kind.isCollection = false) (room : Nat) : t.Shaped room id := by
  cases hk' : n.kind with
  | document => exact absurd (h.document id n hn hk') hne
  | scalar => exact ⟨.scalar n.face, ⟨n, hn, hk', rfl⟩, Nat.zero_le _, fun _ => trivial⟩
  | «alias» =>
    obtain ⟨r, -, hr, -⟩ := h.resolve? hn hk'
    exact ⟨.alias n.value, ⟨n, hn, hk', rfl, hr ▸ rfl⟩, Nat.zero_le _,
      fun hno => absurd hk' (hno id n hn)⟩
  | mapping => simp [hk', Kind.isCollection] at hk
  | sequence => simp [hk', Kind.isCollection] at hk

/-- Below every node there is room for its shape. -/
theorem exists_shape (hc : t.Closed) (hl : t.Levelled maxDepth level) : ∀ {room : Nat} {id : NodeId}
    {n : Node}, t.get? id = some n → id ≠ root → level id + room = maxDepth → t.Shaped room id := by
  intro room
  induction room with
  | zero =>
    intro id n hn hne hroom
    refine hc.shaped hn hne (Bool.eq_false_iff.mpr fun hk => ?_) 0
    have := hl.lt id n hn hk
    omega
  | succ room ih =>
    intro id n hn hne hroom
    have hmember (c : NodeId) (hmem : c ∈ n.children) : t.Shaped room c := by
      obtain ⟨hcne, m, hm⟩ := hc.child id n c hn hmem
      have hlevel := hl.child id n c hn hmem
      rw [if_neg hne] at hlevel
      exact ih hm hcne (by omega)
    cases hk : n.kind with
    | sequence =>
      have hitems (c : NodeId) (hmem : c ∈ n.children.toList) : t.Shaped room c :=
        hmember c (Array.mem_toList_iff.mp hmem)
      obtain ⟨items, hitems, hheights, hdirects⟩ := exists_items hitems
      exact ⟨.sequence n.face items, ⟨n, hn, hk, rfl, hitems⟩, Nat.succ_le_succ hheights, hdirects⟩
    | mapping =>
      have hentries (p : NodeId × Option NodeId) (hp : p ∈ inPairs n.children.toList) :
          (∃ k, t.DenotesKey p.1 k) ∧ ∀ v ∈ p.2, t.Shaped room v := by
        obtain ⟨hkey, hvalue⟩ := mem_inPairs hp
        obtain ⟨-, m, hm⟩ := hc.child id n p.1 hn (Array.mem_toList_iff.mp hkey)
        exact ⟨hc.exists_key hm, fun v hv => hmember v (Array.mem_toList_iff.mp (hvalue v hv))⟩
      obtain ⟨entries, hentries, hheights, hdirects⟩ := exists_entries hentries
      exact ⟨.mapping n.face entries, ⟨n, hn, hk, rfl, hentries⟩, Nat.succ_le_succ hheights, hdirects⟩
    | _ => exact hc.shaped hn hne (by rw [hk]; rfl) _

/-- The value of the document has room for its shape. -/
theorem shaped_rootValue (hc : t.Closed) (hl : t.Levelled maxDepth level)
    (hv : t.rootValue? = some id) : t.Shaped maxDepth id := by
  rw [rootValue?] at hv
  have hmem : id ∈ t.rootNode.children := Array.mem_of_getElem? hv
  obtain ⟨hne, n, hn⟩ := hc.child root t.rootNode id t.get?_root hmem
  have hlevel := hl.child root t.rootNode id t.get?_root hmem
  rw [if_pos rfl] at hlevel
  exact exists_shape hc hl hn hne (by omega)

/-- A tree without deep collections can be written. -/
theorem exists_write (hc : t.Closed) (hl : t.Levelled maxDepth level) :
    ∃ text, t.write maxDepth = .ok text := by
  rw [write]
  cases hv : t.rootValue? with
  | none => exact ⟨"", rfl⟩
  | some id =>
    obtain ⟨s, hs, hheight, -⟩ := shaped_rootValue hc hl hv
    exact ⟨_, bind_ok (writeValue_of_denotes t maxDepth s maxDepth id 0 .top hs hheight) _⟩

/-! ### Values -/

theorem Closed.keyText_ok (h : t.Closed) (hn : t.get? id = some n) :
    ∃ text, t.keyText id = .ok text := by
  obtain ⟨k, hk⟩ := h.exists_key hn
  exact ⟨k.text, keyText_of_denotes hk⟩

/-- Below the document no more than one alias has to be passed to a content. -/
theorem Closed.content_ok (h : t.Closed) (hn : t.get? id = some n) (hne : id ≠ root) (fuel : Nat) :
    ∃ c, t.content (fuel + 2) id = .ok c ∧ ∀ m, c = .collection m → ∃ i, t.get? i = some m := by
  have hdirect {id : NodeId} {n : Node} (hn : t.get? id = some n) (hne : id ≠ root)
      (hk : n.kind ≠ .alias) (fuel : Nat) : ∃ c, t.content (fuel + 1) id = .ok c ∧
        ∀ m, c = .collection m → ∃ i, t.get? i = some m := by
    cases hk' : n.kind with
    | document => exact absurd (h.document id n hn hk') hne
    | «alias» => exact absurd hk' hk
    | scalar => exact ⟨_, content_scalar hn hk' fuel, fun m hm => by cases hm⟩
    | sequence => exact ⟨_, content_collection hn (.inl hk') fuel, by rintro m ⟨⟩; exact ⟨id, hn⟩⟩
    | mapping => exact ⟨_, content_collection hn (.inr hk') fuel, by rintro m ⟨⟩; exact ⟨id, hn⟩⟩
  by_cases hk : n.kind = .alias
  · obtain ⟨r, m, hr, hrne, hm, hmk, -⟩ := h.resolve? hn hk
    obtain ⟨c, hcontent, hnode⟩ := hdirect hm hrne hmk fuel
    refine ⟨c, ?_, hnode⟩
    rw [content, bind_ok (node_eq_ok.mpr hn), hk]
    exact (bind_ok (aliased_eq_ok.mpr hr) _).trans hcontent
  · exact hdirect hn hne hk (fuel + 1)

/-- Every node has a content. -/
theorem Closed.content_steps (h : t.Closed) (hn : t.get? id = some n) :
    ∃ c, t.content contentSteps id = .ok c ∧ ∀ m, c = .collection m → ∃ i, t.get? i = some m := by
  by_cases hroot : id = root
  swap
  · exact h.content_ok hn hroot 2
  subst hroot
  cases hk : n.kind with
  | scalar => exact ⟨_, content_scalar hn hk 3, fun m hm => by cases hm⟩
  | sequence => exact ⟨_, content_collection hn (.inl hk) 3, by rintro m ⟨⟩; exact ⟨root, hn⟩⟩
  | mapping => exact ⟨_, content_collection hn (.inr hk) 3, by rintro m ⟨⟩; exact ⟨root, hn⟩⟩
  | «alias» =>
    obtain ⟨r, m, hr, hrne, hm, -⟩ := h.resolve? hn hk
    obtain ⟨c, hcontent, hnode⟩ := h.content_ok hm hrne 1
    refine ⟨c, ?_, hnode⟩
    rw [contentSteps, content, bind_ok (node_eq_ok.mpr hn), hk]
    exact (bind_ok (aliased_eq_ok.mpr hr) _).trans hcontent
  | document =>
    cases hfirst : n.children[0]? with
    | none =>
      refine ⟨.nothing, ?_, fun m hm => by cases hm⟩
      rw [contentSteps, content, bind_ok (node_eq_ok.mpr hn), hk]
      simp only [hfirst, bne_self_eq_false, Bool.false_eq_true, if_false]
      rfl
    | some child =>
      obtain ⟨hne, m, hm⟩ := h.child root n child hn (Array.mem_of_getElem? hfirst)
      obtain ⟨c, hcontent, hnode⟩ := h.content_ok hm hne 1
      refine ⟨c, ?_, hnode⟩
      rw [contentSteps, content, bind_ok (node_eq_ok.mpr hn), hk]
      simp only [hfirst, bne_self_eq_false, Bool.false_eq_true, if_false]
      exact hcontent

/-- Entries can be put into a map if their values are known. -/
theorem Closed.putAll_error (h : t.Closed) {e : Error} {pairs : List (NodeId × Option NodeId)}
    {into : List (String × Value)} (hkeys : ∀ p ∈ pairs, ∃ m, t.get? p.1 = some m)
    (he : t.putAll maxDepth room into pairs = .error e) :
    ∃ p ∈ pairs, ∃ v ∈ p.2, t.valueAt maxDepth room v = .error e := by
  obtain ⟨⟨k, v⟩, hp, entries, he⟩ := exists_of_foldlM_error he
  obtain ⟨m, hm⟩ := hkeys (k, v) hp
  obtain ⟨text, htext⟩ := h.keyText_ok hm
  cases v with
  | none =>
    simp only [htext] at he
    cases he
  | some v =>
    rcases bind_eq_error he with he | ⟨value, -, he⟩
    · exact ⟨(k, some v), hp, v, rfl, he⟩
    · simp only [htext] at he
      cases he

/-- A value fails on depth only. -/
theorem Closed.valueAt_error (h : t.Closed) {e : Error} : ∀ {room : Nat} {id : NodeId} {n : Node},
    t.get? id = some n → t.valueAt maxDepth room id = .error e → e = .depthExceeded maxDepth := by
  intro room
  induction room with
  | zero =>
    intro id n hn he
    obtain ⟨c, hc, -⟩ := h.content_steps hn
    rw [valueAt_of_content hc] at he
    cases c with
    | collection m => exact (Except.error.inj he).symm
    | _ => cases he
  | succ room ih =>
    intro id n hn he
    obtain ⟨c, hc, hnode⟩ := h.content_steps hn
    rw [valueAt_of_content hc] at he
    cases c with
    | collection m =>
      obtain ⟨i, hm⟩ := hnode m rfl
      have hchild {c : NodeId} (hmem : c ∈ m.children.toList) : ∃ m', t.get? c = some m' :=
        (h.child i m c hm (Array.mem_toList_iff.mp hmem)).2
      simp only at he
      split at he
      · obtain ⟨c, hmem, he⟩ := exists_of_mapM_error (map_eq_error he)
        obtain ⟨m', hm'⟩ := hchild hmem
        exact ih hm' he
      · obtain ⟨⟨k, v⟩, hp, c, hc, he⟩ := h.putAll_error
          (fun p hp => hchild (mem_inPairs hp).1) (map_eq_error he)
        obtain ⟨m', hm'⟩ := hchild ((mem_inPairs hp).2 c hc)
        exact ih hm' he
    | _ => cases he

/-- Without aliases there is room for the value of a document. -/
theorem exists_value (hc : t.Closed) (hl : t.Levelled maxDepth level)
    (hno : ∀ id n, t.get? id = some n → n.kind ≠ .alias)
    (hroot : t.rootNode.kind = .document ∨ t.rootNode.kind = .scalar) :
    ∃ v, t.value maxDepth = .ok v := by
  rcases hroot with hk | hk
  · cases hv : t.rootValue? with
    | none =>
      refine ⟨.map [], ?_⟩
      rw [rootValue?] at hv
      have hcontent : t.content contentSteps root = .ok .nothing := by
        rw [contentSteps, content, bind_ok (node_eq_ok.mpr t.get?_root), hk]
        simp only [hv, bne_self_eq_false, Bool.false_eq_true, if_false]
        rfl
      exact valueAt_of_content hcontent maxDepth maxDepth
    | some id =>
      obtain ⟨s, hs, hheight, hdirect⟩ := shaped_rootValue hc hl hv
      exact ⟨_, value_of_denotes hk hv hs (hdirect hno) hheight⟩
  · exact ⟨_, valueAt_scalar t.get?_root hk maxDepth maxDepth⟩

end Tree

namespace Settings

variable {s : Settings} {t : Tree} {text : String}

theorem exists_of_decode (h : s.decode text = .ok t) :
    ∃ p, Tree.read s.maxDepth text = .ok p ∧ (s.flatten p).tree = t := by
  obtain ⟨p, hp, h⟩ := bind_eq_ok h
  exact ⟨p, hp, Except.ok.inj h⟩

/-- What was read can be written.  It has a value too if the text has no aliases; if it has some, the
value may be too deep, and nothing else. -/
theorem encode_of_decode (h : s.decode text = .ok t) :
    (∃ y, s.encode t = .ok y ∧ s.encodeStripped t = .ok (s.strip y)) ∧
      (∀ e, s.value t = .error e → e = .depthExceeded s.maxDepth) ∧
      (∀ e, s.encodeJson t = .error e → e = .depthExceeded s.maxDepth) ∧
      ∀ p, Tree.read s.maxDepth text = .ok p → (∀ id n, p.get? id = some n → n.kind ≠ .alias) →
        ∃ v, s.value t = .ok v ∧ s.encodeJson t = .ok v.toJson := by
  obtain ⟨p, hp, rfl⟩ := exists_of_decode h
  obtain ⟨level, hlevel⟩ := Tree.levelled_read hp
  have hflat : p.Flattens (s.flatten p).tree := Tree.flattens_flatten p s.isExtensionTag
  have hclosed := (Tree.closed_read hp).flattens hflat
  have hlevelled := hlevel.flattens hflat
  have hvalue (e : Error) (he : s.value (s.flatten p).tree = .error e) :
      e = .depthExceeded s.maxDepth := hclosed.valueAt_error (Tree.get?_root _) he
  refine ⟨?_, hvalue, fun e he => ?_, fun p' hp' hno => ?_⟩
  · obtain ⟨y, hy⟩ := Tree.exists_write hclosed hlevelled
    exact ⟨y, hy, bind_ok hy _⟩
  · rcases bind_eq_error he with he | ⟨v, -, he⟩
    · exact hvalue e he
    · cases he
  · obtain rfl := Except.ok.inj (hp.symm.trans hp')
    obtain ⟨es, -, hes⟩ := Tree.exists_of_read hp
    have hno' (id : NodeId) (n : Node) (hn : (s.flatten p).tree.get? id = some n) :
        n.kind ≠ .alias := by
      intro hk
      obtain ⟨m, hm, hf⟩ := hflat.node id n hn
      rw [hf.eq (by rw [hk]; exact nofun)] at hk
      exact hno id m hm hk
    have hroot : (s.flatten p).tree.rootNode.kind = .document ∨
        (s.flatten p).tree.rootNode.kind = .scalar := by
      obtain ⟨m, hm, hf⟩ := hflat.node Tree.root _ (Tree.get?_root _)
      refine hf.eq_or_scalar.imp_left fun heq => ?_
      rw [heq]
      exact ((Tree.rooted_ofEvents hes).document Tree.root m hm).mpr rfl
    obtain ⟨v, hv⟩ := Tree.exists_value hclosed hlevelled hno' hroot
    exact ⟨v, hv, bind_ok hv _⟩

/-- A tagged sequence below a key, at the deepest level. -/
theorem encode_of_decode_tagged : ∃ t, (⟨.tag, [.unquote], 2⟩ : Settings).decode "a: !t [b]\n" = .ok t ∧
    (∃ y, (⟨.tag, [.unquote], 2⟩ : Settings).encode t = .ok y ∧
      (⟨.tag, [.unquote], 2⟩ : Settings).encodeStripped t =
        .ok ((⟨.tag, [.unquote], 2⟩ : Settings).strip y)) ∧
    ∃ v, (⟨.tag, [.unquote], 2⟩ : Settings).value t = .ok v := by
  have hp : Tree.read 2 "a: !t [b]\n" = .ok ⟨#[{ kind := .document, children := #[1] },
      { kind := .mapping, children := #[2, 3], mark := ⟨1, 1, 1⟩ },
      { kind := .scalar, value := "a" },
      { kind := .sequence, tag := "!t", children := #[4], mark := ⟨6, 1, 6⟩ },
      { kind := .scalar, value := "b", mark := ⟨7, 1, 7⟩ }], by decide⟩ := by decide +kernel
  have h : (⟨.tag, [.unquote], 2⟩ : Settings).decode "a: !t [b]\n" =
      .ok ⟨#[{ kind := .document, children := #[1] },
        { kind := .mapping, children := #[2, 3], mark := ⟨1, 1, 1⟩ },
        { kind := .scalar, value := "a" },
        { kind := .scalar, tag := "!!str", value := "!t [b]", style := .single, children := #[4],
          mark := ⟨6, 1, 6⟩ },
        { kind := .scalar, value := "b", mark := ⟨7, 1, 7⟩ }], by decide⟩ := by decide +kernel
  obtain ⟨hwritten, -, -, hvalue⟩ := encode_of_decode h
  have hno : ∀ n ∈ (#[{ kind := .document, children := #[1] },
      { kind := .mapping, children := #[2, 3], mark := ⟨1, 1, 1⟩ },
      { kind := .scalar, value := "a" },
      { kind := .sequence, tag := "!t", children := #[4], mark := ⟨6, 1, 6⟩ },
      { kind := .scalar, value := "b", mark := ⟨7, 1, 7⟩ }] : Array Node), n.kind ≠ .alias := by
    decide
  obtain ⟨v, hv, -⟩ := hvalue _ hp fun id n hn => hno n (Array.mem_of_getElem? hn)
  exact ⟨_, h, hwritten, v, hv⟩

end Settings

end TaggedYaml
