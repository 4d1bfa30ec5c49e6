import TaggedYaml.Proofs.Tree.Bindings
import TaggedYaml.Proofs.Tree.Contents
import TaggedYaml.Proofs.Tree.Entries

/-!
# Mirrors — two trees that are written alike

A tree mirrors another if what is written of the two is alike, node by node (`Tree.Mirrors`).  The pairs
of nodes stand in the order of their numbers in both trees (`Mirrors.pairs`); so an alias of one tree and
its mirror image, which lead to the last node of a name, lead to nodes that are a pair again
(`Pairs.of_latest`).  Then the two trees have one value (`Mirrors.valueAt_eq`).
-/

namespace TaggedYaml

/-- Two nodes of one kind with the same text and anchor. -/
structure Node.Resembles (n m : Node) : Prop where
  kind : m.kind = n.kind
  value : m.value = n.value
  anchor : m.anchor = n.anchor

namespace Tree

/-- The children of a node have no names and no children. -/
def Quiet (u : Tree) (m : Node) : Prop :=
  ∀ c ∈ m.children.toList, ∃ k, u.get? c = some k ∧ k.anchor = none ∧ k.children = #[]

/-- A node is a scalar with a text and a name, or without a name. -/
def Says (u : Tree) (id : NodeId) (text : String) (name : Option String) : Prop :=
  ∃ m, u.get? id = some m ∧ m.kind = .scalar ∧ m.value = text ∧ m.anchor = name ∧ u.Quiet m

mutual

/-- A node is alike in another tree, with what is written below it; the pairs of nodes that are alike
are listed.  Scalars may have children in the other tree. -/
inductive Mirrors (t u : Tree) : NodeId → NodeId → List (NodeId × NodeId) → Prop where
  | leaf {x y : NodeId} {n m : Node} : t.get? x = some n → u.get? y = some m → n.Resembles m →
    n.kind = .scalar ∨ n.kind = .alias → u.Quiet m → Mirrors t u x y [(x, y)]
  | sequence {x y : NodeId} {n m : Node} {ps : List (NodeId × NodeId)} : t.get? x = some n →
    u.get? y = some m → n.Resembles m → n.kind = .sequence →
    MirrorsItems t u n.children.toList m.children.toList ps → Mirrors t u x y ((x, y) :: ps)
  | mapping {x y : NodeId} {n m : Node} {ps : List (NodeId × NodeId)} : t.get? x = some n →
    u.get? y = some m → n.Resembles m → n.kind = .mapping →
    MirrorsEntries t u (inPairs n.children.toList) (inPairs m.children.toList) ps →
    Mirrors t u x y ((x, y) :: ps)

inductive MirrorsItems (t u : Tree) : List NodeId → List NodeId → List (NodeId × NodeId) → Prop where
  | nil : MirrorsItems t u [] [] []
  | cons {x y : NodeId} {xs ys : List NodeId} {ps qs : List (NodeId × NodeId)} :
    Mirrors t u x y ps → MirrorsItems t u xs ys qs →
    MirrorsItems t u (x :: xs) (y :: ys) (ps ++ qs)

/-- A collection that is a key is a text in the other tree, and a missing value is an empty text. -/
inductive MirrorsEntries (t u : Tree) : List (NodeId × Option NodeId) →
    List (NodeId × Option NodeId) → List (NodeId × NodeId) → Prop where
  | nil : MirrorsEntries t u [] [] []
  | leaf {k k' : NodeId} {n : Node} {v v' : Option NodeId}
    {xs ys : List (NodeId × Option NodeId)} {ps qs rs : List (NodeId × NodeId)} :
    t.get? k = some n → n.kind = .scalar ∨ n.kind = .alias → Mirrors t u k k' ps →
    MirrorsValue t u v v' qs → MirrorsEntries t u xs ys rs →
    MirrorsEntries t u ((k, v) :: xs) ((k', v') :: ys) (ps ++ (qs ++ rs))
  | text {k k' : NodeId} {n : Node} {v v' : Option NodeId}
    {xs ys : List (NodeId × Option NodeId)} {qs rs : List (NodeId × NodeId)} :
    t.get? k = some n → n.kind ≠ .scalar → n.kind ≠ .alias → u.Says k' n.value none →
    MirrorsValue t u v v' qs → MirrorsEntries t u xs ys rs →
    MirrorsEntries t u ((k, v) :: xs) ((k', v') :: ys) (qs ++ rs)

inductive MirrorsValue (t u : Tree) : Option NodeId → Option NodeId → List (NodeId × NodeId) → Prop where
  | some {v v' : NodeId} {ps : List (NodeId × NodeId)} : Mirrors t u v v' ps →
    MirrorsValue t u (some v) (some v') ps
  | none {v' : NodeId} : u.Says v' "" none → MirrorsValue t u none (some v') []

end

variable {t u : Tree} {x y : NodeId} {n m : Node} {ps qs : List (NodeId × NodeId)}
  {lo mid hi lo' mid' hi' : Nat}

/-! ### The order of the pairs -/

/-- Pairs of nodes between two numbers in each of two trees, in the order of both; all nodes of the second
tree that have a name are among them. -/
structure Pairs (u : Tree) (lo hi lo' hi' : Nat) (ps : List (NodeId × NodeId)) : Prop where
  within : ∀ p ∈ ps, (lo ≤ p.1 ∧ p.1 < hi) ∧ lo' ≤ p.2 ∧ p.2 < hi'
  sorted : ps.Pairwise fun p q => p.1 < q.1 ∧ p.2 < q.2
  named : ∀ (z : Nat) (m : Node), lo' ≤ z → z < hi' → u.get? z = some m → m.anchor ≠ none →
    ∃ w, (w, z) ∈ ps

theorem Pairs.nil (h : ∀ (z : Nat) (m : Node), lo' ≤ z → z < hi' → u.get? z = some m →
    m.anchor = none) : u.Pairs lo hi lo' hi' [] :=
  ⟨nofun, .nil, fun z m h1 h2 hm ha => absurd (h z m h1 h2 hm) ha⟩

theorem Pairs.append (h : u.Pairs lo mid lo' mid' ps) (h' : u.Pairs mid hi mid' hi' qs)
    (hlo : lo ≤ mid) (hhi : mid ≤ hi) (hlo' : lo' ≤ mid') (hhi' : mid' ≤ hi') :
    u.Pairs lo hi lo' hi' (ps ++ qs) := by
  refine ⟨fun p hp => ?_, ?_, fun z m h1 h2 hm ha => ?_⟩
  · rcases List.mem_append.mp hp with hp | hp
    · obtain ⟨⟨h1, h2⟩, h3, h4⟩ := h.within p hp
      exact ⟨⟨h1, Nat.lt_of_lt_of_le h2 hhi⟩, h3, Nat.lt_of_lt_of_le h4 hhi'⟩
    · obtain ⟨⟨h1, h2⟩, h3, h4⟩ := h'.within p hp
      exact ⟨⟨Nat.le_trans hlo h1, h2⟩, Nat.le_trans hlo' h3, h4⟩
  · refine List.pairwise_append.mpr ⟨h.sorted, h'.sorted, fun p hp q hq => ?_⟩
    obtain ⟨⟨-, h1⟩, -, h2⟩ := h.within p hp
    obtain ⟨⟨h3, -⟩, h4, -⟩ := h'.within q hq
    exact ⟨Nat.lt_of_lt_of_le h1 h3, Nat.lt_of_lt_of_le h2 h4⟩
  · by_cases hz : z < mid'
    · obtain ⟨w, hw⟩ := h.named z m h1 hz hm ha
      exact ⟨w, List.mem_append_left _ hw⟩
    · obtain ⟨w, hw⟩ := h'.named z m (Nat.le_of_not_lt hz) h2 hm ha
      exact ⟨w, List.mem_append_right _ hw⟩

/-- A node comes before those below it. -/
theorem Pairs.cons (h : u.Pairs (x + 1) hi (y + 1) hi' ps) (hx : x + 1 ≤ hi) (hy : y + 1 ≤ hi') :
    u.Pairs x hi y hi' ((x, y) :: ps) := by
  refine ⟨fun p hp => ?_, ?_, fun z m h1 h2 hm ha => ?_⟩
  · rcases List.mem_cons.mp hp with rfl | hp
    · exact ⟨⟨Nat.le_refl _, hx⟩, Nat.le_refl _, hy⟩
    · obtain ⟨⟨h1, h2⟩, h3, h4⟩ := h.within p hp
      exact ⟨⟨Nat.le_of_succ_le h1, h2⟩, Nat.le_of_succ_le h3, h4⟩
  · refine List.pairwise_cons.mpr ⟨fun p hp => ?_, h.sorted⟩
    obtain ⟨⟨h1, -⟩, h2, -⟩ := h.within p hp
    exact ⟨h1, h2⟩
  · rcases Nat.eq_or_lt_of_le h1 with rfl | hlt
    · exact ⟨x, List.mem_cons_self⟩
    · obtain ⟨w, hw⟩ := h.named z m hlt h2 hm ha
      exact ⟨w, List.mem_cons_of_mem _ hw⟩

/-- Nodes without names and children, one after another. -/
theorem Spans.anchor_eq_none {ids : List NodeId} {i j : Nat} (h : u.Spans i ids j)
    (hq : ∀ c ∈ ids, ∃ k, u.get? c = some k ∧ k.anchor = none ∧ k.children = #[]) :
    ∀ (z : Nat) (m : Node), i ≤ z → z < j → u.get? z = some m → m.anchor = none := by
  induction h with
  | nil i =>
    intro z m h1 h2
    exact absurd h2 (Nat.not_lt.mpr h1)
  | @cons i j k n ids hn hbelow hrest _ ih =>
    rw [List.forall_mem_cons] at hq
    obtain ⟨⟨n', hn', ha, hc⟩, hq⟩ := hq
    obtain rfl := Option.some.inj (hn.symm.trans hn')
    rw [hc] at hbelow
    cases hbelow
    intro z m h1 h2 hm
    rcases Nat.eq_or_lt_of_le h1 with rfl | hlt
    · rw [← Option.some.inj (hn.symm.trans hm)]
      exact ha
    · exact ih hq z m hlt h2 hm

/-- A text without a name is no mirror image. -/
theorem Says.pairs {text : String} (h : u.Says y text none) (hs : u.Spans y [y] hi') :
    u.Pairs lo hi y hi' [] := by
  obtain ⟨m, hm, -, -, ha, hq⟩ := h
  obtain ⟨m', hm', hbelow, -⟩ := hs.single
  obtain rfl := Option.some.inj (hm.symm.trans hm')
  refine .nil fun z k h1 h2 hk => ?_
  rcases Nat.eq_or_lt_of_le h1 with rfl | hlt
  · rw [← Option.some.inj (hm.symm.trans hk)]
    exact ha
  · exact hbelow.anchor_eq_none hq z k hlt h2 hk

/-- The numbers of an entry, and those of the entries behind it. -/
theorem Spans.entry {xs : List NodeId} {k : NodeId} {v : Option NodeId}
    {es : List (NodeId × Option NodeId)} (hs : t.Spans lo xs hi) (h : inPairs xs = (k, v) :: es) :
    k = lo ∧ ∃ i j rest, t.Spans lo [lo] i ∧ t.Spans i v.toList j ∧ t.Spans j rest hi ∧
      inPairs rest = es := by
  match xs with
  | [] => cases h
  | [x] =>
    obtain ⟨hhead, rfl⟩ := List.cons.inj h
    obtain ⟨rfl, rfl⟩ := Prod.mk.inj hhead
    obtain ⟨rfl, i, hkey, hrest⟩ := hs.split
    exact ⟨rfl, i, i, [], hkey, .nil i, hrest, rfl⟩
  | x :: y :: rest =>
    obtain ⟨hhead, rfl⟩ := List.cons.inj h
    obtain ⟨rfl, rfl⟩ := Prod.mk.inj hhead
    obtain ⟨rfl, i, hkey, hrest⟩ := hs.split
    obtain ⟨rfl, j, hvalue, hrest⟩ := hrest.split
    exact ⟨rfl, y, j, rest, hkey, hvalue, hrest, rfl⟩

theorem Spans.of_inPairs {xs : List NodeId} (hs : t.Spans lo xs hi) (h : inPairs xs = []) :
    lo = hi := by
  match xs with
  | [] =>
    cases hs
    rfl
  | [_] => cases h
  | _ :: _ :: _ => cases h

mutual

/-- The pairs of nodes that are alike. -/
theorem Mirrors.pairs : ∀ {x y : NodeId} {ps : List (NodeId × NodeId)}, Mirrors t u x y ps →
    ∀ {hi hi' : Nat}, t.Spans x [x] hi → u.Spans y [y] hi' → u.Pairs x hi y hi' ps
  | x, y, _, .leaf hn hm _ _ hq, hi, hi', hs, hs' => by
    obtain ⟨-, -, -, hx⟩ := hs.single
    obtain ⟨m, hm', hbelow, hy⟩ := hs'.single
    obtain rfl := Option.some.inj (hm.symm.trans hm')
    exact Pairs.cons (.nil (hbelow.anchor_eq_none hq)) hx hy
  | x, y, _, .sequence hn hm _ _ hitems, hi, hi', hs, hs' => by
    obtain ⟨n, hn', hbelow, hx⟩ := hs.single
    obtain ⟨m, hm', hbelow', hy⟩ := hs'.single
    obtain rfl := Option.some.inj (hn.symm.trans hn')
    obtain rfl := Option.some.inj (hm.symm.trans hm')
    exact (hitems.pairs hbelow hbelow').cons hx hy
  | x, y, _, .mapping hn hm _ _ hentries, hi, hi', hs, hs' => by
    obtain ⟨n, hn', hbelow, hx⟩ := hs.single
    obtain ⟨m, hm', hbelow', hy⟩ := hs'.single
    obtain rfl := Option.some.inj (hn.symm.trans hn')
    obtain rfl := Option.some.inj (hm.symm.trans hm')
    exact (hentries.pairs rfl rfl hbelow hbelow').cons hx hy

theorem MirrorsItems.pairs : ∀ {xs ys : List NodeId} {ps : List (NodeId × NodeId)},
    MirrorsItems t u xs ys ps → ∀ {lo hi lo' hi' : Nat}, t.Spans lo xs hi → u.Spans lo' ys hi' →
    u.Pairs lo hi lo' hi' ps
  | _, _, _, .nil, lo, hi, lo', hi', hs, hs' => by
    cases hs'
    exact .nil fun z m h1 h2 => absurd h2 (Nat.not_lt.mpr h1)
  | _, _, _, .cons hfirst hrest, lo, hi, lo', hi', hs, hs' => by
    obtain ⟨rfl, mid, hx, hxs⟩ := hs.split
    obtain ⟨rfl, mid', hy, hys⟩ := hs'.split
    exact (hfirst.pairs hx hy).append (hrest.pairs hxs hys) hx.le hxs.le hy.le hys.le

theorem MirrorsEntries.pairs : ∀ {es es' : List (NodeId × Option NodeId)}
    {ps : List (NodeId × NodeId)}, MirrorsEntries t u es es' ps → ∀ {xs ys : List NodeId},
    inPairs xs = es → inPairs ys = es' → ∀ {lo hi lo' hi' : Nat}, t.Spans lo xs hi →
    u.Spans lo' ys hi' → u.Pairs lo hi lo' hi' ps
  | _, _, _, .nil, xs, ys, _, hys, lo, hi, lo', hi', _, hs' => by
    obtain rfl := hs'.of_inPairs hys
    exact .nil fun z m h1 h2 => absurd h2 (Nat.not_lt.mpr h1)
  | _, _, _, .leaf _ _ hkey hvalue hrest, xs, ys, hxs, hys, lo, hi, lo', hi', hs, hs' => by
    obtain ⟨rfl, i, j, rest, hk, hv, hr, hpairs⟩ := hs.entry hxs
    obtain ⟨rfl, i', j', rest', hk', hv', hr', hpairs'⟩ := hs'.entry hys
    have hlater := (hvalue.pairs hv hv').append (hrest.pairs hpairs hpairs' hr hr') hv.le hr.le
      hv'.le hr'.le
    exact (hkey.pairs hk hk').append hlater hk.le (Nat.le_trans hv.le hr.le) hk'.le
      (Nat.le_trans hv'.le hr'.le)
  | _, _, _, .text _ _ _ hkey hvalue hrest, xs, ys, hxs, hys, lo, hi, lo', hi', hs, hs' => by
    obtain ⟨rfl, i, j, rest, hk, hv, hr, hpairs⟩ := hs.entry hxs
    obtain ⟨rfl, i', j', rest', hk', hv', hr', hpairs'⟩ := hs'.entry hys
    have hlater := (hvalue.pairs hv hv').append (hrest.pairs hpairs hpairs' hr hr') hv.le hr.le
      hv'.le hr'.le
    exact (hkey.pairs hk').append hlater hk.le (Nat.le_trans hv.le hr.le) hk'.le
      (Nat.le_trans hv'.le hr'.le)

theorem MirrorsValue.pairs : ∀ {v v' : Option NodeId} {ps : List (NodeId × NodeId)},
    MirrorsValue t u v v' ps → ∀ {lo hi lo' hi' : Nat}, t.Spans lo v.toList hi →
    u.Spans lo' v'.toList hi' → u.Pairs lo hi lo' hi' ps
  | _, _, _, .some hv, lo, hi, lo', hi', hs, hs' => by
    obtain ⟨rfl, -⟩ := hs.split
    obtain ⟨rfl, -⟩ := hs'.split
    exact hv.pairs hs hs'
  | _, _, _, .none hv, lo, hi, lo', hi', _, hs' => by
    obtain ⟨rfl, -⟩ := hs'.split
    exact hv.pairs hs'

end

/-! ### What is below a pair -/

theorem Mirrors.self (h : Mirrors t u x y ps) : (x, y) ∈ ps := by
  cases h with
  | leaf => exact List.mem_cons_self
  | sequence => exact List.mem_cons_self
  | mapping => exact List.mem_cons_self

theorem Mirrors.resembles (h : Mirrors t u x y ps) :
    ∃ n m, t.get? x = some n ∧ u.get? y = some m ∧ n.Resembles m := by
  cases h with
  | leaf hn hm h => exact ⟨_, _, hn, hm, h⟩
  | sequence hn hm h => exact ⟨_, _, hn, hm, h⟩
  | mapping hn hm h => exact ⟨_, _, hn, hm, h⟩

mutual

/-- Each pair mirrors what is below it, and its pairs are among the others. -/
theorem Mirrors.of_mem : ∀ {x y : NodeId} {ps : List (NodeId × NodeId)}, Mirrors t u x y ps →
    ∀ p ∈ ps, ∃ qs, Mirrors t u p.1 p.2 qs ∧ qs ⊆ ps
  | x, y, _, .leaf hn hm h hk hq, p, hp => by
    obtain rfl := List.mem_singleton.mp hp
    exact ⟨_, .leaf hn hm h hk hq, List.Subset.refl _⟩
  | x, y, _, .sequence hn hm h hk hitems, p, hp => by
    rcases List.mem_cons.mp hp with rfl | hp
    · exact ⟨_, .sequence hn hm h hk hitems, List.Subset.refl _⟩
    · obtain ⟨qs, hqs, hsub⟩ := hitems.of_mem p hp
      exact ⟨qs, hqs, List.subset_cons_of_subset _ hsub⟩
  | x, y, _, .mapping hn hm h hk hentries, p, hp => by
    rcases List.mem_cons.mp hp with rfl | hp
    · exact ⟨_, .mapping hn hm h hk hentries, List.Subset.refl _⟩
    · obtain ⟨qs, hqs, hsub⟩ := hentries.of_mem p hp
      exact ⟨qs, hqs, List.subset_cons_of_subset _ hsub⟩

theorem MirrorsItems.of_mem : ∀ {xs ys : List NodeId} {ps : List (NodeId × NodeId)},
    MirrorsItems t u xs ys ps → ∀ p ∈ ps, ∃ qs, Mirrors t u p.1 p.2 qs ∧ qs ⊆ ps
  | _, _, _, .cons hfirst hrest, p, hp => by
    rcases List.mem_append.mp hp with hp | hp
    · obtain ⟨qs, hqs, hsub⟩ := hfirst.of_mem p hp
      exact ⟨qs, hqs, List.subset_append_of_subset_left _ hsub⟩
    · obtain ⟨qs, hqs, hsub⟩ := hrest.of_mem p hp
      exact ⟨qs, hqs, List.subset_append_of_subset_right _ hsub⟩

theorem MirrorsEntries.of_mem : ∀ {es es' : List (NodeId × Option NodeId)}
    {ps : List (NodeId × NodeId)}, MirrorsEntries t u es es' ps →
    ∀ p ∈ ps, ∃ qs, Mirrors t u p.1 p.2 qs ∧ qs ⊆ ps
  | _, _, _, .leaf _ _ hkey hvalue hrest, p, hp => by
    rcases List.mem_append.mp hp with hp | hp
    · obtain ⟨qs, hqs, hsub⟩ := hkey.of_mem p hp
      exact ⟨qs, hqs, List.subset_append_of_subset_left _ hsub⟩
    · rcases List.mem_append.mp hp with hp | hp
      · obtain ⟨qs, hqs, hsub⟩ := hvalue.of_mem p hp
        exact ⟨qs, hqs, List.subset_append_of_subset_right _
          (List.subset_append_of_subset_left _ hsub)⟩
      · obtain ⟨qs, hqs, hsub⟩ := hrest.of_mem p hp
        exact ⟨qs, hqs, List.subset_append_of_subset_right _
          (List.subset_append_of_subset_right _ hsub)⟩
  | _, _, _, .text _ _ _ _ hvalue hrest, p, hp => by
    rcases List.mem_append.mp hp with hp | hp
    · obtain ⟨qs, hqs, hsub⟩ := hvalue.of_mem p hp
      exact ⟨qs, hqs, List.subset_append_of_subset_left _ hsub⟩
    · obtain ⟨qs, hqs, hsub⟩ := hrest.of_mem p hp
      exact ⟨qs, hqs, List.subset_append_of_subset_right _ hsub⟩

theorem MirrorsValue.of_mem : ∀ {v v' : Option NodeId} {ps : List (NodeId × NodeId)},
    MirrorsValue t u v v' ps → ∀ p ∈ ps, ∃ qs, Mirrors t u p.1 p.2 qs ∧ qs ⊆ ps
  | _, _, _, .some hv, p, hp => hv.of_mem p hp

end

/-- Each item has its mirror image. -/
theorem MirrorsItems.exists_pair : ∀ {xs ys : List NodeId} {ps : List (NodeId × NodeId)},
    MirrorsItems t u xs ys ps → ∀ c ∈ xs, ∃ c', (c, c') ∈ ps
  | _, _, _, .cons hfirst hrest, c, hc => by
    rcases List.mem_cons.mp hc with rfl | hc
    · exact ⟨_, List.mem_append_left _ hfirst.self⟩
    · obtain ⟨c', hmem⟩ := hrest.exists_pair c hc
      exact ⟨c', List.mem_append_right _ hmem⟩

theorem MirrorsValue.exists_pair {v v' : Option NodeId} (h : MirrorsValue t u v v' ps) :
    ∀ c ∈ v, ∃ c', (c, c') ∈ ps := by
  cases h with
  | some hv =>
    intro c hc
    obtain rfl := Option.some.inj hc
    exact ⟨_, hv.self⟩
  | none => exact nofun

/-- Each key that is no collection has its mirror image, and so has each value. -/
theorem MirrorsEntries.exists_pair : ∀ {es es' : List (NodeId × Option NodeId)}
    {ps : List (NodeId × NodeId)}, MirrorsEntries t u es es' ps → ∀ e ∈ es,
    (∀ n, t.get? e.1 = some n → n.kind = .scalar ∨ n.kind = .alias → ∃ k', (e.1, k') ∈ ps) ∧
      ∀ c ∈ e.2, ∃ c', (c, c') ∈ ps
  | _, _, _, .leaf _ _ hkey hvalue hrest, e, he => by
    rcases List.mem_cons.mp he with rfl | he
    · refine ⟨fun _ _ _ => ⟨_, List.mem_append_left _ hkey.self⟩, fun c hc => ?_⟩
      obtain ⟨c', hmem⟩ := hvalue.exists_pair c hc
      exact ⟨c', List.mem_append_right _ (List.mem_append_left _ hmem)⟩
    · obtain ⟨hkeys, hvalues⟩ := hrest.exists_pair e he
      refine ⟨fun n hn hk => ?_, fun c hc => ?_⟩
      · obtain ⟨k', hmem⟩ := hkeys n hn hk
        exact ⟨k', List.mem_append_right _ (List.mem_append_right _ hmem)⟩
      · obtain ⟨c', hmem⟩ := hvalues c hc
        exact ⟨c', List.mem_append_right _ (List.mem_append_right _ hmem)⟩
  | _, _, _, .text hn hs ha _ hvalue hrest, e, he => by
    rcases List.mem_cons.mp he with rfl | he
    · refine ⟨fun n hn' hk => ?_, fun c hc => ?_⟩
      · obtain rfl := Option.some.inj (hn.symm.trans hn')
        exact (hk.elim hs ha).elim
      · obtain ⟨c', hmem⟩ := hvalue.exists_pair c hc
        exact ⟨c', List.mem_append_left _ hmem⟩
    · obtain ⟨hkeys, hvalues⟩ := hrest.exists_pair e he
      refine ⟨fun n hn hk => ?_, fun c hc => ?_⟩
      · obtain ⟨k', hmem⟩ := hkeys n hn hk
        exact ⟨k', List.mem_append_right _ hmem⟩
      · obtain ⟨c', hmem⟩ := hvalues c hc
        exact ⟨c', List.mem_append_right _ hmem⟩

/-- What is written of the document has its mirror image. -/
theorem Mirrors.of_shown (h : Mirrors t u x y ps) (hv : t.rootValue? = some x) {r : NodeId}
    (hr : t.Shown r) : ∃ r', (r, r') ∈ ps := by
  induction hr with
  | value hid =>
    obtain rfl := Option.some.inj (hv.symm.trans hid)
    exact ⟨y, h.self⟩
  | @item p c n _ hn hk hc ih =>
    obtain ⟨p', hp⟩ := ih
    obtain ⟨qs, hqs, hsub⟩ := h.of_mem _ hp
    cases hqs with
    | leaf hn' _ _ hk' =>
      obtain rfl := Option.some.inj (hn.symm.trans hn')
      simp [hk] at hk'
    | mapping hn' _ _ hk' =>
      obtain rfl := Option.some.inj (hn.symm.trans hn')
      cases hk.symm.trans hk'
    | sequence hn' _ _ _ hitems =>
      obtain rfl := Option.some.inj (hn.symm.trans hn')
      obtain ⟨c', hmem⟩ := hitems.exists_pair c hc
      exact ⟨c', hsub (List.mem_cons_of_mem _ hmem)⟩
  | @key p k v n m _ hn hk hc hm hkey ih =>
    obtain ⟨p', hp⟩ := ih
    obtain ⟨qs, hqs, hsub⟩ := h.of_mem _ hp
    cases hqs with
    | leaf hn' _ _ hk' =>
      obtain rfl := Option.some.inj (hn.symm.trans hn')
      simp [hk] at hk'
    | sequence hn' _ _ hk' =>
      obtain rfl := Option.some.inj (hn.symm.trans hn')
      cases hk.symm.trans hk'
    | mapping hn' _ _ _ hentries =>
      obtain rfl := Option.some.inj (hn.symm.trans hn')
      obtain ⟨c', hmem⟩ := (hentries.exists_pair _ hc).1 m hm hkey
      exact ⟨c', hsub (List.mem_cons_of_mem _ hmem)⟩
  | @entry p k v n _ hn hk hc ih =>
    obtain ⟨p', hp⟩ := ih
    obtain ⟨qs, hqs, hsub⟩ := h.of_mem _ hp
    cases hqs with
    | leaf hn' _ _ hk' =>
      obtain rfl := Option.some.inj (hn.symm.trans hn')
      simp [hk] at hk'
    | sequence hn' _ _ hk' =>
      obtain rfl := Option.some.inj (hn.symm.trans hn')
      cases hk.symm.trans hk'
    | mapping hn' _ _ _ hentries =>
      obtain rfl := Option.some.inj (hn.symm.trans hn')
      obtain ⟨c', hmem⟩ := (hentries.exists_pair _ hc).2 v rfl
      exact ⟨c', hsub (List.mem_cons_of_mem _ hmem)⟩

mutual

/-- Only what is written of the document has a mirror image. -/
theorem Mirrors.shown : ∀ {x y : NodeId} {ps : List (NodeId × NodeId)}, Mirrors t u x y ps →
    t.Shown x → ∀ p ∈ ps, t.Shown p.1
  | _, _, _, .leaf _ _ _ _ _, hx, p, hp => by
    obtain rfl := List.mem_singleton.mp hp
    exact hx
  | _, _, _, .sequence hn _ _ hk hitems, hx, p, hp => by
    rcases List.mem_cons.mp hp with rfl | hp
    · exact hx
    · exact hitems.shown (fun c hc => .item hx hn hk hc) p hp
  | _, _, _, .mapping hn _ _ hk hentries, hx, p, hp => by
    rcases List.mem_cons.mp hp with rfl | hp
    · exact hx
    · exact hentries.shown (fun k v m hc hm hkey => .key hx hn hk hc hm hkey)
        (fun k v hc => .entry hx hn hk hc) p hp

theorem MirrorsItems.shown : ∀ {xs ys : List NodeId} {ps : List (NodeId × NodeId)},
    MirrorsItems t u xs ys ps → (∀ c ∈ xs, t.Shown c) → ∀ p ∈ ps, t.Shown p.1
  | _, _, _, .cons hfirst hrest, hx, p, hp => by
    rw [List.forall_mem_cons] at hx
    rcases List.mem_append.mp hp with hp | hp
    · exact hfirst.shown hx.1 p hp
    · exact hrest.shown hx.2 p hp

theorem MirrorsEntries.shown : ∀ {es es' : List (NodeId × Option NodeId)}
    {ps : List (NodeId × NodeId)}, MirrorsEntries t u es es' ps →
    (∀ k v m, (k, v) ∈ es → t.get? k = some m → m.kind = .scalar ∨ m.kind = .alias → t.Shown k) →
    (∀ k v, (k, some v) ∈ es → t.Shown v) → ∀ p ∈ ps, t.Shown p.1
  | _, _, _, .leaf hn hk hkey hvalue hrest, hkeys, hvalues, p, hp => by
    rcases List.mem_append.mp hp with hp | hp
    · exact hkey.shown (hkeys _ _ _ List.mem_cons_self hn hk) p hp
    · rcases List.mem_append.mp hp with hp | hp
      · exact hvalue.shown (fun c hc => hvalues _ c (by rw [hc]; exact List.mem_cons_self)) p hp
      · exact hrest.shown (fun k v m hc => hkeys k v m (List.mem_cons_of_mem _ hc))
          (fun k v hc => hvalues k v (List.mem_cons_of_mem _ hc)) p hp
  | _, _, _, .text _ _ _ _ hvalue hrest, hkeys, hvalues, p, hp => by
    rcases List.mem_append.mp hp with hp | hp
    · exact hvalue.shown (fun c hc => hvalues _ c (by rw [hc]; exact List.mem_cons_self)) p hp
    · exact hrest.shown (fun k v m hc => hkeys k v m (List.mem_cons_of_mem _ hc))
        (fun k v hc => hvalues k v (List.mem_cons_of_mem _ hc)) p hp

theorem MirrorsValue.shown : ∀ {v v' : Option NodeId} {ps : List (NodeId × NodeId)},
    MirrorsValue t u v v' ps → (∀ c, v = some c → t.Shown c) → ∀ p ∈ ps, t.Shown p.1
  | _, _, _, .some hv, h, p, hp => hv.shown (h _ rfl) p hp

end

/-! ### Aliases -/

/-- Two pairs stand in the same order in both trees. -/
def SameOrder (p q : NodeId × NodeId) : Prop :=
  ((p.1 : Nat) < q.1 ↔ (p.2 : Nat) < q.2) ∧ ((q.1 : Nat) < p.1 ↔ (q.2 : Nat) < p.2)

theorem Pairs.lt_iff (h : u.Pairs lo hi lo' hi' ps) {p q : NodeId × NodeId} (hp : p ∈ ps)
    (hq : q ∈ ps) : (p.1 : Nat) < q.1 ↔ (p.2 : Nat) < q.2 := by
  have hsym : Std.Symm SameOrder := ⟨fun _ _ h => h.symm⟩
  have hsorted : ps.Pairwise SameOrder := h.sorted.imp fun ⟨h1, h2⟩ =>
    ⟨⟨fun _ => h2, fun _ => h1⟩, fun h => absurd h (Nat.lt_asymm h1),
      fun h => absurd h (Nat.lt_asymm h2)⟩
  have hself : ∀ p ∈ ps, SameOrder p p := fun p _ => ⟨by simp, by simp⟩
  exact (hsorted.forall_of_forall hself hp hq).1

/-- Where the last node with a name is of a pair, the last one in the other tree is of the same pair. -/
theorem Pairs.of_latest (h : u.Pairs lo hi lo' hi' ps)
    (hps : ∀ p ∈ ps, ∃ n m, t.get? p.1 = some n ∧ u.get? p.2 = some m ∧ n.Resembles m)
    {a b r r' q : NodeId} {name : String} (ha : (a, b) ∈ ps) (hr : (r, r') ∈ ps)
    (hl : t.Latest name a r) (hl' : u.Latest name b q) : q = r' := by
  have hlt : (r' : Nat) < b := (h.lt_iff hr ha).mp hl.lt
  obtain ⟨n, m, hn, hm, hsame⟩ := hps _ hr
  obtain ⟨n', hn', -, hname⟩ := hl.node
  obtain rfl := Option.some.inj (hn.symm.trans hn')
  rcases Nat.lt_trichotomy q r' with hq | rfl | hq
  · exact absurd (hsame.anchor.trans hname) (hl'.last r' m hq hlt hm)
  · rfl
  · -- a later node with the name is of a later pair, which is there in the first tree too
    obtain ⟨k, hk, -, hkname⟩ := hl'.node
    obtain ⟨-, hr', -⟩ := h.within _ hr
    obtain ⟨-, -, hb⟩ := h.within _ ha
    obtain ⟨w, hw⟩ := h.named q k (Nat.le_of_lt (Nat.lt_of_le_of_lt hr' hq))
      (Nat.lt_trans hl'.lt hb) hk (by rw [hkname]; exact nofun)
    obtain ⟨x, y, hx, hy, hsame⟩ := hps _ hw
    obtain rfl := Option.some.inj (hk.symm.trans hy)
    exact absurd (hsame.anchor.symm.trans hkname)
      (hl.last w x ((h.lt_iff hr hw).mpr hq) ((h.lt_iff hw ha).mpr hl'.lt) hx)

/-- The aliases of some pairs lead to pairs. -/
def BindsAlike (t u : Tree) (ps : List (NodeId × NodeId)) : Prop :=
  ∀ p ∈ ps, ∀ n, t.get? p.1 = some n → n.kind = .alias →
    ∃ r r', t.resolve? p.1 = some r ∧ u.resolve? p.2 = some r' ∧ (r, r') ∈ ps

/-- Aliases that lead to the last node with their name lead to pairs, if in one tree they do. -/
theorem Mirrors.bindsAlike (h : Mirrors t u x y ps) (hpairs : u.Pairs lo hi lo' hi' ps)
    (ht : ∀ p ∈ ps, ∀ n, t.get? p.1 = some n → n.kind = .alias →
      ∃ r r', t.resolve? p.1 = some r ∧ t.Latest n.value p.1 r ∧ (r, r') ∈ ps)
    (hu : ∀ id m, u.get? id = some m → m.kind = .alias →
      ∃ r, u.resolve? id = some r ∧ u.Latest m.value id r) : BindsAlike t u ps := by
  have hps : ∀ p ∈ ps, ∃ n m, t.get? p.1 = some n ∧ u.get? p.2 = some m ∧ n.Resembles m := by
    intro p hp
    obtain ⟨qs, hqs, -⟩ := h.of_mem p hp
    exact hqs.resembles
  rintro ⟨a, b⟩ hp n hn hk
  obtain ⟨r, r', hr, hl, hmem⟩ := ht _ hp n hn hk
  obtain ⟨n', m, hn', hm, hsame⟩ := hps _ hp
  obtain rfl := Option.some.inj (hn.symm.trans hn')
  obtain ⟨q, hq, hl'⟩ := hu b m hm (hsame.kind.trans hk)
  rw [hsame.value] at hl'
  obtain rfl := hpairs.of_latest hps hp hmem hl hl'
  exact ⟨r, q, hr, hq, hmem⟩

/-! ### Values -/

section Values

variable {maxDepth room : Nat}

/-- A key has the text of its mirror image. -/
theorem BindsAlike.keyText_eq (h : BindsAlike t u ps)
    (hps : ∀ p ∈ ps, ∃ n m, t.get? p.1 = some n ∧ u.get? p.2 = some m ∧ n.Resembles m)
    {p : NodeId × NodeId} (hp : p ∈ ps) : t.keyText p.1 = u.keyText p.2 := by
  obtain ⟨n, m, hn, hm, hsame⟩ := hps p hp
  by_cases hk : n.kind = .alias
  · obtain ⟨r, r', hr, hr', hmem⟩ := h p hp n hn hk
    obtain ⟨k, k', hk₁, hk₂, hsame'⟩ := hps _ hmem
    rw [keyText_eq_ok.mpr (.alias hn hk hr hk₁),
      keyText_eq_ok.mpr (.alias hm (hsame.kind.trans hk) hr' hk₂), hsame'.value]
  · rw [keyText_eq_ok.mpr (.own hn hk), keyText_eq_ok.mpr (.own hm (hsame.kind ▸ hk)), hsame.value]

theorem Says.valueAt {text : String} {name : Option String} (h : u.Says y text name) :
    u.valueAt maxDepth room y = .ok (.text text) := by
  obtain ⟨m, hm, hk, rfl, -⟩ := h
  exact valueAt_scalar hm hk maxDepth room

theorem Says.keyText {text : String} {name : Option String} (h : u.Says y text name) :
    u.keyText y = .ok text := by
  obtain ⟨m, hm, hk, rfl, -⟩ := h
  exact keyText_eq_ok.mpr (.own hm (by rw [hk]; decide))

theorem MirrorsItems.mapM_eq {f g : NodeId → Except Error Value} :
    ∀ {xs ys : List NodeId} {ps : List (NodeId × NodeId)}, MirrorsItems t u xs ys ps →
      (∀ p ∈ ps, f p.1 = g p.2) → xs.mapM f = ys.mapM g
  | _, _, _, .nil, _ => rfl
  | _, _, _, .cons hfirst hrest, h => by
    rw [List.mapM_cons, List.mapM_cons, h _ (List.mem_append_left _ hfirst.self),
      hrest.mapM_eq fun p hp => h p (List.mem_append_right _ hp)]

theorem MirrorsValue.entryValue_eq {v v' : Option NodeId} (h : MirrorsValue t u v v' ps)
    (hps : ∀ p ∈ ps, t.valueAt maxDepth room p.1 = u.valueAt maxDepth room p.2) :
    t.entryValue maxDepth room v = u.entryValue maxDepth room v' := by
  cases h with
  | some hv => exact hps _ hv.self
  | none hv => exact hv.valueAt.symm

theorem readEntry_congr {k k' : NodeId} {v v' : Option NodeId} (hkey : t.keyText k = u.keyText k')
    (hvalue : t.entryValue maxDepth room v = u.entryValue maxDepth room v') :
    t.readEntry maxDepth room (k, v) = u.readEntry maxDepth room (k', v') := by
  rw [readEntry, readEntry, hkey, hvalue]

theorem MirrorsEntries.mapM_eq : ∀ {es es' : List (NodeId × Option NodeId)}
    {ps : List (NodeId × NodeId)}, MirrorsEntries t u es es' ps →
    (∀ p ∈ ps, t.keyText p.1 = u.keyText p.2) →
    (∀ p ∈ ps, t.valueAt maxDepth room p.1 = u.valueAt maxDepth room p.2) →
    es.mapM (t.readEntry maxDepth room) = es'.mapM (u.readEntry maxDepth room)
  | _, _, _, .nil, _, _ => rfl
  | _, _, _, .leaf _ _ hkey hvalue hrest, hkeys, hvalues => by
    have hentry := hvalue.entryValue_eq fun p hp =>
      hvalues p (List.mem_append_right _ (List.mem_append_left _ hp))
    have htail := hrest.mapM_eq
      (fun p hp => hkeys p (List.mem_append_right _ (List.mem_append_right _ hp)))
      fun p hp => hvalues p (List.mem_append_right _ (List.mem_append_right _ hp))
    rw [List.mapM_cons, List.mapM_cons, htail,
      readEntry_congr (hkeys _ (List.mem_append_left _ hkey.self)) hentry]
  | _, _, _, .text hn _ ha hkey hvalue hrest, hkeys, hvalues => by
    have htext := (keyText_eq_ok.mpr (.own hn ha)).trans hkey.keyText.symm
    have hentry := hvalue.entryValue_eq fun p hp => hvalues p (List.mem_append_left _ hp)
    have htail := hrest.mapM_eq (fun p hp => hkeys p (List.mem_append_right _ hp))
      fun p hp => hvalues p (List.mem_append_right _ hp)
    rw [List.mapM_cons, List.mapM_cons, htail, readEntry_congr htext hentry]

/-- A node that is no alias has the value of its mirror image, if what is below has. -/
theorem Mirrors.valueAt_step (h : Mirrors t u x y ps)
    (hna : ∀ n, t.get? x = some n → n.kind ≠ .alias)
    (hkeys : ∀ p ∈ ps, t.keyText p.1 = u.keyText p.2)
    (hbelow : ∀ k, room = k + 1 → ∀ p ∈ ps,
      t.valueAt maxDepth k p.1 = u.valueAt maxDepth k p.2) :
    t.valueAt maxDepth room x = u.valueAt maxDepth room y := by
  cases h with
  | leaf hn hm hsame hk =>
    have hk := hk.resolve_right (hna _ hn)
    rw [valueAt_scalar hn hk, valueAt_scalar hm (hsame.kind.trans hk), hsame.value]
  | sequence hn hm hsame hk hitems =>
    have hk' := hsame.kind.trans hk
    cases room with
    | zero => rw [valueAt_zero hn (by rw [hk]; rfl), valueAt_zero hm (by rw [hk']; rfl)]
    | succ k =>
      rw [valueAt_sequence hn hk, valueAt_sequence hm hk',
        hitems.mapM_eq fun p hp => hbelow k rfl p (List.mem_cons_of_mem _ hp)]
  | mapping hn hm hsame hk hentries =>
    have hk' := hsame.kind.trans hk
    cases room with
    | zero => rw [valueAt_zero hn (by rw [hk]; rfl), valueAt_zero hm (by rw [hk']; rfl)]
    | succ k =>
      rw [valueAt_eq_ofPairs hn hk, valueAt_eq_ofPairs hm hk',
        hentries.mapM_eq (fun p hp => hkeys p (List.mem_cons_of_mem _ hp))
          fun p hp => hbelow k rfl p (List.mem_cons_of_mem _ hp)]

/-- Nodes that are alike have one value, if their aliases lead to nodes that are alike. -/
theorem Mirrors.valueAt_eq (h : Mirrors t u x y ps) (hb : BindsAlike t u ps) (maxDepth : Nat) :
    ∀ (room : Nat), ∀ p ∈ ps, t.valueAt maxDepth room p.1 = u.valueAt maxDepth room p.2 := by
  have hps : ∀ p ∈ ps, ∃ n m, t.get? p.1 = some n ∧ u.get? p.2 = some m ∧ n.Resembles m := by
    intro p hp
    obtain ⟨qs, hqs, -⟩ := h.of_mem p hp
    exact hqs.resembles
  intro room
  induction room using Nat.strongRecOn with
  | ind room ih =>
    -- first the nodes that are no aliases, for these are what aliases lead to
    have hdirect : ∀ p ∈ ps, (∀ n, t.get? p.1 = some n → n.kind ≠ .alias) →
        t.valueAt maxDepth room p.1 = u.valueAt maxDepth room p.2 := by
      intro p hp hna
      obtain ⟨qs, hqs, hsub⟩ := h.of_mem p hp
      exact hqs.valueAt_step hna (fun q hq => hb.keyText_eq hps (hsub hq))
        fun k hk q hq => ih k (by omega) q (hsub hq)
    intro p hp
    obtain ⟨n, m, hn, hm, hsame⟩ := hps p hp
    by_cases hk : n.kind = .alias
    · obtain ⟨r, r', hr, hr', hmem⟩ := hb p hp n hn hk
      have htarget := hdirect _ hmem fun k hk' => by
        obtain ⟨k', hk₁, hk₂⟩ := exists_of_follow hr
        exact Option.some.inj (hk₁.symm.trans hk') ▸ hk₂
      rw [valueAt_alias hn hk, valueAt_alias hm (hsame.kind.trans hk), aliased_eq_ok.mpr hr,
        aliased_eq_ok.mpr hr']
      exact htarget
    · exact hdirect p hp fun n' hn' => Option.some.inj (hn.symm.trans hn') ▸ hk

end Values

end Tree

end TaggedYaml
