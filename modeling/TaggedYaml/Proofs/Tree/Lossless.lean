import TaggedYaml.Proofs.Event.Grammar
import TaggedYaml.Proofs.Tree.Makes
import TaggedYaml.Proofs.Tree.Walk

/-!
# Lossless — a tree says what its events said

From the events of a document the builder makes a tree that has their nodes in their order, and from
which a walk over the children gets the events back (`ofEvents_lossless`).
-/

namespace TaggedYaml

/-! ### Events of a document make its tree -/

namespace Builder

variable {b b' : Builder} {maxDepth known : Nat} {e : Marked Event} {ms ms' : List (Marked Event)}
  {es : List Event} {P Q R : List NodeId → Prop}

/-- The numbers of the first anchors are bound. -/
def Knows (known : Nat) (b : Builder) : Prop :=
  ∀ k, 1 ≤ k → k ≤ known → ∃ id, b.bound.lookup k = some id

theorem Knows.step (h : b.Knows known) (hf : e.item.FitsNumbers known)
    (hs : b.step maxDepth e = .ok b') : b'.Knows (known + e.item.anchor?.toList.length) := by
  intro k h1 hk
  rw [(step_bares hs).2.2, Event.bind]
  cases ha : e.item.anchor? with
  | none =>
    rw [ha] at hk
    exact h k h1 hk
  | some a =>
    have hnumber := Event.number_of_fitsNumbers hf ha
    by_cases hlast : k = a.number
    · exact ⟨b.tree.size, by simp [hlast]⟩
    · rw [ha, Option.toList_some, List.length_singleton] at hk
      obtain ⟨id, hid⟩ := h k h1 (by omega)
      have hne : (k == a.number) = false := by simpa using hlast
      exact ⟨id, by simp [List.lookup_cons, hne, hid]⟩

theorem Knows.foldlM : ∀ {ms : List (Marked Event)} {b b' : Builder} {known : Nat}, b.Knows known →
    Event.Numbered known (ms.map (·.item)) → ms.foldlM (Builder.step maxDepth) b = .ok b' →
    b'.Knows (known + (Event.anchors (ms.map (·.item))).length)
  | [], b, b', known, h, _, hb => by
    cases hb
    exact h
  | e :: ms, b, b', known, h, hnum, hb => by
    rw [List.foldlM_cons] at hb
    obtain ⟨b₁, hb₁, hb⟩ := bind_eq_ok hb
    rw [List.map_cons, Event.anchors_cons, List.length_append, ← Nat.add_assoc]
    exact (h.step hnum.1 hb₁).foldlM hnum.2 hb

/-- Events make nodes that give them back. -/
def Rebuilds (maxDepth : Nat) (b : Builder) (ms : List (Marked Event)) (P : List NodeId → Prop) :
    Prop :=
  Makes maxDepth b ms fun t ids =>
    P ids ∧ Tree.Regains b.tree.size b.bound (ms.map (·.item)) t ids

theorem Rebuilds.nil (h : P []) : Rebuilds maxDepth b [] P :=
  ⟨b, [], rfl, .refl b, fun _ _ => ⟨h, .nil⟩⟩

theorem Rebuilds.append (hp : b.parent < b.tree.size) (h : Rebuilds maxDepth b ms P)
    (h' : ∀ b', ms.foldlM (step maxDepth) b = .ok b' → b'.parent < b'.tree.size →
      b'.stack = b.stack → Rebuilds maxDepth b' ms' Q)
    (hR : ∀ ids ids', P ids → Q ids' → R (ids ++ ids')) : Rebuilds maxDepth b (ms ++ ms') R := by
  have hrest (b' : Builder) (hb' : ms.foldlM (step maxDepth) b = .ok b')
      (hp' : b'.parent < b'.tree.size) (hstack : b'.stack = b.stack) : Makes maxDepth b' ms'
        fun t ids => Q ids ∧ Tree.Regains (b.tree.size + Event.nodeCount (ms.map (·.item)))
          (Event.boundFrom b.tree.size b.bound (ms.map (·.item))) (ms'.map (·.item)) t ids := by
    obtain ⟨-, hsize, hbound⟩ := foldlM_bares hb'
    rw [← hsize, ← hbound]
    exact h' b' hb' hp' hstack
  refine (Makes.append hp h hrest).mono fun t ids hn => ?_
  obtain ⟨ids₁, ids₂, rfl, ⟨h₁, hr₁⟩, h₂, hr₂⟩ := hn
  exact ⟨hR ids₁ ids₂ h₁ h₂, by rw [List.map_append]; exact hr₁.append hr₂⟩

theorem rebuilds_collection {tag : String} {anchor : Option Anchor} {kind : Kind}
    {first last : Marked Event} {e e' : Event} (hends : Tree.EndsOf tag anchor kind e e')
    (hf : first.item = e) (hl : last.item = e') (hp : b.parent < b.tree.size)
    (hroom : b.stack.length < maxDepth)
    (hmembers : ∀ b' : Builder, b.step maxDepth first = .ok b' → b'.parent < b'.tree.size →
      b'.stack.length = b.stack.length + 1 →
      Rebuilds maxDepth b' ms fun ids => kind = .mapping → Even ids.length) :
    Rebuilds maxDepth b (first :: (ms ++ [last])) fun ids => ids.length = 1 := by
  have hfirst : b.step maxDepth first =
      b.openNode maxDepth { kind, tag, mark := first.mark } anchor := by
    rw [Builder.step, hf]
    cases hends <;> rfl
  have hlast (b' : Builder) : b'.step maxDepth last = b'.closeNode kind := by
    rw [Builder.step, hl]
    cases hends <;> rfl
  have hinner (b' : Builder) (hb' : b.step maxDepth first = .ok b')
      (hp' : b'.parent < b'.tree.size) (hstack : b'.stack.length = b.stack.length + 1) :
      Makes maxDepth b' ms fun t ids => (kind = .mapping → Even ids.length) ∧
        Tree.Regains (b.tree.size + 1) (e.bind b.tree.size ++ b.bound) (ms.map (·.item)) t ids := by
    obtain ⟨-, hsize, hbound⟩ := step_bares hb'
    rw [hf, hends.first_isNode, if_pos rfl] at hsize
    rw [← hsize, ← hf, ← hbound]
    exact hmembers b' hb' hp' hstack
  refine (Makes.collection hp hroom rfl hfirst hlast hinner).mono fun t ids hn => ?_
  obtain ⟨children, rfl, hget, heven, hregains⟩ := hn
  refine ⟨rfl, ?_⟩
  rw [List.map_cons, List.map_append, List.map_singleton, hf, hl]
  exact Tree.regains_collection hends hget hregains heven

open Event

mutual

theorem rebuilds_node : ∀ {es : List Event}, IsNode es → ∀ {b : Builder} {ms : List (Marked Event)}
    {known : Nat}, ms.map (·.item) = es → Numbered known es → b.Knows known →
    nesting b.stack.length es ≤ maxDepth → b.parent < b.tree.size →
    Rebuilds maxDepth b ms fun ids => ids.length = 1
  | _, .scalar style text tag anchor, b, ms, known, he, hnum, hknows, hroom, hp => by
    obtain ⟨e, ms', rfl, hitem, hnil⟩ := map_item_eq_cons he
    obtain rfl := List.map_eq_nil_iff.mp hnil
    have hstep : b.step maxDepth e = (b.attach
        { kind := .scalar, value := text, tag, style, mark := e.mark } anchor).map (·.2) := by
      rw [step, hitem]
      rfl
    refine (Makes.leaf hp hstep).mono fun t ids hn => ⟨by rw [hn.1]; rfl, ?_⟩
    rw [hn.1, List.map_singleton, hitem]
    exact Tree.regains_scalar hn.2
  | _, .alias a, b, ms, known, he, hnum, hknows, hroom, hp => by
    obtain ⟨e, ms', rfl, hitem, hnil⟩ := map_item_eq_cons he
    obtain rfl := List.map_eq_nil_iff.mp hnil
    obtain ⟨r, hr⟩ := hknows a.number hnum.1.1 hnum.1.2
    have hstep : b.step maxDepth e = (b.attach
        { kind := .alias, value := a.name, target := some r, mark := e.mark } none).map (·.2) := by
      rw [step, hitem]
      simp only [hr]
      rfl
    refine (Makes.leaf hp hstep).mono fun t ids hn => ⟨by rw [hn.1]; rfl, ?_⟩
    rw [hn.1, List.map_singleton, hitem]
    exact Tree.regains_alias hr hn.2
  | _, .sequence tag anchor hitems, b, ms, known, he, hnum, hknows, hroom, hp => by
    obtain ⟨first, members, last, rfl, hfirst, hmembers, hlast⟩ := map_item_eq_collection he
    rw [nesting, nesting_items hitems] at hroom
    refine rebuilds_collection .sequence hfirst hlast hp (by omega) fun b' hb' hp' hstack => ?_
    have hknows' := hknows.step (hfirst ▸ hnum.1) hb'
    rw [hfirst] at hknows'
    exact (rebuilds_items hitems hmembers (numbered_append.mp hnum.2).1 hknows'
      (by rw [hstack]; omega) hp').mono fun t ids hn => ⟨nofun, hn.2⟩
  | _, .mapping tag anchor hentries, b, ms, known, he, hnum, hknows, hroom, hp => by
    obtain ⟨first, members, last, rfl, hfirst, hmembers, hlast⟩ := map_item_eq_collection he
    rw [nesting, nesting_entries hentries] at hroom
    refine rebuilds_collection .mapping hfirst hlast hp (by omega) fun b' hb' hp' hstack => ?_
    have hknows' := hknows.step (hfirst ▸ hnum.1) hb'
    rw [hfirst] at hknows'
    exact (rebuilds_entries hentries hmembers (numbered_append.mp hnum.2).1 hknows'
      (by rw [hstack]; omega) hp').mono fun t ids hn => ⟨fun _ => hn.1, hn.2⟩

theorem rebuilds_items : ∀ {es : List Event}, IsItems es → ∀ {b : Builder}
    {ms : List (Marked Event)} {known : Nat}, ms.map (·.item) = es → Numbered known es →
    b.Knows known → nesting b.stack.length es ≤ maxDepth → b.parent < b.tree.size →
    Rebuilds maxDepth b ms fun _ => True
  | _, .nil, b, ms, known, he, _, _, _, _ => by
    obtain rfl := List.map_eq_nil_iff.mp he
    exact .nil trivial
  | _, .cons hnode hrest, b, ms, known, he, hnum, hknows, hroom, hp => by
    obtain ⟨ms₁, ms₂, rfl, h₁, h₂⟩ := List.map_eq_append_iff.mp he
    rw [nesting_node hnode] at hroom
    rw [numbered_append] at hnum
    refine (rebuilds_node hnode h₁ hnum.1 hknows (by omega) hp).append hp
      (Q := fun _ => True) (fun b' hb' hp' hstack => ?_) fun _ _ _ _ => trivial
    have hknows' := hknows.foldlM (h₁ ▸ hnum.1) hb'
    rw [h₁] at hknows'
    exact rebuilds_items hrest h₂ hnum.2 hknows' (by rw [hstack]; omega) hp'

theorem rebuilds_entries : ∀ {es : List Event}, IsEntries es → ∀ {b : Builder}
    {ms : List (Marked Event)} {known : Nat}, ms.map (·.item) = es → Numbered known es →
    b.Knows known → nesting b.stack.length es ≤ maxDepth → b.parent < b.tree.size →
    Rebuilds maxDepth b ms fun ids => Even ids.length
  | _, .nil, b, ms, known, he, _, _, _, _ => by
    obtain rfl := List.map_eq_nil_iff.mp he
    exact .nil (by decide)
  | _, .cons hkey hvalue hrest, b, ms, known, he, hnum, hknows, hroom, hp => by
    rw [List.append_assoc] at he hnum hroom
    obtain ⟨ms₁, ms', rfl, h₁, he'⟩ := List.map_eq_append_iff.mp he
    obtain ⟨ms₂, ms₃, rfl, h₂, h₃⟩ := List.map_eq_append_iff.mp he'
    rw [nesting_node hkey, nesting_node hvalue] at hroom
    rw [numbered_append, numbered_append] at hnum
    refine (rebuilds_node hkey h₁ hnum.1 hknows (by omega) hp).append hp
      (Q := fun ids => ids.length % 2 = 1) (fun b₁ hb₁ hp₁ hstack₁ => ?_) fun ids ids' h h' => ?_
    · have hknows₁ := hknows.foldlM (h₁ ▸ hnum.1) hb₁
      rw [h₁] at hknows₁
      refine (rebuilds_node hvalue h₂ hnum.2.1 hknows₁ (by rw [hstack₁]; omega) hp₁).append hp₁
        (Q := fun ids => Even ids.length) (fun b₂ hb₂ hp₂ hstack₂ => ?_) fun ids ids' h h' => ?_
      · have hknows₂ := hknows₁.foldlM (h₂ ▸ hnum.2.1) hb₂
        rw [h₂] at hknows₂
        exact rebuilds_entries hrest h₃ hnum.2.2 hknows₂ (by rw [hstack₂, hstack₁]; omega) hp₂
      · rw [Nat.even_iff] at h'
        rw [List.length_append]
        omega
    · rw [Nat.even_iff, List.length_append]
      omega

end

end Builder

/-! ### Numbers of nodes -/

/-- How many nodes of a list have anchors. -/
def anchoredCount (nodes : List Node) : Nat := nodes.countP (·.anchor.isSome)

theorem anchoredCount_append (xs ys : List Node) :
    anchoredCount (xs ++ ys) = anchoredCount xs + anchoredCount ys := by
  simp [anchoredCount]

theorem anchoredCount_node? (e : Marked Event) (bound : List (Nat × NodeId)) :
    anchoredCount (e.node? bound).toList = e.item.anchor?.toList.length := by
  obtain ⟨mark, e⟩ := e
  cases e with
  | scalar _ _ _ anchor => cases anchor <;> rfl
  | openSequence _ anchor => cases anchor <;> rfl
  | openMapping _ anchor => cases anchor <;> rfl
  | _ => rfl

theorem length_node? (e : Marked Event) (bound : List (Nat × NodeId)) :
    (e.node? bound).toList.length = if e.item.isNode then 1 else 0 := by
  obtain ⟨mark, e⟩ := e
  cases e <;> rfl

/-- A node that is bound to a number is the one at this place among those with anchors; `nodes` are
the nodes before. -/
theorem anchoredCount_boundFrom : ∀ {es : List (Marked Event)} {nodes : List Node}
    {bound : List (Nat × NodeId)},
    (∀ p ∈ bound, p.2 < nodes.length ∧ anchoredCount (nodes.take (p.2 + 1)) = p.1) →
    Event.Numbered (anchoredCount nodes) (es.map (·.item)) →
    ∀ p ∈ Event.boundFrom nodes.length bound (es.map (·.item)),
      anchoredCount ((nodes ++ nodesFrom nodes.length bound es).take (p.2 + 1)) = p.1
  | [], nodes, bound, h, _, p, hp => by
    rw [nodesFrom, List.append_nil]
    exact (h p hp).2
  | e :: es, nodes, bound, h, hnum, p, hp => by
    have hlength : (nodes ++ (e.node? bound).toList).length =
        if e.item.isNode then nodes.length + 1 else nodes.length := by
      rw [List.length_append, length_node?]
      split <;> rfl
    have hcount : anchoredCount (nodes ++ (e.node? bound).toList) =
        anchoredCount nodes + e.item.anchor?.toList.length := by
      rw [anchoredCount_append, anchoredCount_node?]
    rw [nodesFrom, ← List.append_assoc, ← hlength]
    rw [List.map_cons, Event.boundFrom, ← hlength] at hp
    refine anchoredCount_boundFrom (fun q hq => ?_) (hcount ▸ hnum.2) p hp
    rcases List.mem_append.mp hq with hq | hq
    · cases hc : e.item.anchor? with
      | none => simp [Event.bind, hc] at hq
      | some c =>
        obtain rfl : q = (c.number, nodes.length) := by simpa [Event.bind, hc] using hq
        have hnode : e.item.isNode = true := by
          by_contra hn
          rw [Event.anchor?_of_isNode (by simpa using hn)] at hc
          cases hc
        rw [hnode, if_pos rfl] at hlength
        rw [← hlength, List.take_length, hcount, hc, hlength, Event.number_of_fitsNumbers hnum.1 hc]
        exact ⟨Nat.lt_succ_self _, rfl⟩
    · obtain ⟨hlt, hq⟩ := h q hq
      rw [List.length_append, List.take_append_of_le_length hlt]
      exact ⟨Nat.lt_add_right _ hlt, hq⟩

/-! ### Parents and children -/

namespace Tree

variable {t t' : Tree} {parent : Nat} {n : Node}

/-- The nodes that are named as children, at every place. -/
def edges (t : Tree) : List NodeId := t.nodes.toList.flatMap (·.children.toList)

/-- Only the root is a document, children have greater numbers than their parents, and every other
node is a child at one place. -/
structure Rooted (t : Tree) : Prop where
  document : ∀ id n, t.get? id = some n → (n.kind = .document ↔ id = root)
  forward : ∀ (p : Nat) n (c : Nat), t.get? p = some n → c ∈ n.children → p < c ∧ c < t.size
  once : t.edges.Perm (List.range' 1 (t.size - 1))

theorem flatMap_modify_perm {α β : Type} {f : α → α} {g : α → List β} {x : β}
    (h : ∀ a, g (f a) = g a ++ [x]) : ∀ {l : List α} {i : Nat}, i < l.length →
      ((l.modify i f).flatMap g).Perm (l.flatMap g ++ [x])
  | a :: l, 0, _ => by
    rw [List.modify_zero_cons, List.flatMap_cons, List.flatMap_cons, h, List.append_assoc,
      List.append_assoc]
    exact (List.perm_append_comm).append_left _
  | a :: l, i + 1, hi => by
    rw [List.modify_succ_cons, List.flatMap_cons, List.flatMap_cons, List.append_assoc]
    exact (flatMap_modify_perm h (by simpa using hi)).append_left _

theorem Rooted.appends (h : t.Rooted) (ha : Appends t parent n t') (hk : n.kind ≠ .document)
    (hc : n.children = #[]) : t'.Rooted := by
  have hpos : 0 < t.size := t.size_pos
  refine ⟨fun id m hm => ?_, fun p m c hm hmem => ?_, ?_⟩
  · rcases ha.cases hm with ⟨rfl, rfl⟩ | ⟨m₀, hm₀, hbare, -⟩
    · exact ⟨fun hd => absurd hd hk, fun hd => absurd hd (Nat.ne_of_gt hpos)⟩
    · rw [Node.kind_of_bare hbare]
      exact h.document id m₀ hm₀
  · rw [ha.size]
    rcases ha.cases hm with ⟨rfl, rfl⟩ | ⟨m₀, hm₀, -, hchildren⟩
    · rw [hc] at hmem
      simp at hmem
    · rcases hchildren c hmem with hmem | ⟨rfl, rfl⟩
      · obtain ⟨h1, h2⟩ := h.forward p m₀ c hm₀ hmem
        exact ⟨h1, Nat.lt_succ_of_lt h2⟩
      · exact ⟨ha.parent_lt, Nat.lt_succ_self _⟩
  · have hlt : parent < (t.nodes.toList ++ [n]).length :=
      Nat.lt_of_lt_of_le ha.parent_lt (by simp [size])
    have hperm := flatMap_modify_perm (g := fun m : Node => m.children.toList) (x := t.size)
      (f := fun m => { m with children := m.children.push t.size }) (by simp) hlt
    rw [← ha.nodes, List.flatMap_append, List.flatMap_singleton, hc] at hperm
    refine hperm.trans ?_
    have hrange : List.range' 1 (t'.size - 1) = List.range' 1 (t.size - 1) ++ [t.size] := by
      rw [ha.size, show t.size + 1 - 1 = (t.size - 1) + 1 by omega, List.range'_concat]
      congr 2
      omega
    rw [hrange, List.append_nil]
    exact h.once.append_right _

theorem rooted_empty : empty.Rooted := by
  refine ⟨fun id n hn => ?_, fun p n c hn hc => ?_, .refl _⟩
  · have hlt : id < 1 := lt_size hn
    obtain rfl : id = 0 := Nat.lt_one_iff.mp hlt
    cases hn
    exact ⟨fun _ => rfl, fun _ => rfl⟩
  · have hmem : n ∈ empty.nodes := Array.mem_of_getElem? hn
    obtain rfl : n = { kind := .document } := by simpa [empty] using hmem
    simp at hc

theorem rooted_ofEvents {maxDepth : Nat} {es : List (Marked Event)}
    (h : ofEvents maxDepth es = .ok t) : t.Rooted := by
  obtain ⟨b, hb, rfl⟩ := exists_of_ofEvents h
  refine Builder.run_keeps (P := fun _ b => b.tree.Rooted) (fun _ e b b' h hs => ?_)
    rooted_empty hb
  rcases Builder.step_cases hs with ⟨n, hn⟩ | hl
  · refine h.appends hn.tree ?_ (Marked.children_of_node? hn.node)
    exact Marked.kind_of_node? hn.node
  · rw [hl.tree]
    exact h

theorem anchorNumber_eq (t : Tree) (id : NodeId) :
    t.anchorNumber id = anchoredCount (t.bares.take (id + 1)) := by
  rw [anchorNumber, anchoredCount, bares, ← List.map_take, List.countP_map]
  rfl

/-- The builder makes of the events of a document the nodes below the root that give them back. -/
theorem exists_regains {maxDepth : Nat} {es : List (Marked Event)}
    (hdocument : Event.IsDocument (es.map (·.item)))
    (hnumbered : Event.Numbered 0 (es.map (·.item)))
    (hdepth : Event.nesting 0 (es.map (·.item)) ≤ maxDepth) :
    ∃ t ids, ofEvents maxDepth es = .ok t ∧ ids.length ≤ 1 ∧
      t.get? root = some { kind := .document, children := ids.toArray } ∧
      t.size = Event.nodeCount (es.map (·.item)) + 1 ∧ Regains 1 [] (es.map (·.item)) t ids := by
  have hrebuilds : Builder.Rebuilds maxDepth ⟨.empty, [], []⟩ es fun ids => ids.length ≤ 1 := by
    have hp : (⟨.empty, [], []⟩ : Builder).parent < (⟨.empty, [], []⟩ : Builder).tree.size := by
      decide
    rcases hdocument with hnil | hnode
    · obtain rfl := List.map_eq_nil_iff.mp hnil
      exact .nil (Nat.zero_le _)
    · refine (Builder.rebuilds_node hnode rfl hnumbered (fun k h1 h2 => ?_) hdepth hp).mono
        fun t ids hn => ⟨Nat.le_of_eq hn.1, hn.2⟩
      omega
  obtain ⟨b, ids, hb, hadds, hP⟩ := hrebuilds
  obtain ⟨hlength, hregains⟩ := hP b.tree fun _ _ _ => rfl
  have hroot := hadds.grown.parent { kind := .document } rfl
  simp only [Array.empty_append] at hroot
  refine ⟨b.tree, ids, ?_, hlength, hroot, ?_, hregains⟩
  · rw [ofEvents, hb]
    rfl
  · rw [(Builder.foldlM_bares hb).2.1, Nat.add_comm]
    rfl

/-- From the events of a document, numbered in order and nested no deeper than the ceiling, a tree is
made: its nodes are those of the events in their order, a walk over it gives the events back, and
but for the document every node is a child at one place, behind its parent. -/
theorem ofEvents_lossless {maxDepth : Nat} {es : List (Marked Event)}
    (hdocument : Event.IsDocument (es.map (·.item)))
    (hnumbered : Event.Numbered 0 (es.map (·.item)))
    (hdepth : Event.nesting 0 (es.map (·.item)) ≤ maxDepth) :
    ∃ t, ofEvents maxDepth es = .ok t ∧ t.bares = { kind := .document } :: nodesFrom 1 [] es ∧
      t.events = es.map (·.item) ∧ t.Rooted ∧ t.rootNode.children.size ≤ 1 ∧
      ∀ id n, t.get? id = some n → n.kind = .mapping → Even n.children.size := by
  obtain ⟨t, ids, ht, hlength, hroot, hsize, hregains⟩ := exists_regains hdocument hnumbered hdepth
  have hbares := bares_ofEvents ht
  have hroot' : t.rootNode = { kind := .document, children := ids.toArray } :=
    Option.some.inj ((Array.getElem?_eq_getElem t.size_pos).symm.trans hroot)
  refine ⟨t, ht, hbares, ?_, rooted_ofEvents ht, ?_, fun id n hn hk => ?_⟩
  · rw [events, hsize, eventsBelow, hroot]
    refine hregains.events _ _ (fun p hp => ?_) (Nat.le_refl _)
    rw [anchorNumber_eq, hbares]
    have hstart : ∀ p ∈ ([] : List (Nat × NodeId)), p.2 < [({ kind := .document } : Node)].length ∧
        anchoredCount ([({ kind := .document } : Node)].take (p.2 + 1)) = p.1 := by simp
    exact anchoredCount_boundFrom hstart hnumbered p hp
  · rw [hroot']
    simpa using hlength
  · have hlt := lt_size hn
    by_cases h0 : id = 0
    · subst h0
      cases hroot.symm.trans hn
      cases hk
    · refine hregains.pairs id n ?_ ?_ hn hk
      · exact Nat.one_le_iff_ne_zero.mpr h0
      · rw [hsize, Nat.add_comm] at hlt
        exact hlt

/-- A mapping with a sequence as its key, which holds an alias of itself. -/
theorem ofEvents_lossless_key : ∃ t, ofEvents 2 (([.openMapping "" none,
      .openSequence "!t" (some ⟨1, "a"⟩), .alias ⟨1, "a"⟩, .closeSequence,
      .scalar .single "x" "" (some ⟨2, "a"⟩), .closeMapping] : List Event).map (⟨.start, ·⟩)) = .ok t ∧
    t.events = [.openMapping "" none, .openSequence "!t" (some ⟨1, "a"⟩), .alias ⟨1, "a"⟩,
      .closeSequence, .scalar .single "x" "" (some ⟨2, "a"⟩), .closeMapping] ∧ t.Rooted := by
  have hkey : Event.IsNode [.openSequence "!t" (some ⟨1, "a"⟩), .alias ⟨1, "a"⟩, .closeSequence] :=
    .sequence _ _ (.cons (.alias _) .nil)
  have hnode : Event.IsNode [.openMapping "" none, .openSequence "!t" (some ⟨1, "a"⟩),
      .alias ⟨1, "a"⟩, .closeSequence, .scalar .single "x" "" (some ⟨2, "a"⟩), .closeMapping] :=
    .mapping _ _ (.cons hkey (.scalar ..) .nil)
  have hdocument : Event.IsDocument ((([.openMapping "" none, .openSequence "!t" (some ⟨1, "a"⟩),
      .alias ⟨1, "a"⟩, .closeSequence, .scalar .single "x" "" (some ⟨2, "a"⟩), .closeMapping] :
      List Event).map (Marked.mk .start)).map (·.item)) := .inr hnode
  obtain ⟨t, ht, -, hevents, hrooted, -⟩ := ofEvents_lossless hdocument
    (by simp [Event.Numbered, Event.FitsNumbers, Event.anchor?]) (Nat.le_refl 2)
  exact ⟨t, ht, hevents, hrooted⟩

end Tree

end TaggedYaml
