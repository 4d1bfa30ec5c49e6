import TaggedYaml.Proofs.Tree.Steps

/-!
# Makes — runs of the builder that add children

What the builder adds stays as it is: a later step changes no node but the innermost open collection,
and of that the children only (`Grown`).  `Makes` says of the nodes that events make what is true of
them in every later tree; events one after another and members between the ends of a collection make
what their parts make (`Makes.append`, `Makes.collection`).
-/

namespace TaggedYaml

/-! ### Nodes that stay -/

namespace Tree

variable {t t' t'' : Tree} {parent first : Nat} {ids ids' : List NodeId} {n : Node}

/-- The second tree has new nodes, some of which are new children of an old one. -/
structure Grown (parent : NodeId) (t t' : Tree) (ids : List NodeId) : Prop where
  size : t.size ≤ t'.size
  old : ∀ id : Nat, id < t.size → id ≠ parent → t'.get? id = t.get? id
  parent : ∀ n, t.get? parent = some n →
    t'.get? parent = some { n with children := n.children ++ ids.toArray }

/-- The nodes from one number on stay in the second tree. -/
def Kept (t : Tree) (first : Nat) (t' : Tree) : Prop :=
  ∀ id : Nat, first ≤ id → id < t.size → t'.get? id = t.get? id

theorem Grown.refl (parent : NodeId) (t : Tree) : Grown parent t t [] :=
  ⟨Nat.le_refl _, fun _ _ _ => rfl, fun n hn => by simpa using hn⟩

theorem Grown.trans (h : Grown parent t t' ids) (h' : Grown parent t' t'' ids') :
    Grown parent t t'' (ids ++ ids') := by
  refine ⟨Nat.le_trans h.size h'.size, fun id hid hne => ?_, fun n hn => ?_⟩
  · rw [h'.old id (Nat.lt_of_lt_of_le hid h.size) hne, h.old id hid hne]
  · rw [h'.parent _ (h.parent n hn)]
    simp [Array.append_assoc]

/-- What was added stays when an older node gets more children. -/
theorem Grown.kept (h : Grown parent t t' ids) (hp : parent < first) :
    Kept t first t' :=
  fun id h1 h2 => h.old id h2 (by omega)

theorem Kept.trans {first' : Nat} (h : Kept t first t') (hsize : t.size ≤ t'.size)
    (hfirst : first' ≤ first) (h' : Kept t' first' t'') : Kept t first t'' :=
  fun id h1 h2 => (h' id (by omega) (by omega)).trans (h id h1 h2)

theorem append_eq (hp : parent < t.size) (n : Node) :
    ∃ t', t.append? parent n = some (t.size, t') ∧ t'.size = t.size + 1 ∧
      t'.get? t.size = some n ∧ Grown parent t t' [t.size] := by
  have hnew : (t.alloc n).2.get? t.size = some n := get?_alloc_new t n
  refine ⟨(t.alloc n).2.modify parent fun m => { m with children := m.children.push t.size },
    by rw [append?, if_pos hp]; rfl, by rw [size_modify, size_alloc], ?_, ?_⟩
  · rw [get?_modify_of_ne _ (Nat.ne_of_lt hp), hnew]
  · refine ⟨by rw [size_modify, size_alloc]; omega, fun id hid hne => ?_, fun m hm => ?_⟩
    · rw [get?_modify_of_ne _ (Ne.symm hne), get?_alloc_old hid]
    · rw [get?_modify_self, get?_alloc_old hp, hm]
      simp

end Tree

/-! ### Nodes that are added -/

namespace Builder

variable {b : Builder} {maxDepth : Nat} {n : Node} {anchor : Option Anchor}

/-- A second builder that stands where the first one stood, and has added nodes. -/
structure Adds (b b' : Builder) (ids : List NodeId) : Prop where
  stack : b'.stack = b.stack
  grown : Tree.Grown b.parent b.tree b'.tree ids

theorem Adds.refl (b : Builder) : Adds b b [] := ⟨rfl, .refl b.parent b.tree⟩

theorem Adds.parent_eq {b' : Builder} {ids : List NodeId} (h : Adds b b' ids) :
    b'.parent = b.parent := by
  rw [parent, parent, h.stack]

theorem Adds.trans {b' b'' : Builder} {ids ids' : List NodeId} (h : Adds b b' ids)
    (h' : Adds b' b'' ids') : Adds b b'' (ids ++ ids') :=
  ⟨h'.stack.trans h.stack, h.grown.trans (h.parent_eq ▸ h'.grown)⟩

theorem attach_eq (hp : b.parent < b.tree.size) (n : Node) (anchor : Option Anchor) :
    ∃ b', b.attach n anchor = .ok (b.tree.size, b') ∧ Adds b b' [b.tree.size] ∧
      b'.tree.size = b.tree.size + 1 ∧
      b'.tree.get? b.tree.size = some { n with anchor := anchor.map (·.name) } := by
  obtain ⟨t', ht', hsize, hget, hgrown⟩ :=
    Tree.append_eq hp { n with anchor := anchor.map (·.name) }
  rw [parent] at ht'
  rw [attach, ht']
  exact ⟨_, rfl, ⟨rfl, hgrown⟩, hsize, hget⟩

/-- A collection is opened, its members are added and it is closed. -/
theorem collection (hp : b.parent < b.tree.size) (hroom : b.stack.length < maxDepth)
    {first last : Marked Event} (hc : n.children = #[])
    (hfirst : b.step maxDepth first = b.openNode maxDepth n anchor)
    (hlast : ∀ b : Builder, b.step maxDepth last = b.closeNode n.kind) :
    ∃ b₁ : Builder, b.step maxDepth first = .ok b₁ ∧ b₁.parent = b.tree.size ∧
      b₁.tree.size = b.tree.size + 1 ∧ b₁.stack.length = b.stack.length + 1 ∧
      ∀ {members : List (Marked Event)} {b₂ : Builder} {ids : List NodeId},
        members.foldlM (step maxDepth) b₁ = .ok b₂ → Adds b₁ b₂ ids →
        ∃ b₃, (first :: (members ++ [last])).foldlM (step maxDepth) b = .ok b₃ ∧
          Adds b b₃ [b.tree.size] ∧ b₃.tree = b₂.tree ∧
          b₃.tree.get? b.tree.size =
            some { n with anchor := anchor.map (·.name), children := ids.toArray } := by
  obtain ⟨b', hb', hadds, hsize, hget⟩ := attach_eq hp n anchor
  have hopen : b.openNode maxDepth n anchor = .ok { b' with stack := b.tree.size :: b'.stack } := by
    rw [openNode, if_neg (by omega), hb']
    rfl
  refine ⟨{ b' with stack := b.tree.size :: b'.stack }, hfirst.trans hopen, rfl, hsize,
    by simp [hadds.stack], ?_⟩
  intro members b₂ ids hmembers h₂
  have hget₂ : b₂.tree.get? b.tree.size =
      some { n with anchor := anchor.map (·.name), children := ids.toArray } := by
    have := h₂.grown.parent _ hget
    rwa [hc, Array.empty_append] at this
  have hstack : b₂.stack = b.tree.size :: b.stack := by rw [h₂.stack, hadds.stack]
  refine ⟨{ b₂ with stack := b.stack }, ?_, ⟨rfl, ?_, fun id hid hne => ?_, fun m hm => ?_⟩, rfl,
    hget₂⟩
  · rw [List.foldlM_cons, hfirst, hopen]
    simp only [bind, Except.bind]
    rw [List.foldlM_append, hmembers]
    simp [bind, Except.bind, hlast, closeNode, hstack, hget₂, pure, Except.pure]
  · exact Nat.le_trans hadds.grown.size h₂.grown.size
  · have hlt : id ≠ b.tree.size := Nat.ne_of_lt hid
    rw [h₂.grown.old id (Nat.lt_of_lt_of_le hid hadds.grown.size) hlt, hadds.grown.old id hid hne]
  · have hlt : b.parent ≠ b.tree.size := Nat.ne_of_lt hp
    rw [h₂.grown.old b.parent (Nat.lt_of_lt_of_le hp hadds.grown.size) hlt, hadds.grown.parent m hm]

/-! ### What events make -/

/-- Events of which the builder makes new children of the innermost collection. -/
def Makes (maxDepth : Nat) (b : Builder) (es : List (Marked Event))
    (P : Tree → List NodeId → Prop) : Prop :=
  ∃ b' ids, es.foldlM (step maxDepth) b = .ok b' ∧ Adds b b' ids ∧
    ∀ t, Tree.Kept b'.tree b.tree.size t → P t ids

theorem Makes.append {es es' : List (Marked Event)} {P P' : Tree → List NodeId → Prop}
    (hp : b.parent < b.tree.size) (h : Makes maxDepth b es P)
    (h' : ∀ b', es.foldlM (step maxDepth) b = .ok b' → b'.parent < b'.tree.size →
      b'.stack = b.stack → Makes maxDepth b' es' P') :
    Makes maxDepth b (es ++ es') fun t ids =>
      ∃ ids₁ ids₂, ids = ids₁ ++ ids₂ ∧ P t ids₁ ∧ P' t ids₂ := by
  obtain ⟨b₁, ids₁, hb₁, h₁, hP₁⟩ := h
  have hp₁ : b₁.parent < b₁.tree.size := by
    rw [h₁.parent_eq]
    exact Nat.lt_of_lt_of_le hp h₁.grown.size
  obtain ⟨b₂, ids₂, hb₂, h₂, hP₂⟩ := h' b₁ hb₁ hp₁ h₁.stack
  refine ⟨b₂, ids₁ ++ ids₂, ?_, h₁.trans h₂, fun t ht => ⟨ids₁, ids₂, rfl, ?_, ?_⟩⟩
  · rw [List.foldlM_append, hb₁]
    exact hb₂
  · have hkept := h₂.grown.kept (by rwa [h₁.parent_eq])
    exact hP₁ t (hkept.trans h₂.grown.size (Nat.le_refl _) ht)
  · exact hP₂ t fun id h1 h2 => ht id (Nat.le_trans h₁.grown.size h1) h2

theorem Makes.mono {es : List (Marked Event)} {P P' : Tree → List NodeId → Prop}
    (h : Makes maxDepth b es P) (himp : ∀ t ids, P t ids → P' t ids) : Makes maxDepth b es P' := by
  obtain ⟨b', ids, hb', hadds, hP⟩ := h
  exact ⟨b', ids, hb', hadds, fun t ht => himp t ids (hP t ht)⟩

/-- An event without members adds one node. -/
theorem Makes.leaf (hp : b.parent < b.tree.size) {e : Marked Event}
    (hstep : b.step maxDepth e = (b.attach n anchor).map (·.2)) :
    Makes maxDepth b [e] fun t ids => ids = [b.tree.size] ∧
      t.get? b.tree.size = some { n with anchor := anchor.map (·.name) } := by
  obtain ⟨b', hb', hadds, hsize, hget⟩ := attach_eq hp n anchor
  refine ⟨b', _, ?_, hadds, fun t ht => ⟨rfl, ?_⟩⟩
  · rw [List.foldlM_cons, hstep, hb']
    rfl
  · rw [ht _ (Nat.le_refl _) (by omega), hget]

/-- Members between the events of a collection become its children. -/
theorem Makes.collection (hp : b.parent < b.tree.size) (hroom : b.stack.length < maxDepth)
    {first last : Marked Event} {members : List (Marked Event)} {P : Tree → List NodeId → Prop}
    (hc : n.children = #[]) (hfirst : b.step maxDepth first = b.openNode maxDepth n anchor)
    (hlast : ∀ b : Builder, b.step maxDepth last = b.closeNode n.kind)
    (hmembers : ∀ b' : Builder, b.step maxDepth first = .ok b' → b'.parent < b'.tree.size →
      b'.stack.length = b.stack.length + 1 → Makes maxDepth b' members P) :
    Makes maxDepth b (first :: (members ++ [last])) fun t ids => ∃ children,
      ids = [b.tree.size] ∧ t.get? b.tree.size =
        some { n with anchor := anchor.map (·.name), children := children.toArray } ∧
      P t children := by
  obtain ⟨b₁, hstep, hparent, hsize, hstack, hclose⟩ := Builder.collection hp hroom hc hfirst hlast
  obtain ⟨b₂, children, hb₂, h₂, hP⟩ := hmembers b₁ hstep (by omega) hstack
  obtain ⟨b₃, hb₃, h₃, htree, hget⟩ := hclose hb₂ h₂
  have hgrown : b.tree.size < b₃.tree.size := by
    have := h₂.grown.size
    rw [htree]
    omega
  refine ⟨b₃, _, hb₃, h₃, fun t ht => ⟨children, rfl, ?_, hP t fun id h1 h2 => ?_⟩⟩
  · rw [ht _ (Nat.le_refl _) hgrown, hget]
  · rw [ht id (by omega) (by rwa [htree]), htree]

theorem map_item_eq_cons {es : List (Marked Event)} {e : Event} {rest : List Event}
    (h : es.map (·.item) = e :: rest) :
    ∃ first es', es = first :: es' ∧ first.item = e ∧ es'.map (·.item) = rest :=
  List.map_eq_cons_iff.mp h

theorem map_item_eq_collection {es : List (Marked Event)} {e e' : Event} {mid : List Event}
    (h : es.map (·.item) = e :: (mid ++ [e'])) : ∃ first members last,
      es = first :: (members ++ [last]) ∧ first.item = e ∧ members.map (·.item) = mid ∧
        last.item = e' := by
  obtain ⟨first, es', rfl, hfirst, h⟩ := map_item_eq_cons h
  obtain ⟨members, last', rfl, hmembers, h⟩ := List.map_eq_append_iff.mp h
  obtain ⟨last, es'', rfl, hlast, h⟩ := map_item_eq_cons h
  obtain rfl := List.map_eq_nil_iff.mp h
  exact ⟨first, members, last, rfl, hfirst, hmembers, hlast⟩

end Builder

end TaggedYaml
