import TaggedYaml.Proofs.Event.Anchors
import TaggedYaml.Proofs.Except
import TaggedYaml.Tree.Build

/-!
# Steps — what the builder does with an event

An event adds one node below the innermost open collection (`Enters`) or closes this collection and
changes no node (`Leaves`); there is nothing else that a step can do (`step_cases`).  So the nodes of
a tree, without their children, are those of its events (`bares_ofEvents`).
-/

namespace TaggedYaml

/-! ### Nodes without their children -/

namespace Node

/-- A node without its children. -/
def bare (n : Node) : Node := { n with children := #[] }

variable {n m : Node}

theorem eq_of_bare (h : n.bare = m.bare) : n = { m with children := n.children } := by
  cases n
  cases m
  cases h
  rfl

theorem kind_of_bare (h : n.bare = m.bare) : n.kind = m.kind := by rw [eq_of_bare h]

theorem anchor_of_bare (h : n.bare = m.bare) : n.anchor = m.anchor := by rw [eq_of_bare h]

end Node

namespace Tree

variable {t t' : Tree} {parent id : Nat} {n m : Node}

/-- The nodes of a tree without their children. -/
def bares (t : Tree) : List Node := t.nodes.toList.map Node.bare

/-- The place of the anchor of a node among those of all nodes, counted from 1. -/
def anchorNumber (t : Tree) (id : NodeId) : Nat :=
  (t.nodes.toList.take (id + 1)).countP (·.anchor.isSome)

theorem getElem?_bares (t : Tree) (id : NodeId) : t.bares[id]? = (t.get? id).map Node.bare := by
  simp [bares, get?]

theorem lt_size (h : t.get? id = some n) : id < t.size := by
  by_contra hle
  rw [get?_eq_none_iff.mpr (Nat.le_of_not_lt hle)] at h
  cases h

theorem exists_get? (h : id < t.size) : ∃ n, t.get? id = some n := by
  cases hn : t.get? id with
  | none => exact absurd (get?_eq_none_iff.mp hn) (Nat.not_le.mpr h)
  | some n => exact ⟨n, rfl⟩

/-- A second tree with one node more, which is the last child of an old node. -/
structure Appends (t : Tree) (parent : NodeId) (n : Node) (t' : Tree) : Prop where
  parent_lt : parent < t.size
  eq : t' = (t.append parent n).2

theorem appends_of_append? (h : t.append? parent n = some (id, t')) :
    id = t.size ∧ Appends t parent n t' := by
  rw [append?] at h
  split at h
  · obtain ⟨rfl, rfl⟩ := Prod.mk.inj (Option.some.inj h)
    exact ⟨rfl, ‹_›, rfl⟩
  · cases h

namespace Appends

theorem nodes (h : Appends t parent n t') : t'.nodes.toList =
    (t.nodes.toList ++ [n]).modify parent fun m => { m with children := m.children.push t.size } := by
  rw [h.eq]
  simp [append, alloc, modify]

theorem size (h : Appends t parent n t') : t'.size = t.size + 1 := by
  rw [h.eq]
  simp [append]

theorem bares (h : Appends t parent n t') : t'.bares = t.bares ++ [n.bare] := by
  have hmap : t.bares ++ [n.bare] = (t.nodes.toList ++ [n]).map Node.bare := by
    rw [List.map_append]
    rfl
  rw [Tree.bares, h.nodes, hmap]
  refine List.ext_getElem? fun i => ?_
  rw [List.getElem?_map, List.getElem?_map, List.getElem?_modify, Option.map_eq_map, Option.map_map]
  congr 1
  funext m
  by_cases hi : parent = i <;> simp [hi, Node.bare]

theorem get?_new (h : Appends t parent n t') : t'.get? t.size = some n := by
  rw [h.eq, append, get?_modify_of_ne _ (Nat.ne_of_lt h.parent_lt)]
  exact get?_alloc_new t n

theorem get?_parent (h : Appends t parent n t') : t'.get? parent =
    (t.get? parent).map fun m => { m with children := m.children.push t.size } := by
  rw [h.eq, append, get?_modify_self, get?_alloc_old h.parent_lt]
  rfl

theorem get?_old (h : Appends t parent n t') (hlt : id < t.size) (hne : id ≠ parent) :
    t'.get? id = t.get? id := by
  rw [h.eq, append, get?_modify_of_ne _ (Ne.symm hne)]
  exact get?_alloc_old hlt n

/-- A node of the second tree is the new one, or an old one whose children are those it had, and if
it is the parent also the new one. -/
theorem cases (h : Appends t parent n t') (hm : t'.get? id = some m) :
    (id = t.size ∧ m = n) ∨ ∃ m₀, t.get? id = some m₀ ∧ m.bare = m₀.bare ∧
      ∀ c ∈ m.children, c ∈ m₀.children ∨ (id = parent ∧ c = t.size) := by
  have hlt : id < t.size + 1 := h.size ▸ lt_size hm
  rcases Nat.lt_succ_iff_lt_or_eq.mp hlt with hlt | rfl
  · right
    by_cases hp : id = parent
    · subst hp
      rw [h.get?_parent, Option.map_eq_some_iff] at hm
      obtain ⟨m₀, hm₀, rfl⟩ := hm
      refine ⟨m₀, hm₀, rfl, fun c hc => ?_⟩
      rw [Array.mem_push] at hc
      exact hc.imp_right fun hc => ⟨rfl, hc⟩
    · rw [h.get?_old hlt hp] at hm
      exact ⟨m, hm, rfl, fun c hc => .inl hc⟩
  · rw [h.get?_new] at hm
    exact .inl ⟨rfl, (Option.some.inj hm).symm⟩

end Appends

end Tree

theorem mem_of_lookup {bound : List (Nat × NodeId)} {k : Nat} {id : NodeId}
    (h : bound.lookup k = some id) : (k, id) ∈ bound := by
  obtain ⟨l₁, l₂, rfl, -⟩ := List.lookup_eq_some_iff.mp h
  simp

/-! ### Nodes of events -/

/-- The node that an event adds; `bound` are the nodes with anchors so far by the numbers of these. -/
def Marked.node? (bound : List (Nat × NodeId)) (e : Marked Event) : Option Node :=
  match e.item with
  | .scalar style value tag anchor =>
    some { kind := .scalar, tag, value, anchor := anchor.map (·.name), style, mark := e.mark }
  | .alias a =>
    some { kind := .alias, value := a.name, target := bound.lookup a.number, mark := e.mark }
  | .openSequence tag anchor =>
    some { kind := .sequence, tag, anchor := anchor.map (·.name), mark := e.mark }
  | .openMapping tag anchor =>
    some { kind := .mapping, tag, anchor := anchor.map (·.name), mark := e.mark }
  | .closeSequence | .closeMapping => none

namespace Event

/-- An event with which a node begins. -/
def isNode : Event → Bool
  | .closeSequence | .closeMapping => false
  | _ => true

/-- The number of nodes that begin. -/
def nodeCount (es : List Event) : Nat := es.countP isNode

/-- Binds the anchor of an event to a node. -/
def bind (e : Event) (id : NodeId) : List (Nat × NodeId) :=
  (e.anchor?.map fun a => (a.number, id)).toList

/-- The nodes with anchors behind some events, latest first, if nodes are numbered from `next` on. -/
def boundFrom (next : NodeId) (bound : List (Nat × NodeId)) : List Event → List (Nat × NodeId)
  | [] => bound
  | e :: rest => boundFrom (if e.isNode then next + 1 else next) (e.bind next ++ bound) rest

end Event

/-- The nodes that events add, if nodes are numbered from `next` on. -/
def nodesFrom (next : NodeId) (bound : List (Nat × NodeId)) : List (Marked Event) → List Node
  | [] => []
  | e :: rest => (e.node? bound).toList ++
      nodesFrom (if e.item.isNode then next + 1 else next) (e.item.bind next ++ bound) rest

theorem Marked.isNode_of_node? {bound : List (Nat × NodeId)} {e : Marked Event} {n : Node}
    (h : e.node? bound = some n) : e.item.isNode = true := by
  obtain ⟨mark, e⟩ := e
  cases e with
  | closeSequence => cases h
  | closeMapping => cases h
  | _ => rfl

theorem Marked.node?_of_isNode {bound : List (Nat × NodeId)} {e : Marked Event}
    (h : e.item.isNode = false) : e.node? bound = none := by
  cases hn : e.node? bound with
  | none => rfl
  | some n => rw [isNode_of_node? hn] at h; cases h

theorem Event.anchor?_of_isNode {e : Event} (h : e.isNode = false) : e.anchor? = none := by
  cases e with
  | closeSequence => rfl
  | closeMapping => rfl
  | _ => cases h

theorem Event.bind_of_isNode {e : Event} (h : e.isNode = false) (id : NodeId) : e.bind id = [] := by
  rw [Event.bind, anchor?_of_isNode h]
  rfl

theorem Marked.children_of_node? {bound : List (Nat × NodeId)} {e : Marked Event} {n : Node}
    (h : e.node? bound = some n) : n.children = #[] := by
  obtain ⟨mark, e⟩ := e
  cases e <;> cases h <;> rfl

theorem Marked.kind_of_node? {bound : List (Nat × NodeId)} {e : Marked Event} {n : Node}
    (h : e.node? bound = some n) : n.kind ≠ .document := by
  obtain ⟨mark, e⟩ := e
  cases e <;> cases h <;> exact nofun

theorem Marked.anchor_of_node? {bound : List (Nat × NodeId)} {e : Marked Event} {n : Node}
    (h : e.node? bound = some n) : n.anchor = e.item.anchor?.map (·.name) := by
  obtain ⟨mark, e⟩ := e
  cases e <;> cases h <;> rfl

/-! ### Steps -/

namespace Builder

variable {b b' : Builder} {e : Marked Event} {maxDepth : Nat} {n : Node} {anchor : Option Anchor}
  {id : NodeId}

/-- The node to which nodes are added. -/
def parent (b : Builder) : Nat := b.stack.headD Tree.root

/-- An event adds a node, which is opened if it is a collection. -/
structure Enters (maxDepth : Nat) (b : Builder) (e : Marked Event) (n : Node) (b' : Builder) :
    Prop where
  node : e.node? b.bound = some n
  tree : Tree.Appends b.tree b.parent n b'.tree
  bound : b'.bound = e.item.bind b.tree.size ++ b.bound
  stack : b'.stack = if n.kind.isCollection then b.tree.size :: b.stack else b.stack
  room : n.kind.isCollection = true → b.stack.length < maxDepth
  target : n.kind = .alias → n.target.isSome

/-- An event closes the innermost collection. -/
structure Leaves (b : Builder) (e : Marked Event) (b' : Builder) : Prop where
  node : e.item.isNode = false
  stack : ∃ id, b.stack = id :: b'.stack
  tree : b'.tree = b.tree
  bound : b'.bound = b.bound

theorem attach_cases (h : b.attach n anchor = .ok (id, b')) : id = b.tree.size ∧
    Tree.Appends b.tree b.parent { n with anchor := anchor.map (·.name) } b'.tree ∧
    b'.stack = b.stack ∧
    b'.bound = (anchor.map fun a => (a.number, b.tree.size)).toList ++ b.bound := by
  rw [attach] at h
  split at h
  · cases h
  · rename_i id' t' happ
    obtain ⟨rfl, htree⟩ := Tree.appends_of_append? happ
    cases h
    refine ⟨rfl, htree, rfl, ?_⟩
    cases anchor <;> rfl

theorem openNode_cases (h : b.openNode maxDepth n anchor = .ok b') :
    Tree.Appends b.tree b.parent { n with anchor := anchor.map (·.name) } b'.tree ∧
    b'.stack = b.tree.size :: b.stack ∧ b.stack.length < maxDepth ∧
    b'.bound = (anchor.map fun a => (a.number, b.tree.size)).toList ++ b.bound := by
  rw [openNode] at h
  split at h
  · cases h
  · obtain ⟨⟨id, b₁⟩, ha, h⟩ := bind_eq_ok h
    cases h
    obtain ⟨rfl, htree, hstack, hbound⟩ := attach_cases ha
    exact ⟨htree, congrArg _ hstack, Nat.lt_of_not_le ‹_›, hbound⟩

theorem closeNode_cases {kind : Kind} (h : b.closeNode kind = .ok b') :
    (∃ id, b.stack = id :: b'.stack) ∧ b'.tree = b.tree ∧ b'.bound = b.bound := by
  rw [closeNode] at h
  split at h
  · rename_i id stack hstack
    split at h
    · cases h
      exact ⟨⟨id, hstack⟩, rfl, rfl⟩
    · cases h
  · cases h

/-- There is nothing else that a step can do. -/
theorem step_cases (h : b.step maxDepth e = .ok b') : (∃ n, Enters maxDepth b e n b') ∨ Leaves b e b' := by
  obtain ⟨mark, e⟩ := e
  cases e with
  | scalar style value tag anchor =>
    obtain ⟨⟨id, b₁⟩, ha, h⟩ := bind_eq_ok h
    cases h
    obtain ⟨-, htree, hstack, hbound⟩ := attach_cases ha
    exact .inl ⟨_, rfl, htree, hbound, hstack, nofun, nofun⟩
  | «alias» a =>
    simp only [step] at h
    split at h
    · cases h
    · rename_i target htarget
      obtain ⟨⟨id, b₁⟩, ha, h⟩ := bind_eq_ok h
      cases h
      obtain ⟨-, htree, hstack, hbound⟩ := attach_cases ha
      refine .inl ⟨_, rfl, ?_, hbound, hstack, nofun, fun _ => by simp [htarget]⟩
      rw [htarget]
      exact htree
  | openSequence tag anchor =>
    obtain ⟨htree, hstack, hroom, hbound⟩ := openNode_cases h
    exact .inl ⟨_, rfl, htree, hbound, hstack, fun _ => hroom, nofun⟩
  | openMapping tag anchor =>
    obtain ⟨htree, hstack, hroom, hbound⟩ := openNode_cases h
    exact .inl ⟨_, rfl, htree, hbound, hstack, fun _ => hroom, nofun⟩
  | closeSequence =>
    obtain ⟨hstack, htree, hbound⟩ := closeNode_cases h
    exact .inr ⟨rfl, hstack, htree, hbound⟩
  | closeMapping =>
    obtain ⟨hstack, htree, hbound⟩ := closeNode_cases h
    exact .inr ⟨rfl, hstack, htree, hbound⟩

/-! ### Runs -/

/-- What every step keeps, of the events so far and the builder, a run keeps. -/
theorem foldlM_keeps {P : List Event → Builder → Prop}
    (hstep : ∀ past e b b', P past b → step maxDepth b e = .ok b' → P (e.item :: past) b') :
    ∀ {es : List (Marked Event)} {past : List Event} {b b' : Builder}, P past b →
      es.foldlM (step maxDepth) b = .ok b' → P ((es.map (·.item)).reverse ++ past) b'
  | [], past, b, b', h, hb => by
    cases hb
    exact h
  | e :: es, past, b, b', h, hb => by
    rw [List.foldlM_cons] at hb
    obtain ⟨b₁, hb₁, hb⟩ := bind_eq_ok hb
    have := foldlM_keeps hstep (hstep past e b b₁ h hb₁) hb
    simpa using this

/-- What holds at the start and is kept by every step holds of a whole run. -/
theorem run_keeps {P : List Event → Builder → Prop}
    (hstep : ∀ past e b b', P past b → step maxDepth b e = .ok b' → P (e.item :: past) b')
    {es : List (Marked Event)} (hstart : P [] ⟨.empty, [], []⟩)
    (hb : es.foldlM (step maxDepth) ⟨.empty, [], []⟩ = .ok b) : P (es.map (·.item)).reverse b := by
  have hrun := foldlM_keeps hstep hstart hb
  rwa [List.append_nil] at hrun

theorem step_bares (h : b.step maxDepth e = .ok b') :
    b'.tree.bares = b.tree.bares ++ (e.node? b.bound).toList ∧
    b'.tree.size = (if e.item.isNode then b.tree.size + 1 else b.tree.size) ∧
    b'.bound = e.item.bind b.tree.size ++ b.bound := by
  rcases step_cases h with ⟨n, hn⟩ | hl
  · have hbare : n.bare = n := by
      rw [Node.bare, ← Marked.children_of_node? hn.node]
    refine ⟨?_, ?_, hn.bound⟩
    · rw [hn.tree.bares, hn.node, hbare]
      rfl
    · rw [hn.tree.size, if_pos (Marked.isNode_of_node? hn.node)]
  · have hnode := hl.node
    refine ⟨?_, ?_, ?_⟩
    · rw [hl.tree, Marked.node?_of_isNode hnode]
      exact (List.append_nil _).symm
    · rw [hl.tree, hnode, if_neg nofun]
    · rw [hl.bound, Event.bind_of_isNode hnode]
      rfl

/-- Events add their nodes and bind their anchors. -/
theorem foldlM_bares : ∀ {es : List (Marked Event)} {b b' : Builder},
    es.foldlM (step maxDepth) b = .ok b' →
    b'.tree.bares = b.tree.bares ++ nodesFrom b.tree.size b.bound es ∧
    b'.tree.size = b.tree.size + Event.nodeCount (es.map (·.item)) ∧
    b'.bound = Event.boundFrom b.tree.size b.bound (es.map (·.item))
  | [], b, b', hb => by
    cases hb
    exact ⟨(List.append_nil _).symm, rfl, rfl⟩
  | e :: es, b, b', hb => by
    rw [List.foldlM_cons] at hb
    obtain ⟨b₁, hb₁, hb⟩ := bind_eq_ok hb
    obtain ⟨hbares₁, hsize₁, hbound₁⟩ := step_bares hb₁
    obtain ⟨hbares, hsize, hbound⟩ := foldlM_bares hb
    refine ⟨?_, ?_, ?_⟩
    · rw [hbares, hbares₁, hsize₁, hbound₁, nodesFrom, List.append_assoc]
    · rw [hsize, hsize₁, Event.nodeCount, Event.nodeCount, List.map_cons, List.countP_cons]
      split <;> omega
    · rw [hbound, hsize₁, hbound₁, List.map_cons, Event.boundFrom]

end Builder

namespace Tree

variable {maxDepth : Nat} {es : List (Marked Event)} {t : Tree}

theorem exists_of_ofEvents (h : ofEvents maxDepth es = .ok t) :
    ∃ b, es.foldlM (Builder.step maxDepth) ⟨.empty, [], []⟩ = .ok b ∧ b.tree = t := by
  obtain ⟨b, hb, h⟩ := bind_eq_ok h
  cases h
  exact ⟨b, hb, rfl⟩

/-- The nodes of a tree are the document and, in their order, those of its events. -/
theorem bares_ofEvents (h : ofEvents maxDepth es = .ok t) :
    t.bares = { kind := .document } :: nodesFrom 1 [] es := by
  obtain ⟨b, hb, rfl⟩ := exists_of_ofEvents h
  exact (Builder.foldlM_bares hb).1

end Tree

end TaggedYaml
