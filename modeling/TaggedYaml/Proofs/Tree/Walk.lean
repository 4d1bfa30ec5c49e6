import Mathlib.Algebra.Group.Nat.Even
import TaggedYaml.Proofs.Event.Numbers

/-!
# Walk — a tree gives its events back

A walk over the children of a tree says the events of its nodes (`Tree.events`).  `Regains` says of
nodes that they were made of some events: the walk gives the events back.
-/

namespace TaggedYaml

namespace Tree

/-- The events of the nodes below a node, each node before its children and the children of a
collection before its end; anchors are numbered by their nodes. -/
def eventsBelow (t : Tree) (number : NodeId → Nat) : Nat → NodeId → List Event
  | 0, _ => []
  | fuel + 1, id =>
    match t.get? id with
    | none => []
    | some n =>
      let anchor := n.anchor.map fun name => ⟨number id, name⟩
      let members := n.children.toList.flatMap (eventsBelow t number fuel)
      match n.kind with
      | .document => members
      | .scalar => [.scalar n.style n.value n.tag anchor]
      | .alias => [.alias ⟨(n.target.map number).getD 0, n.value⟩]
      | .sequence => .openSequence n.tag anchor :: (members ++ [.closeSequence])
      | .mapping => .openMapping n.tag anchor :: (members ++ [.closeMapping])

/-- The events of a tree. -/
def events (t : Tree) : List Event := t.eventsBelow t.anchorNumber t.size root

/-- Some nodes with all that is below them, one after another, are the nodes with the numbers from
the first one up to the second. -/
inductive Spans (t : Tree) : Nat → List NodeId → Nat → Prop where
  | nil (i : Nat) : Spans t i [] i
  | cons {i j k : Nat} {n : Node} {ids : List NodeId} (hn : t.get? i = some n)
      (hbelow : Spans t (i + 1) n.children.toList j) (hrest : Spans t j ids k) :
      Spans t i (i :: ids) k

/-- Nodes from whose events the walk gets them back; they are numbered from `next` on. -/
structure Regains (next : Nat) (bound : List (Nat × NodeId)) (es : List Event) (t : Tree)
    (ids : List NodeId) : Prop where
  events : ∀ number fuel, (∀ p ∈ Event.boundFrom next bound es, number p.2 = p.1) →
    Event.nodeCount es ≤ fuel → ids.flatMap (t.eventsBelow number fuel) = es
  pairs : ∀ (id : Nat) n, next ≤ id → id < next + Event.nodeCount es → t.get? id = some n →
    n.kind = .mapping → Even n.children.size
  spans : Spans t next ids (next + Event.nodeCount es)

variable {t : Tree} {next : Nat} {bound : List (Nat × NodeId)} {ids ids' : List NodeId}
  {es es' : List Event} {n : Node} {mark : Mark}

theorem Spans.append {i j k : Nat} (h : Spans t i ids j) (h' : Spans t j ids' k) :
    Spans t i (ids ++ ids') k := by
  induction h with
  | nil i => exact h'
  | cons hn hbelow _ _ ih => exact .cons hn hbelow (ih h')

theorem Regains.nil : Regains next bound [] t [] := by
  refine ⟨fun _ _ _ _ => rfl, fun id n h1 h2 => ?_, .nil next⟩
  rw [Event.nodeCount, List.countP_nil] at h2
  omega

theorem Regains.append (h : Regains next bound es t ids)
    (h' : Regains (next + Event.nodeCount es) (Event.boundFrom next bound es) es' t ids') :
    Regains next bound (es ++ es') t (ids ++ ids') := by
  refine ⟨fun number fuel hnumber hfuel => ?_, fun id n h1 h2 hn hk => ?_, ?_⟩
  · rw [Event.boundFrom_append] at hnumber
    rw [Event.nodeCount_append] at hfuel
    rw [List.flatMap_append, h.events number fuel (fun p hp => hnumber p (Event.mem_boundFrom hp))
      (by omega), h'.events number fuel hnumber (by omega)]
  · rw [Event.nodeCount_append] at h2
    by_cases hlt : id < next + Event.nodeCount es
    · exact h.pairs id n h1 hlt hn hk
    · exact h'.pairs id n (by omega) (by omega) hn hk
  · rw [Event.nodeCount_append, ← Nat.add_assoc]
    exact h.spans.append h'.spans

/-- The anchor of a node is that of its event. -/
theorem anchor_of_bound {number : NodeId → Nat} {anchor : Option Anchor}
    (h : ∀ p ∈ (anchor.map fun a => (a.number, next)).toList, number p.2 = p.1) :
    ((anchor.map (·.name)).map fun name => (⟨number next, name⟩ : Anchor)) = anchor := by
  cases anchor with
  | none => rfl
  | some a =>
    have hnumber : number next = a.number := h (a.number, next) (by simp)
    simp [hnumber]

/-- A node without members. -/
theorem regains_leaf {e : Event} (he : e.isNode = true) (hn : t.get? next = some n)
    (hk : n.kind ≠ .mapping) (hc : n.children = #[]) (hbelow : ∀ number fuel, (∀ p ∈ e.bind next ++ bound,
      number p.2 = p.1) → t.eventsBelow number (fuel + 1) next = [e]) :
    Regains next bound [e] t [next] := by
  have hcount : Event.nodeCount [e] = 1 := by rw [Event.nodeCount_cons, he]; rfl
  refine ⟨fun number fuel hnumber hfuel => ?_, fun id m h1 h2 hm hk' => ?_, ?_⟩
  · obtain ⟨fuel, rfl⟩ := Nat.exists_eq_add_of_le' (hcount ▸ hfuel)
    rw [List.flatMap_singleton]
    exact hbelow number fuel hnumber
  · obtain rfl : next = id := by omega
    obtain rfl := Option.some.inj (hn.symm.trans hm)
    exact absurd hk' hk
  · rw [hcount]
    exact .cons hn (hc ▸ .nil _) (.nil _)

theorem regains_scalar {style : Style} {text tag : String} {anchor : Option Anchor}
    (hn : t.get? next = some
      { kind := .scalar, tag, value := text, anchor := anchor.map (·.name), style, mark }) :
    Regains next bound [.scalar style text tag anchor] t [next] := by
  refine regains_leaf rfl hn nofun rfl fun number fuel hnumber => ?_
  have hanchor := anchor_of_bound fun p hp => hnumber p (List.mem_append_left _ hp)
  rw [eventsBelow, hn]
  exact congrArg (fun a => [EventOf.scalar style text tag a]) hanchor

theorem regains_alias {a : Anchor} {r : NodeId} (hr : bound.lookup a.number = some r)
    (hn : t.get? next = some { kind := .alias, value := a.name, target := some r, mark }) :
    Regains next bound [.alias a] t [next] := by
  refine regains_leaf rfl hn nofun rfl fun number fuel hnumber => ?_
  have hnumber : number r = a.number :=
    hnumber (a.number, r) (List.mem_append_right _ (mem_of_lookup hr))
  rw [eventsBelow, hn]
  exact congrArg (fun k => [EventOf.alias (Anchor.mk k a.name)]) hnumber

/-- The two ends of a collection of some kind. -/
inductive EndsOf (tag : String) (anchor : Option Anchor) : Kind → Event → Event → Prop where
  | sequence : EndsOf tag anchor .sequence (.openSequence tag anchor) .closeSequence
  | mapping : EndsOf tag anchor .mapping (.openMapping tag anchor) .closeMapping

variable {tag : String} {anchor : Option Anchor} {kind : Kind} {first last : Event}

theorem EndsOf.first_isNode (h : EndsOf tag anchor kind first last) : first.isNode = true := by
  cases h <;> rfl

theorem EndsOf.last_isNode (h : EndsOf tag anchor kind first last) : last.isNode = false := by
  cases h <;> rfl

theorem EndsOf.anchor_first (h : EndsOf tag anchor kind first last) : first.anchor? = anchor := by
  cases h <;> rfl

theorem EndsOf.nodeCount (h : EndsOf tag anchor kind first last) :
    Event.nodeCount (first :: (es ++ [last])) = Event.nodeCount es + 1 := by
  rw [Event.nodeCount_cons, Event.nodeCount_append, Event.nodeCount_cons, h.first_isNode,
    h.last_isNode]
  simp [Event.nodeCount, Nat.add_comm]

theorem EndsOf.boundFrom (h : EndsOf tag anchor kind first last) :
    Event.boundFrom next bound (first :: (es ++ [last])) =
      Event.boundFrom (next + 1) (first.bind next ++ bound) es := by
  rw [Event.boundFrom, h.first_isNode, Event.boundFrom_append, Event.boundFrom, Event.boundFrom,
    Event.bind_of_isNode h.last_isNode]
  rfl

/-- A collection gives its members back between its ends. -/
theorem regains_collection (h : EndsOf tag anchor kind first last) (hn : t.get? next = some
      { kind, tag, anchor := anchor.map (·.name), children := ids.toArray, mark })
    (hmembers : Regains (next + 1) (first.bind next ++ bound) es t ids)
    (heven : kind = .mapping → Even ids.length) :
    Regains next bound (first :: (es ++ [last])) t [next] := by
  refine ⟨fun number fuel hnumber hfuel => ?_, fun id m h1 h2 hm hk => ?_, ?_⟩
  · rw [h.nodeCount] at hfuel
    rw [h.boundFrom] at hnumber
    obtain ⟨fuel, rfl⟩ := Nat.exists_eq_add_of_le' (Nat.le_of_add_left_le hfuel)
    have hevents := hmembers.events number fuel hnumber (by omega)
    have hanchor : ((anchor.map (·.name)).map fun name => (⟨number next, name⟩ : Anchor)) = anchor := by
      refine anchor_of_bound fun p hp => hnumber p (Event.mem_boundFrom (List.mem_append_left _ ?_))
      rw [Event.bind, h.anchor_first]
      exact hp
    rw [List.flatMap_singleton, eventsBelow, hn]
    cases h <;> simp only [hanchor, hevents]
  · rw [h.nodeCount] at h2
    rcases Nat.eq_or_lt_of_le h1 with rfl | hlt
    · obtain rfl := Option.some.inj (hn.symm.trans hm)
      simpa using heven hk
    · exact hmembers.pairs id m hlt (by omega) hm hk
  · rw [h.nodeCount, Nat.add_comm _ 1, ← Nat.add_assoc]
    exact .cons hn hmembers.spans (.nil _)

end Tree

end TaggedYaml
