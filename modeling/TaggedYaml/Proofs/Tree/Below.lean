import Mathlib.Logic.Relation
import Mathlib.Order.WellFounded
import Mathlib.Data.Finite.Prod
import TaggedYaml.Proofs.Tree.Flattens

/-!
# Below — the graph of children

A node stands below those of which it is a child, a child of a child, and so on (`Tree.Below`).  A
child may be shared, and it may stand below itself; where no node of the document does, going down
comes to an end (`Acyclic.acc`).  Flattening changes no children, so the graph stays as it is.
-/

namespace TaggedYaml

namespace Tree

variable {t t' : Tree} {id p c : NodeId} {n : Node}

/-- The children of a node; a number outside the tree has none. -/
def members (t : Tree) (id : NodeId) : List NodeId :=
  ((t.get? id).map (·.children.toList)).getD []

/-- A node is a child of another one. -/
def Child (t : Tree) (p c : NodeId) : Prop := c ∈ t.members p

/-- A node is another one or stands below it. -/
def Below (t : Tree) : NodeId → NodeId → Prop := Relation.ReflTransGen t.Child

/-- All children are nodes of the tree. -/
def Inside (t : Tree) : Prop := ∀ p c, t.Child p c → c < t.size

/-- No node of the document stands below itself. -/
def Acyclic (t : Tree) : Prop := ∀ id, t.Below root id → ¬ Relation.TransGen t.Child id id

theorem members_eq (hn : t.get? id = some n) : t.members id = n.children.toList := by
  rw [members, hn]
  rfl

theorem child_of_mem (hn : t.get? id = some n) (hc : c ∈ n.children.toList) : t.Child id c := by
  rw [Child, members_eq hn]
  exact hc

theorem ne_root_of_child (hroot : ∀ p, ¬ t.Child p root) (hc : t.Child p c) : c ≠ root := by
  rintro rfl
  exact hroot p hc

/-- Only nodes of the tree have children. -/
theorem Child.lt_size (h : t.Child p c) : p < t.size := by
  by_contra hp
  have hnone : t.get? p = none := get?_eq_none_iff.mpr (Nat.le_of_not_lt hp)
  rw [Child, members, hnone] at h
  exact List.not_mem_nil h

theorem Inside.get? (h : t.Inside) (hc : t.Child p c) : ∃ m, t.get? c = some m :=
  exists_get? (h p c hc)

/-- What stands below a node of the tree is a node of the tree. -/
theorem Inside.below (h : t.Inside) (hp : p < t.size) (hc : t.Below p c) : c < t.size := by
  induction hc with
  | refl => exact hp
  | tail _ hchild _ => exact h _ _ hchild

/-! ### Going down -/

/-- Children that come later than their parents do not lead back. -/
theorem acyclic_of_lt (h : ∀ p c : Nat, t.Child p c → p < c) : t.Acyclic := by
  have hlt {p c : Nat} (hc : Relation.TransGen t.Child p c) : p < c := by
    induction hc with
    | single hc => exact h _ _ hc
    | tail _ hc ih => exact Nat.lt_trans ih (h _ _ hc)
  intro id _ hcycle
  exact Nat.lt_irrefl id (hlt hcycle)

/-- A way that leads on from no more than the nodes of a tree comes to an end if it meets none of
them twice. -/
theorem acc_of_irrefl {R : NodeId → NodeId → Prop} (hfrom : ∀ p c, R p c → p < t.size)
    (h : ∀ p, Relation.ReflTransGen R id p → ¬ Relation.TransGen R p p) :
    Acc (fun c p => R p c) id := by
  let under : Fin t.size → Fin t.size → Prop := fun c p =>
    Relation.ReflTransGen R id p ∧ Relation.TransGen R p c
  have htrans : IsTrans (Fin t.size) under := by
    refine ⟨?_⟩
    rintro a b c ⟨-, hba⟩ ⟨hc, hcb⟩
    exact ⟨hc, hcb.trans hba⟩
  have hirrefl : Std.Irrefl under := by
    refine ⟨?_⟩
    rintro a ⟨ha, hcycle⟩
    exact h a ha hcycle
  have hwf : WellFounded under := Finite.wellFounded_of_trans_of_irrefl under
  have hout (p : NodeId) (hp : ¬ p < t.size) : Acc (fun c p => R p c) p :=
    ⟨_, fun c hc => absurd (hfrom p c hc) hp⟩
  have key : ∀ i : Fin t.size, Relation.ReflTransGen R id i →
      Acc (fun c p => R p c) (i : NodeId) := by
    intro i
    induction i using hwf.induction with
    | _ i ih =>
      intro hi
      refine ⟨_, ?_⟩
      intro c hc
      by_cases hlt : c < t.size
      · exact ih ⟨c, hlt⟩ ⟨hi, .single hc⟩ (hi.tail hc)
      · exact hout c hlt
  by_cases hlt : id < t.size
  · exact key ⟨id, hlt⟩ .refl
  · exact hout id hlt

/-- Going down comes to an end where no node of the document stands below itself. -/
theorem Acyclic.acc (h : t.Acyclic) (hid : t.Below root id) : Acc (fun c p => t.Child p c) id :=
  acc_of_irrefl (fun _ _ hc => hc.lt_size) fun p hp => h p (hid.trans hp)

/-! ### Flattening -/

theorem Flattens.members (h : t.Flattens t') : t'.members = t.members := by
  funext id
  cases hn : t'.get? id with
  | none =>
    have hnone : t.get? id = none := by
      rw [get?_eq_none_iff, ← h.size, ← get?_eq_none_iff]
      exact hn
    rw [Tree.members, Tree.members, hn, hnone]
  | some n' =>
    obtain ⟨n, hn₀, hf⟩ := h.node id n' hn
    rw [members_eq hn, members_eq hn₀, hf.children]

theorem Flattens.child (h : t.Flattens t') : t'.Child = t.Child := by
  funext p c
  rw [Child, Child, h.members]

theorem Flattens.below (h : t.Flattens t') : t'.Below = t.Below := by
  rw [Below, Below, h.child]

theorem Inside.flattens (hin : t.Inside) (h : t.Flattens t') : t'.Inside := by
  intro p c hc
  rw [h.child] at hc
  rw [h.size]
  exact hin p c hc

theorem Acyclic.flattens (hac : t.Acyclic) (h : t.Flattens t') : t'.Acyclic := by
  intro id hid
  rw [h.below] at hid
  rw [h.child]
  exact hac id hid

end Tree

end TaggedYaml
