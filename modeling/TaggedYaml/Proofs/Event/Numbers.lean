import TaggedYaml.Proofs.Event.Anchors
import TaggedYaml.Proofs.Tree.Steps

/-!
# Numbers — what events say by their places

Anchors are numbered in their order and aliases repeat a number that was given (`Event.Numbered`);
the nesting of events is that of the nodes that they begin and end.
-/

namespace TaggedYaml

namespace Event

/-- An anchor has the next number, and an alias one that was given; `known` anchors were given. -/
def FitsNumbers (known : Nat) : Event → Prop
  | .alias a => 1 ≤ a.number ∧ a.number ≤ known
  | e => ∀ a, e.anchor? = some a → a.number = known + 1

theorem number_of_fitsNumbers {known : Nat} {e : Event} {c : Anchor} (h : e.FitsNumbers known)
    (hc : e.anchor? = some c) : c.number = known + 1 := by
  cases e with
  | «alias» a => cases hc
  | _ => exact h c hc

/-- Events with anchors that are numbered in their order, behind `known` others. -/
def Numbered (known : Nat) : List Event → Prop
  | [] => True
  | e :: rest => e.FitsNumbers known ∧ Numbered (known + e.anchor?.toList.length) rest

variable {known depth : Nat} {xs ys es : List Event}

theorem numbered_append : Numbered known (xs ++ ys) ↔
    Numbered known xs ∧ Numbered (known + (anchors xs).length) ys := by
  induction xs generalizing known with
  | nil => simp [Numbered, anchors]
  | cons e rest ih =>
    rw [List.cons_append, Numbered, Numbered, ih, anchors_cons, List.length_append, and_assoc,
      Nat.add_assoc]

theorem nodeCount_append : nodeCount (xs ++ ys) = nodeCount xs + nodeCount ys := by
  simp [nodeCount]

theorem nodeCount_cons (e : Event) (es : List Event) :
    nodeCount (e :: es) = (if e.isNode then 1 else 0) + nodeCount es := by
  rw [nodeCount, nodeCount, List.countP_cons, Nat.add_comm]

theorem boundFrom_append {next : NodeId} {bound : List (Nat × NodeId)} :
    boundFrom next bound (xs ++ ys) =
      boundFrom (next + nodeCount xs) (boundFrom next bound xs) ys := by
  induction xs generalizing next bound with
  | nil => rfl
  | cons e rest ih =>
    rw [List.cons_append, boundFrom, boundFrom, ih, nodeCount_cons, ← Nat.add_assoc]
    congr 1
    split <;> rfl

theorem mem_boundFrom {next : NodeId} {bound : List (Nat × NodeId)} {p : Nat × NodeId}
    (h : p ∈ bound) : p ∈ boundFrom next bound es := by
  induction es generalizing next bound with
  | nil => exact h
  | cons e rest ih => exact ih (List.mem_append_right _ h)

mutual

/-- Behind a node the nesting is what it was. -/
theorem nesting_node : ∀ {es : List Event}, IsNode es → ∀ (depth : Nat) (ys : List Event),
    nesting depth (es ++ ys) = max (nesting depth es) (nesting depth ys)
  | _, .scalar .., depth, ys => by simp [nesting]
  | _, .alias _, depth, ys => by simp [nesting]
  | _, .sequence tag anchor hitems, depth, ys => by
    rw [List.cons_append, List.append_assoc, nesting, nesting, nesting_items hitems,
      nesting_items hitems, List.singleton_append, nesting, nesting, nesting]
    simp [Nat.max_assoc]
  | _, .mapping tag anchor hentries, depth, ys => by
    rw [List.cons_append, List.append_assoc, nesting, nesting, nesting_entries hentries,
      nesting_entries hentries, List.singleton_append, nesting, nesting, nesting]
    simp [Nat.max_assoc]

theorem nesting_items : ∀ {es : List Event}, IsItems es → ∀ (depth : Nat) (ys : List Event),
    nesting depth (es ++ ys) = max (nesting depth es) (nesting depth ys)
  | _, .nil, depth, ys => by simp [nesting]
  | _, .cons hnode hrest, depth, ys => by
    rw [List.append_assoc, nesting_node hnode, nesting_node hnode, nesting_items hrest,
      Nat.max_assoc]

theorem nesting_entries : ∀ {es : List Event}, IsEntries es → ∀ (depth : Nat) (ys : List Event),
    nesting depth (es ++ ys) = max (nesting depth es) (nesting depth ys)
  | _, .nil, depth, ys => by simp [nesting]
  | _, .cons hkey hvalue hrest, depth, ys => by
    rw [List.append_assoc, List.append_assoc, List.append_assoc, nesting_node hkey,
      nesting_node hvalue, nesting_entries hrest, nesting_node hkey, nesting_node hvalue]
    simp [Nat.max_assoc]

end

/-! ### Numbers of a reader -/

/-- The numbers of anchors that were met are those from 1 on. -/
theorem number_le_of_mem {past : List Event} (h : Bound past) {a : Anchor} (ha : a ∈ anchors past) :
    1 ≤ a.number ∧ a.number ≤ (anchors past).length := by
  obtain ⟨place, hnumber, hplace⟩ := getElem?_anchors h ha
  obtain ⟨hlt, -⟩ := List.getElem?_eq_some_iff.mp hplace
  rw [List.length_reverse] at hlt
  omega

theorem fitsNumbers_of_fits {past : List Event} {e : Event} (h : Bound past)
    (hf : e.Fits (anchors past)) : e.FitsNumbers (anchors past).length := by
  cases e with
  | «alias» a => exact number_le_of_mem h (List.mem_of_find?_eq_some hf)
  | _ => exact hf

theorem bound_of_append {past : List Event} : Bound (xs ++ past) → Bound past := by
  intro h
  induction xs with
  | nil => exact h
  | cons e rest ih => exact ih h.2

/-- What a reader binds is numbered in order. -/
theorem numbered_of_bound {past : List Event} (h : Bound (es.reverse ++ past)) :
    Numbered (anchors past).length es := by
  induction es generalizing past with
  | nil => trivial
  | cons e rest ih =>
    rw [List.reverse_cons, List.append_assoc, List.singleton_append] at h
    have hpast : Bound (e :: past) := bound_of_append h
    have hrest := ih h
    rw [anchors_cons, List.length_append, Nat.add_comm] at hrest
    exact ⟨fitsNumbers_of_fits hpast.2 hpast.1, hrest⟩

end Event

end TaggedYaml
