import Mathlib.Algebra.BigOperators.Group.Finset.Basic
import Mathlib.Algebra.GroupWithZero.Nat
import TaggedYaml.Proofs.Tree.Below

/-!
# Preorder — the order in which nodes are visited

`Lists` says which nodes a walk with a stack meets for the first time, in their order; nothing is said
of rounds or of marks.  The marks of `Tree.preorder` are the numbers that were listed, and its rounds
suffice, since the children that were not yet put on the stack become fewer (`lists_preorder`).  So
the list names every node below the document once, and no other.
-/

namespace TaggedYaml

namespace Tree

variable {t : Tree} {id : NodeId} {seen stack listed : List NodeId}

/-- From a stack, first number first, some numbers are listed; the children of a number that is
listed come before the rest of the stack, and one that was seen is passed. -/
inductive Lists (t : Tree) : List NodeId → List NodeId → List NodeId → Prop where
  | done (seen : List NodeId) : Lists t seen [] []
  | old {seen stack listed : List NodeId} {id : NodeId} (hid : id ∈ seen)
      (hrest : Lists t seen stack listed) : Lists t seen (id :: stack) listed
  | new {seen stack listed : List NodeId} {id : NodeId} (hid : id ∉ seen)
      (hrest : Lists t (id :: seen) (t.members id ++ stack) listed) :
      Lists t seen (id :: stack) (id :: listed)

/-- What is listed was not seen before, and is listed once. -/
theorem Lists.nodup (h : t.Lists seen stack listed) :
    listed.Nodup ∧ ∀ id ∈ listed, id ∉ seen := by
  induction h with
  | done => simp
  | old _ _ ih => exact ih
  | new hid _ ih =>
    obtain ⟨hnodup, hfresh⟩ := ih
    refine ⟨List.nodup_cons.mpr ⟨?_, hnodup⟩, ?_⟩
    · intro hmem
      exact hfresh _ hmem List.mem_cons_self
    · intro x hx
      rcases List.mem_cons.mp hx with rfl | hx
      · exact hid
      · intro hseen
        exact hfresh x hx (List.mem_cons_of_mem _ hseen)

/-- What is listed stands below the stack. -/
theorem Lists.reached (h : t.Lists seen stack listed) : ∀ y ∈ listed, ∃ x ∈ stack, t.Below x y := by
  induction h with
  | done => simp
  | old _ _ ih =>
    intro y hy
    obtain ⟨x, hx, hxy⟩ := ih y hy
    exact ⟨x, List.mem_cons_of_mem _ hx, hxy⟩
  | @new seen stack listed id hid _ ih =>
    intro y hy
    rcases List.mem_cons.mp hy with rfl | hy
    · exact ⟨y, List.mem_cons_self, .refl⟩
    · obtain ⟨x, hx, hxy⟩ := ih y hy
      rcases List.mem_append.mp hx with hx | hx
      · exact ⟨id, List.mem_cons_self, .head hx hxy⟩
      · exact ⟨x, List.mem_cons_of_mem _ hx, hxy⟩

/-- The stack is listed, and so are the children of what is listed. -/
theorem Lists.closed (h : t.Lists seen stack listed) : (∀ x ∈ stack, x ∈ seen ∨ x ∈ listed) ∧
    ∀ y ∈ listed, ∀ c, t.Child y c → c ∈ seen ∨ c ∈ listed := by
  induction h with
  | done => simp
  | old hid _ ih =>
    refine ⟨?_, ih.2⟩
    intro x hx
    rcases List.mem_cons.mp hx with rfl | hx
    · exact .inl hid
    · exact ih.1 x hx
  | @new seen stack listed id hid _ ih =>
    have hmove {x : NodeId} (hx : x ∈ id :: seen ∨ x ∈ listed) : x ∈ seen ∨ x ∈ id :: listed := by
      rcases hx with hx | hx
      · rcases List.mem_cons.mp hx with rfl | hx
        · exact .inr List.mem_cons_self
        · exact .inl hx
      · exact .inr (List.mem_cons_of_mem _ hx)
    refine ⟨?_, ?_⟩
    · intro x hx
      rcases List.mem_cons.mp hx with rfl | hx
      · exact .inr List.mem_cons_self
      · exact hmove (ih.1 x (List.mem_append_right _ hx))
    · intro y hy c hc
      rcases List.mem_cons.mp hy with rfl | hy
      · exact hmove (ih.1 c (List.mem_append_left _ hc))
      · exact hmove (ih.2 y hy c hc)

/-! ### Rounds -/

/-- The children of a node that is not marked. -/
def unmarkedAt (t : Tree) (marks : Array Bool) (id : NodeId) : Nat :=
  if marks[id]? = some true then 0 else (t.members id).length

/-- The children of the nodes that are not marked. -/
def unmarked (t : Tree) (marks : Array Bool) : Nat :=
  ∑ id ∈ Finset.range t.size, t.unmarkedAt marks id

/-- A mark takes the children of its node away. -/
theorem unmarked_set {marks : Array Bool} (hsize : marks.size = t.size) (hid : id < t.size)
    (hmark : marks[id]? ≠ some true) :
    t.unmarked (marks.setIfInBounds id true) + (t.members id).length = t.unmarked marks := by
  have hmem : id ∈ Finset.range t.size := Finset.mem_range.mpr hid
  have hrest : ∀ x ∈ (Finset.range t.size).erase id,
      t.unmarkedAt (marks.setIfInBounds id true) x = t.unmarkedAt marks x := by
    intro x hx
    have hne : id ≠ x := (Finset.ne_of_mem_erase hx).symm
    rw [unmarkedAt, unmarkedAt, Array.getElem?_setIfInBounds_ne hne]
  have hset : (marks.setIfInBounds id true)[id]? = some true :=
    Array.getElem?_setIfInBounds_self_of_lt (hsize ▸ hid)
  have hself : t.unmarkedAt (marks.setIfInBounds id true) id = 0 := if_pos hset
  have hold : t.unmarkedAt marks id = (t.members id).length := if_neg hmark
  have hnew := Finset.add_sum_erase _ (t.unmarkedAt (marks.setIfInBounds id true)) hmem
  have hall := Finset.add_sum_erase _ (t.unmarkedAt marks) hmem
  rw [Finset.sum_congr rfl hrest, hself] at hnew
  rw [hold] at hall
  rw [unmarked, unmarked, ← hnew, ← hall, Nat.zero_add, Nat.add_comm]

theorem sum_range_getD {α : Type} (f : α → Nat) (xs : List α) :
    ∑ i ∈ Finset.range xs.length, (xs[i]?.map f).getD 0 = (xs.map f).sum := by
  induction xs with
  | nil => rfl
  | cons x xs ih =>
    rw [List.length_cons, Finset.sum_range_succ', List.map_cons, List.sum_cons, ← ih, Nat.add_comm]
    rfl

/-- Without marks all children are left. -/
theorem unmarked_replicate (t : Tree) :
    t.unmarked (Array.replicate t.size false) = t.edgeCount := by
  have hcount : t.edgeCount = (t.nodes.toList.map (·.children.size)).sum := by
    rw [edgeCount, List.sum_eq_foldr, List.foldr_map]
  rw [hcount, ← sum_range_getD, unmarked]
  refine Finset.sum_congr (by simp [size]) ?_
  intro id hid
  have hlt : id < t.size := Finset.mem_range.mp hid
  have hmark : (Array.replicate t.size false)[id]? ≠ some true := by
    simp [hlt]
  obtain ⟨n, hn⟩ := exists_get? hlt
  have hget : t.nodes.toList[id]? = some n := by
    rw [Array.getElem?_toList]
    exact hn
  rw [unmarkedAt, if_neg hmark, members_eq hn, hget]
  simp

/-- The loop lists what is to be listed, if it has rounds for the stack and for the children that are
not marked. -/
theorem lists_preorderLoop (hin : t.Inside) : ∀ (fuel : Nat) {stack : List NodeId}
    {marks : Array Bool} {seen : List NodeId} (out : List NodeId), stack.length + t.unmarked marks ≤ fuel →
    marks.size = t.size → (∀ id < t.size, marks[id]? = some true ↔ id ∈ seen) →
    (∀ id ∈ stack, id < t.size) →
    ∃ listed, t.preorderLoop fuel stack marks out = out.reverse ++ listed ∧
      t.Lists seen stack listed
  | 0, stack, _, seen, _, hfuel, _, _, _ => by
    have hnil : stack = [] := List.eq_nil_of_length_eq_zero (by omega)
    subst hnil
    exact ⟨[], (List.append_nil _).symm, .done seen⟩
  | _ + 1, [], _, seen, _, _, _, _, _ => ⟨[], (List.append_nil _).symm, .done seen⟩
  | fuel + 1, id :: stack, marks, seen, out, hfuel, hsize, hmarks, hstack => by
    have hid : id < t.size := hstack id List.mem_cons_self
    have hrest : ∀ x ∈ stack, x < t.size := fun x hx => hstack x (List.mem_cons_of_mem _ hx)
    rw [List.length_cons] at hfuel
    by_cases hmark : marks[id]? = some true
    · obtain ⟨listed, hloop, hlists⟩ :=
        lists_preorderLoop hin fuel out (by omega) hsize hmarks hrest
      refine ⟨listed, ?_, .old ((hmarks id hid).mp hmark) hlists⟩
      rw [preorderLoop, if_pos (by simpa using hmark)]
      exact hloop
    · -- The stack grows by the children of the node, and these no longer count as unmarked.
      have hset := unmarked_set hsize hid hmark
      have hfuel' : (t.members id ++ stack).length + t.unmarked (marks.setIfInBounds id true) ≤
          fuel := by
        rw [List.length_append]
        omega
      have hmarks' : ∀ x < t.size,
          (marks.setIfInBounds id true)[x]? = some true ↔ x ∈ id :: seen := by
        intro x hx
        rw [List.mem_cons]
        by_cases hxid : id = x
        · subst hxid
          simp [hsize, hx]
        · rw [Array.getElem?_setIfInBounds_ne hxid, hmarks x hx]
          exact ⟨.inr, fun h => h.resolve_left (Ne.symm hxid)⟩
      have hstack' : ∀ x ∈ t.members id ++ stack, x < t.size := by
        intro x hx
        rcases List.mem_append.mp hx with hx | hx
        · exact hin id x hx
        · exact hrest x hx
      obtain ⟨listed, hloop, hlists⟩ := lists_preorderLoop hin fuel (id :: out) hfuel'
        (by simpa using hsize) hmarks' hstack'
      refine ⟨id :: listed, ?_, .new (fun h => hmark ((hmarks id hid).mpr h)) hlists⟩
      rw [preorderLoop, if_neg (by simpa using hmark)]
      exact hloop.trans (by simp)

theorem lists_preorder (hin : t.Inside) : t.Lists [] [root] t.preorder := by
  have hfuel : [root].length + t.unmarked (Array.replicate t.size false) ≤ t.edgeCount + 1 := by
    rw [unmarked_replicate, List.length_singleton, Nat.add_comm]
  have hmarks : ∀ id < t.size,
      (Array.replicate t.size false)[id]? = some true ↔ id ∈ ([] : List NodeId) := by
    intro id hid
    simp [hid]
  have hstack : ∀ id ∈ [root], id < t.size := by
    intro id hid
    rw [List.mem_singleton.mp hid]
    exact t.size_pos
  obtain ⟨listed, hloop, hlists⟩ :=
    lists_preorderLoop hin _ [] hfuel Array.size_replicate hmarks hstack
  rw [preorder, hloop]
  exact hlists

/-! ### Nodes -/

theorem nodup_preorder (hin : t.Inside) : t.preorder.Nodup := (lists_preorder hin).nodup.1

/-- The nodes of the list are those below the document. -/
theorem mem_preorder (hin : t.Inside) : id ∈ t.preorder ↔ t.Below root id := by
  have hlists := lists_preorder hin
  constructor
  · intro hid
    obtain ⟨x, hx, hbelow⟩ := hlists.reached id hid
    rwa [List.mem_singleton.mp hx] at hbelow
  · intro hid
    induction hid with
    | refl => exact (hlists.closed.1 root (List.mem_singleton_self root)).resolve_left List.not_mem_nil
    | tail _ hchild ih => exact (hlists.closed.2 _ ih _ hchild).resolve_left List.not_mem_nil

end Tree

end TaggedYaml
