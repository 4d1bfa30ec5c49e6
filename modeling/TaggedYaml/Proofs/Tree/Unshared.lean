import TaggedYaml.Proofs.Tree.Ceilings
import TaggedYaml.Proofs.Tree.Visits

/-!
# Unshared — flattening where no child is shared

Where a node has one parent at most, the walk comes to it after its parent (`Lists.parents_first`).
So a node is flattened before its children are, and what it spells out are the texts that these had
at first (`get?_flatten_of_below`).  Trees in which each node has one place are of this kind
(`Owned.unshared`).  A tree that was built is one of them, and all of it stands below the document
(`Rooted.get?_flatten`).
-/

namespace TaggedYaml

namespace Tree

variable {isExtension : String → Bool} {t : Tree} {id : NodeId} {n : Node} {count : Nat}
  {seen stack listed ids : List NodeId}

/-- No node is a child of two nodes. -/
def Unshared (t : Tree) : Prop := ∀ p q c, t.Child p c → t.Child q c → p = q

/-- A node after flattening, if its children have the texts that they have in a tree. -/
def flattened (t : Tree) (isExtension : String → Bool) (n : Node) : Node :=
  if isExtension n.tag then n.flatten (t.arguments n) else n

theorem flattened_of_extension (htag : isExtension n.tag = true) :
    t.flattened isExtension n = n.flatten (t.arguments n) := if_pos htag

theorem flattened_of_not (htag : isExtension n.tag = false) : t.flattened isExtension n = n := by
  rw [flattened, htag]
  rfl

/-- What is listed later has no children among what was listed. -/
theorem Lists.parents_first (h : t.Lists seen stack listed) (hone : t.Unshared)
    (hroot : ∀ p, ¬ t.Child p root)
    (hstack : ∀ x ∈ stack, x = root ∨ ∃ y ∈ seen, t.Child y x) :
    listed.Pairwise fun x y => ¬ t.Child y x := by
  induction h with
  | done => exact .nil
  | old _ _ ih => exact ih fun x hx => hstack x (List.mem_cons_of_mem _ hx)
  | @new seen stack listed id hid hrest ih =>
    rw [List.forall_mem_cons] at hstack
    have hstack' : ∀ x ∈ t.members id ++ stack, x = root ∨ ∃ y ∈ id :: seen, t.Child y x := by
      intro x hx
      rcases List.mem_append.mp hx with hx | hx
      · exact .inr ⟨id, List.mem_cons_self, hx⟩
      · rcases hstack.2 x hx with rfl | ⟨y, hy, hchild⟩
        · exact .inl rfl
        · exact .inr ⟨y, List.mem_cons_of_mem _ hy, hchild⟩
    refine List.pairwise_cons.mpr ⟨?_, ih hstack'⟩
    intro y hy hchild
    rcases hstack.1 with rfl | ⟨z, hz, hchild'⟩
    · exact hroot y hchild
    · obtain rfl := hone z y id hchild' hchild
      exact hrest.nodup.2 z hy (List.mem_cons_of_mem _ hz)

theorem preorder_parents_first (hin : t.Inside) (hone : t.Unshared)
    (hroot : ∀ p, ¬ t.Child p root) : t.preorder.Pairwise fun x y => ¬ t.Child y x := by
  refine (lists_preorder hin).parents_first hone hroot ?_
  intro x hx
  exact .inl (List.mem_singleton.mp hx)

theorem arguments_modify_of_not_mem (hid : id ∉ n.children.toList) (f : Node → Node) :
    (t.modify id f).arguments n = t.arguments n := by
  refine List.filterMap_congr ?_
  intro c hc
  rw [get?_modify_of_ne]
  rintro rfl
  exact hid hc

/-- Where parents are listed first, the texts of children are those that they had before. -/
theorem get?_flattenList (hin : t.Inside) (hsize : ∀ id ∈ ids, id < t.size) (hnodup : ids.Nodup)
    (hfirst : ids.Pairwise fun x y => ¬ t.Child y x) (hid : id ∈ ids) (count : Nat) :
    (flattenList isExtension ids t count).tree.get? id =
      (t.get? id).map (t.flattened isExtension) := by
  induction ids generalizing t count with
  | nil => cases hid
  | cons x ids ih =>
    rw [List.forall_mem_cons] at hsize
    obtain ⟨hx, hnodup⟩ := List.nodup_cons.mp hnodup
    obtain ⟨hlater, hfirst⟩ := List.pairwise_cons.mp hfirst
    obtain ⟨n, hn⟩ := exists_get? hsize.1
    by_cases htag : isExtension n.tag = true
    · have hflat := flattens_modify t x (t.arguments n)
      have hin' := hin.flattens hflat
      have hsize' : ∀ y ∈ ids, y < (t.modify x (·.flatten (t.arguments n))).size := by
        rw [size_modify]
        exact hsize.2
      rw [flattenList_flatten hin hn htag]
      rcases List.mem_cons.mp hid with rfl | hid
      · rw [get?_flattenList_of_not_mem hin' hsize' hx, get?_modify_self, hn, Option.map_some,
          Option.map_some, flattened_of_extension htag]
      · have hne : x ≠ id := by
          rintro rfl
          exact hx hid
        have hfirst' : ids.Pairwise fun y z =>
            ¬ (t.modify x (·.flatten (t.arguments n))).Child z y := by
          rw [hflat.child]
          exact hfirst
        rw [ih hin' hsize' hnodup hfirst' hid, get?_modify_of_ne t hne]
        cases hm : t.get? id with
        | none => rfl
        | some m =>
          have hnot : x ∉ m.children.toList := fun hc => hlater id hid (child_of_mem hm hc)
          rw [Option.map_some, Option.map_some, flattened, flattened, arguments_modify_of_not_mem hnot]
    · have htag : isExtension n.tag = false := by simpa using htag
      rw [flattenList_pass hn htag]
      rcases List.mem_cons.mp hid with rfl | hid
      · rw [get?_flattenList_of_not_mem hin hsize.2 hx, hn, Option.map_some, flattened_of_not htag]
      · exact ih hin hsize.2 hnodup hfirst hid count

/-- A node of the document spells out the texts that its children had at first. -/
theorem get?_flatten_of_below (hin : t.Inside) (hone : t.Unshared) (hroot : ∀ p, ¬ t.Child p root)
    (hid : t.Below root id) : (t.flatten isExtension).tree.get? id =
      (t.get? id).map (t.flattened isExtension) := by
  refine get?_flattenList hin ?_ (nodup_preorder hin) (preorder_parents_first hin hone hroot)
    ((mem_preorder hin).mpr hid) 0
  intro x hx
  exact hin.below t.size_pos ((mem_preorder hin).mp hx)

/-! ### Trees in which each node has its place -/

/-- The document is no child, and every other node is a child at one place. -/
def Owned (t : Tree) : Prop := t.edges.Perm (List.range' 1 (t.size - 1))

theorem mem_edges {c : NodeId} : c ∈ t.edges ↔ ∃ p, t.Child p c := by
  rw [edges, List.mem_flatMap]
  constructor
  · rintro ⟨n, hn, hc⟩
    obtain ⟨p, hp⟩ := List.getElem?_of_mem hn
    rw [Array.getElem?_toList] at hp
    exact ⟨p, child_of_mem hp hc⟩
  · rintro ⟨p, hp⟩
    obtain ⟨n, hn⟩ := exists_get? hp.lt_size
    rw [Child, members_eq hn] at hp
    exact ⟨n, Array.mem_toList_iff.mpr (Array.mem_of_getElem? hn), hp⟩

theorem Owned.child_iff (h : t.Owned) {c : NodeId} :
    (∃ p, t.Child p c) ↔ c ≠ root ∧ c < t.size := by
  have hsize : 1 + (t.size - 1) = t.size := Nat.add_sub_cancel' t.size_pos
  rw [← mem_edges, h.mem_iff, List.mem_range'_1, hsize, Nat.one_le_iff_ne_zero]
  rfl

theorem Owned.inside (h : t.Owned) : t.Inside := fun p _ hc => (h.child_iff.mp ⟨p, hc⟩).2

theorem Owned.not_child_root (h : t.Owned) (p : NodeId) : ¬ t.Child p root :=
  fun hc => (h.child_iff.mp ⟨p, hc⟩).1 rfl

theorem Owned.unshared (h : t.Owned) : t.Unshared := by
  have hnodup : t.edges.Nodup := List.Perm.nodup (List.Perm.symm h) List.nodup_range'
  rw [edges, List.nodup_flatMap] at hnodup
  intro p q c hp hq
  obtain ⟨n, hn⟩ := exists_get? hp.lt_size
  obtain ⟨m, hm⟩ := exists_get? hq.lt_size
  obtain ⟨hplt, hpn⟩ := List.getElem?_eq_some_iff.mp ((Array.getElem?_toList ..).trans hn)
  obtain ⟨hqlt, hqm⟩ := List.getElem?_eq_some_iff.mp ((Array.getElem?_toList ..).trans hm)
  rw [Child, members_eq hn, ← hpn] at hp
  rw [Child, members_eq hm, ← hqm] at hq
  have hpairs := List.pairwise_iff_getElem.mp hnodup.2
  rcases Nat.lt_trichotomy p q with hlt | heq | hlt
  · exact absurd hq (hpairs p q hplt hqlt hlt hp)
  · exact heq
  · exact absurd hp (hpairs q p hqlt hplt hlt hq)

/-- From the document no way leads round: before the first node that is met again stands its only
parent, which would be met again too. -/
theorem Unshared.acyclic (hone : t.Unshared) (hroot : ∀ p, ¬ t.Child p root) : t.Acyclic := by
  intro id hid
  induction hid with
  | refl =>
    intro hcycle
    obtain ⟨p, -, hp⟩ := Relation.TransGen.tail'_iff.mp hcycle
    exact hroot p hp
  | @tail b c _ hbc ih =>
    intro hcycle
    obtain ⟨p, hcp, hpc⟩ := Relation.TransGen.tail'_iff.mp hcycle
    obtain rfl := hone p b c hpc hbc
    exact ih (.head' hbc hcp)

/-! ### Trees that were built -/

theorem Rooted.unshared (h : t.Rooted) : t.Unshared := Owned.unshared h.once

/-- All nodes stand below the document. -/
theorem Rooted.below (h : t.Rooted) (hid : id < t.size) : t.Below root id := by
  induction id using Nat.strong_induction_on with
  | _ id ih =>
    by_cases hroot : id = root
    · rw [hroot]
      exact .refl
    · obtain ⟨p, hc⟩ := (Owned.child_iff h.once).mpr ⟨hroot, hid⟩
      obtain ⟨n, hn⟩ := exists_get? hc.lt_size
      have hmem : id ∈ n.children.toList := members_eq hn ▸ hc
      have hlt := (h.forward p n id hn (Array.mem_toList_iff.mp hmem)).1
      exact .tail (ih p hlt hc.lt_size) hc

theorem Rooted.get?_flatten (h : t.Rooted) (isExtension : String → Bool) (id : NodeId) :
    (t.flatten isExtension).tree.get? id = (t.get? id).map (t.flattened isExtension) := by
  by_cases hid : id < t.size
  · exact get?_flatten_of_below h.inside h.unshared h.not_child_root (h.below hid)
  · have hsize := (flattens_flatten t isExtension).size
    rw [get?_eq_none_iff.mpr (Nat.le_of_not_lt hid),
      get?_eq_none_iff.mpr (hsize ▸ Nat.le_of_not_lt hid)]
    rfl

end Tree

end TaggedYaml
