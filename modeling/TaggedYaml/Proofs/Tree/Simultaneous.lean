import TaggedYaml.Proofs.Tree.Unshared

/-!
# Simultaneous — flattening reads the tree as it was

The walk changes the tree that it reads.  Where each node has one place, a node is met before its
children, so nothing that is read was changed before: the result is that of changing all nodes of the
document at once (`Settings.flatten_simultaneous`).  Nodes that do not stand below the document may
lead round; they are not met and stay as they are.
-/

namespace TaggedYaml

open Relation (ReflTransGen)

/-- A text spelled out: the tag, what the node says itself, and what its children say. -/
theorem Node.spelledOut_eq (n : Node) {arguments : List String}
    (h : arguments.length = n.children.size) :
    n.spelledOut arguments = n.tag ++ (if n.value = "" then "" else " " ++ n.value) ++
      (if n.children = #[] then "" else " [" ++ String.intercalate ", " arguments ++ "]") := by
  have hempty : arguments.isEmpty = true ↔ n.children = #[] := by
    rw [List.isEmpty_iff, ← List.length_eq_zero_iff, h, Array.size_eq_zero_iff]
  rw [spelledOut]
  by_cases hv : n.value = ""
  · by_cases hc : n.children = #[]
    · simp [hv, hc, hempty.mpr hc]
    · have ha : ¬ arguments.isEmpty = true := fun ha => hc (hempty.mp ha)
      simp only [hv, hc, ha, beq_self_eq_true, if_true, if_false, Bool.false_eq_true,
        String.append_empty, String.append_assoc]
  · have hb : (n.value == "") = false := by simpa using hv
    by_cases hc : n.children = #[]
    · simp [hv, hc, hempty.mpr hc, hb, String.append_assoc]
    · have ha : ¬ arguments.isEmpty = true := fun ha => hc (hempty.mp ha)
      simp only [hv, hc, ha, hb, if_false, Bool.false_eq_true, String.append_assoc]

namespace Tree

variable {isExtension : String → Bool} {t : Tree} {id : NodeId}

/-- What does not stand below the document stays as it is. -/
theorem get?_flatten_of_not_below (hin : t.Inside) (hid : ¬ t.Below root id) :
    (t.flatten isExtension).tree.get? id = t.get? id := by
  refine get?_flattenList_of_not_mem hin ?_ ?_
  · intro x hx
    exact hin.below t.size_pos ((mem_preorder hin).mp hx)
  · intro hmem
    exact hid ((mem_preorder hin).mp hmem)

end Tree

namespace Settings

/-- Where the document is no child and every other node is a child at one place, flattening ends, and
by the plain walk too.  A node of the document with an extension tag is then a string of the tag, of
what the node said, and of what its children said in the tree as it was; all else of it stays, and so
do all other nodes. -/
theorem flatten_simultaneous (s : Settings) {t : Tree} (howned : t.Owned) :
    ∃ t' count, s.flatten t = ⟨t', count, none⟩ ∧
      ReflTransGen (Visit.Step s.isExtensionTag) ⟨[Tree.root], t, 0⟩ ⟨[], t', count⟩ ∧
      t'.size = t.size ∧
      ∀ id n, t.get? id = some n → ∃ texts,
        List.Forall₂ (fun c text => ∃ m, t.get? c = some m ∧ m.value = text) n.children.toList texts ∧
        (t.Below Tree.root id → s.isExtensionTag n.tag = true →
          t'.get? id = some { n with
            kind := .scalar
            tag := "!!str"
            style := .single
            value := n.tag ++ (if n.value = "" then "" else " " ++ n.value) ++
              (if n.children = #[] then "" else " [" ++ String.intercalate ", " texts ++ "]") }) ∧
        (¬ (t.Below Tree.root id ∧ s.isExtensionTag n.tag = true) → t'.get? id = some n) := by
  have hin := howned.inside
  have hone := howned.unshared
  have hac := hone.acyclic howned.not_child_root
  have hflat := Tree.flattens_flatten t s.isExtensionTag
  refine ⟨_, _, s.flatten_eq hin, Tree.visits_flatten rfl hin hac, hflat.size, ?_⟩
  intro id n hn
  have hbelow (hid : t.Below Tree.root id) :
      (s.flatten t).tree.get? id = some (t.flattened s.isExtensionTag n) := by
    rw [flatten, Tree.get?_flatten_of_below hin hone howned.not_child_root hid, hn, Option.map_some]
  have htexts := hin.arguments hn
  refine ⟨t.arguments n, htexts, ?_, ?_⟩
  · intro hid htag
    have hlength : (t.arguments n).length = n.children.size :=
      htexts.length_eq.symm.trans Array.length_toList
    rw [hbelow hid, Tree.flattened_of_extension htag, Node.flatten, n.spelledOut_eq hlength]
  · intro hnot
    by_cases hid : t.Below Tree.root id
    · have htag : s.isExtensionTag n.tag = false := by
        rw [not_and] at hnot
        simpa using hnot hid
      rw [hbelow hid, Tree.flattened_of_not htag]
    · exact (Tree.get?_flatten_of_not_below hin hid).trans hn

/-- Tags are nested, and two nodes with tags lead round apart from the document. -/
theorem flatten_simultaneous_nested :
    let t : Tree := ⟨#[{ kind := .document, children := #[1] },
      { kind := .sequence, tag := "!Find", children := #[2, 3] }, { kind := .scalar, value := "a" },
      { kind := .mapping, tag := "!KeyOf", value := "b", anchor := some "x", children := #[4] },
      { kind := .scalar, tag := "!Env", value := "c" },
      { kind := .sequence, tag := "!Find", children := #[6] },
      { kind := .sequence, tag := "!Find", children := #[5] }], by decide⟩
    t.Owned ∧ ∃ t' count, default.flatten t = ⟨t', count, none⟩ ∧
      t'.get? 1 = some
        { kind := .scalar, tag := "!!str", value := "!Find [a, b]", children := #[2, 3],
          style := .single } ∧
      t'.get? 3 = some
        { kind := .scalar, tag := "!!str", value := "!KeyOf b [c]", anchor := some "x",
          children := #[4], style := .single } ∧
      t'.get? 4 = some { kind := .scalar, tag := "!!str", value := "!Env c", style := .single } ∧
      t'.get? 5 = t.get? 5 := by
  intro t
  have howned : t.Owned := by
    rw [Tree.Owned]
    decide
  have hmembers : 1 ∈ t.members Tree.root ∧ 3 ∈ t.members 1 ∧ 4 ∈ t.members 3 := by decide
  have h1 : t.Below Tree.root 1 := .single hmembers.1
  have h3 : t.Below Tree.root 3 := .tail h1 hmembers.2.1
  have h4 : t.Below Tree.root 4 := .tail h3 hmembers.2.2
  have hapart : ¬ t.Below Tree.root 5 := by
    have hclosed : ∀ p < 5, ∀ c ∈ t.members p, c < 5 := by decide
    have hlt {id : NodeId} (hid : t.Below Tree.root id) : id < 5 := by
      induction hid with
      | refl => decide
      | tail _ hc ih => exact hclosed _ ih _ hc
    exact fun h => absurd (hlt h) (by decide)
  obtain ⟨t', count, hflat, -, -, hnodes⟩ := default.flatten_simultaneous howned
  refine ⟨howned, t', count, hflat, ?_, ?_, ?_, ?_⟩
  · obtain ⟨texts, htexts, hget, -⟩ := hnodes 1 _ rfl
    have hn : t.get? 1 = some _ := rfl
    obtain rfl := t.rightUnique_text.forall₂ htexts (howned.inside.arguments hn)
    exact (hget h1 (by decide +kernel)).trans (by decide +kernel)
  · obtain ⟨texts, htexts, hget, -⟩ := hnodes 3 _ rfl
    have hn : t.get? 3 = some _ := rfl
    obtain rfl := t.rightUnique_text.forall₂ htexts (howned.inside.arguments hn)
    exact (hget h3 (by decide +kernel)).trans (by decide +kernel)
  · obtain ⟨texts, htexts, hget, -⟩ := hnodes 4 _ rfl
    have hn : t.get? 4 = some _ := rfl
    obtain rfl := t.rightUnique_text.forall₂ htexts (howned.inside.arguments hn)
    exact (hget h4 (by decide +kernel)).trans (by decide +kernel)
  · obtain ⟨-, -, -, hget⟩ := hnodes 5 _ rfl
    exact hget fun h => hapart h.1

end Settings

end TaggedYaml
