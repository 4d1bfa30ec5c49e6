import TaggedYaml.Proofs.Shape.Written

/-!
# Contents — aliases and the document are passed

Four steps are enough to come to the content of a node (`content_steps`): an alias, the document, its
value that may be an alias, and what that one stands for.  Only where the value of the document leads
back to the document there is no content (`Endless`), whatever the number of steps.  So the value of
a node is that of the node it leads to (`valueAt_alias`, `valueAt_document`).
-/

namespace TaggedYaml

namespace Tree

variable {t : Tree} {id c r : NodeId} {n : Node} {e : Error}

/-- The value of the document is the document, or an alias of it. -/
def Endless (t : Tree) : Prop :=
  t.rootNode.kind = .document ∧ ∃ c, t.rootValue? = some c ∧ t.resolve? c = some root

theorem resolve?_of_ne_alias (hn : t.get? id = some n) (hk : n.kind ≠ .alias) :
    t.resolve? id = some id := by
  have hb : (n.kind == .alias) = false := by simpa using hk
  simp only [resolve?, follow, hn, hb, Bool.false_eq_true, if_false]

/-- What leads to the document is an alias, or the document. -/
theorem alias_or_root (hr : t.resolve? id = some root) :
    (∃ n, t.get? id = some n ∧ n.kind = .alias) ∨ id = root := by
  cases hn : t.get? id with
  | none =>
    rw [resolve?, follow, hn] at hr
    cases hr
  | some n =>
    by_cases ha : n.kind = .alias
    · exact .inl ⟨n, rfl, ha⟩
    · rw [resolve?_of_ne_alias hn ha] at hr
      exact .inr (Option.some.inj hr)

theorem aliased_of_none {name : String} (h : t.resolve? id = none) :
    t.aliased id name = .error (.unresolvedAlias name) := by
  rw [aliased, h]

/-! ### One step -/

theorem content_foreign (hn : t.get? id = none) (fuel : Nat) :
    t.content (fuel + 1) id = .error (.foreignNode id) := by
  rw [content, node, hn]
  rfl

theorem content_alias (hn : t.get? id = some n) (hk : n.kind = .alias) (fuel : Nat) :
    t.content (fuel + 1) id = (t.aliased id n.value).bind (t.content fuel) := by
  rw [content, bind_ok (node_eq_ok.mpr hn), hk]
  rfl

theorem content_nested (hn : t.get? id = some n) (hk : n.kind = .document) (hne : id ≠ root)
    (fuel : Nat) : t.content (fuel + 1) id = .error .nestedDocument := by
  have hb : (id != root) = true := by simpa using hne
  rw [content, bind_ok (node_eq_ok.mpr hn), hk]
  simp only [hb, if_true]
  rfl

theorem content_document (hk : t.rootNode.kind = .document) (fuel : Nat) :
    t.content (fuel + 1) root = t.rootValue?.elim (.ok .nothing) (t.content fuel) := by
  rw [content, bind_ok (node_eq_ok.mpr t.get?_root), hk, rootValue?]
  simp only [bne_self_eq_false, Bool.false_eq_true, if_false]
  cases t.rootNode.children[0]? <;> rfl

/-! ### Enough steps -/

/-- A node that is no alias and not the document is its own content, or has none. -/
theorem content_direct (hn : t.get? id = some n) (ha : n.kind ≠ .alias)
    (hd : n.kind = .document → id ≠ root) (j k : Nat) : t.content (j + 1) id = t.content (k + 1) id := by
  cases hk : n.kind with
  | «alias» => exact absurd hk ha
  | document => rw [content_nested hn hk (hd hk), content_nested hn hk (hd hk)]
  | scalar => rw [content_scalar hn hk, content_scalar hn hk]
  | sequence => rw [content_collection hn (.inl hk), content_collection hn (.inl hk)]
  | mapping => rw [content_collection hn (.inr hk), content_collection hn (.inr hk)]

theorem Endless.content (h : t.Endless) (fuel : Nat) : t.content fuel root = .error .endless ∧
    ∀ c, t.rootValue? = some c → t.content fuel c = .error .endless := by
  obtain ⟨hk, c, hv, hr⟩ := h
  rw [hv]
  simp only [Option.some.injEq, forall_eq']
  induction fuel with
  | zero => exact ⟨rfl, rfl⟩
  | succ fuel ih =>
    have hroot : t.content (fuel + 1) root = .error .endless := by
      rw [content_document hk, hv]
      exact ih.2
    refine ⟨hroot, ?_⟩
    rcases alias_or_root hr with ⟨n, hn, ha⟩ | rfl
    · rw [content_alias hn ha, aliased_eq_ok.mpr hr]
      exact ih.1
    · exact hroot

/-- The value of the document may be an alias, but what it stands for is not passed. -/
theorem content_rootValue (hk : t.rootNode.kind = .document) (hv : t.rootValue? = some c)
    (j k : Nat) : t.content (j + 2) c = t.content (k + 2) c := by
  by_cases hend : t.resolve? c = some root
  · have h : t.Endless := ⟨hk, c, hv, hend⟩
    rw [(h.content _).2 c hv, (h.content _).2 c hv]
  · cases hn : t.get? c with
    | none => rw [content_foreign hn, content_foreign hn]
    | some n =>
      by_cases ha : n.kind = .alias
      · rw [content_alias hn ha, content_alias hn ha]
        cases hr : t.resolve? c with
        | none =>
          rw [aliased_of_none hr]
          rfl
        | some r =>
          obtain ⟨m, hm, hma⟩ := exists_of_follow hr
          have hne : r ≠ root := by
            rintro rfl
            exact hend hr
          rw [aliased_eq_ok.mpr hr]
          exact content_direct hm hma (fun _ => hne) j k
      · have hne : c ≠ root := by
          rintro rfl
          exact hend (resolve?_of_ne_alias hn ha)
        exact content_direct hn ha (fun _ => hne) (j + 1) (k + 1)

theorem content_document_steps (hk : t.rootNode.kind = .document) (j k : Nat) :
    t.content (j + 3) root = t.content (k + 3) root := by
  rw [content_document hk, content_document hk]
  cases hv : t.rootValue? with
  | none => rfl
  | some c => exact content_rootValue hk hv j k

/-- What an alias stands for has its content one step earlier. -/
theorem content_resolved (hr : t.resolve? id = some r) (j k : Nat) :
    t.content (j + 3) r = t.content (k + 3) r := by
  obtain ⟨m, hm, hma⟩ := exists_of_follow hr
  by_cases hd : m.kind = .document ∧ r = root
  · obtain ⟨hmk, rfl⟩ := hd
    obtain rfl := Option.some.inj (t.get?_root.symm.trans hm)
    exact content_document_steps hmk j k
  · refine content_direct hm hma ?_ (j + 2) (k + 2)
    intro hmk hroot
    exact hd ⟨hmk, hroot⟩

/-! ### Values -/

section Values

variable {maxDepth room : Nat}

theorem valueAt_of_content_error (hc : t.content contentSteps id = .error e) :
    t.valueAt maxDepth room id = .error e := by
  rw [valueAt.eq_def]
  simp only [hc]
  rfl

/-- Nodes with one content have one value. -/
theorem valueAt_congr (h : t.content contentSteps id = t.content contentSteps c) :
    t.valueAt maxDepth room id = t.valueAt maxDepth room c := by
  rw [valueAt.eq_def, valueAt.eq_def]
  simp only [h]

theorem valueAt_foreign (hn : t.get? id = none) :
    t.valueAt maxDepth room id = .error (.foreignNode id) :=
  valueAt_of_content_error (content_foreign hn 3)

theorem valueAt_nested (hn : t.get? id = some n) (hk : n.kind = .document) (hne : id ≠ root) :
    t.valueAt maxDepth room id = .error .nestedDocument :=
  valueAt_of_content_error (content_nested hn hk hne 3)

/-- The value of an alias is that of the node it stands for. -/
theorem valueAt_alias (hn : t.get? id = some n) (hk : n.kind = .alias) :
    t.valueAt maxDepth room id = (t.aliased id n.value).bind (t.valueAt maxDepth room) := by
  have hcontent := content_alias hn hk 3
  cases hr : t.resolve? id with
  | none =>
    rw [aliased_of_none hr] at hcontent ⊢
    exact valueAt_of_content_error hcontent
  | some r =>
    rw [aliased_eq_ok.mpr hr] at hcontent ⊢
    exact valueAt_congr (hcontent.trans (content_resolved hr 0 1))

/-- The value of the document is that of its first child. -/
theorem valueAt_document (hk : t.rootNode.kind = .document) :
    t.valueAt maxDepth room root =
      t.rootValue?.elim (.ok (.map [])) (t.valueAt maxDepth room) := by
  have hcontent := content_document hk 3
  cases hv : t.rootValue? with
  | none =>
    rw [hv] at hcontent
    exact valueAt_of_content hcontent maxDepth room
  | some c =>
    rw [hv] at hcontent
    exact valueAt_congr (hcontent.trans (content_rootValue hk hv 1 2))

/-- No collection is opened without room. -/
theorem valueAt_zero (hn : t.get? id = some n) (hk : n.kind.isCollection = true) :
    t.valueAt maxDepth 0 id = .error (.depthExceeded maxDepth) := by
  have hk' : n.kind = .sequence ∨ n.kind = .mapping := by
    cases hkind : n.kind with
    | sequence => exact .inl rfl
    | mapping => exact .inr rfl
    | _ =>
      rw [hkind] at hk
      cases hk
  exact valueAt_of_content (content_collection hn hk' 3) maxDepth 0

end Values

end Tree

end TaggedYaml
