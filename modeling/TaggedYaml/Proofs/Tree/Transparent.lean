import TaggedYaml.Proofs.Tree.Chains
import TaggedYaml.Proofs.Tree.Together

/-!
# Transparent — an alias is what it stands for

A tree in which something like the node that an alias stands for was put in the place of the alias
(`Tree.Replaces`) has the same value.  Chains that passed the alias end there now, so a node may
resolve to the alias where it resolved to the end of the chain (`Replaces.resolve?`).  As both are
alike, the values of the new tree solve the recursion of the old one (`Replaces.valueStep`), and this
has one solution.
-/

namespace TaggedYaml

/-- Two nodes that say the same, without regard to tags, anchors and styles. -/
structure Node.Alike (n n' : Node) : Prop where
  kind : n'.kind = n.kind
  value : n'.value = n.value
  children : n'.children = n.children

theorem Node.Alike.refl (n : Node) : n.Alike n := ⟨rfl, rfl, rfl⟩

namespace Tree

variable {t t' : Tree} {maxDepth depth k : Nat} {id id' a r s : NodeId} {n n' m : Node}

/-- Puts a copy of a node, without its anchor, in the place of another one. -/
def overwrite (t : Tree) (id : NodeId) (m : Node) : Tree :=
  t.modify id fun _ => { m with anchor := none }

theorem get?_overwrite (hn : t.get? id = some n) (m : Node) :
    (t.overwrite id m).get? id = some { m with anchor := none } := by
  rw [overwrite, get?_modify_self, hn]
  rfl

theorem get?_overwrite_of_ne (hne : id' ≠ id) (m : Node) :
    (t.overwrite id m).get? id' = t.get? id' :=
  get?_modify_of_ne t (Ne.symm hne) _

/-- In place of an alias stands something like the node that the alias stands for. -/
structure Replaces (t t' : Tree) (a r : NodeId) : Prop where
  size : t'.size = t.size
  other : ∀ id, id ≠ a → t'.get? id = t.get? id
  source : ∃ n, t.get? a = some n ∧ n.kind = .alias
  resolved : t.resolve? a = some r
  copy : ∃ m m', t.get? r = some m ∧ t'.get? a = some m' ∧ m.Alike m'

theorem replaces_overwrite (hn : t.get? a = some n) (hk : n.kind = .alias)
    (hr : t.resolve? a = some r) (hm : t.get? r = some m) : t.Replaces (t.overwrite a m) a r where
  size := size_modify ..
  other _ hne := get?_overwrite_of_ne hne m
  source := ⟨n, hn, hk⟩
  resolved := hr
  copy := ⟨m, _, hm, get?_overwrite hn m, rfl, rfl, rfl⟩

/-! ### What nodes resolve to -/

/-- The new node ends a chain. -/
theorem Replaces.direct (h : t.Replaces t' a r) :
    ∃ m m', t.get? r = some m ∧ t'.get? r = some m ∧ t'.get? a = some m' ∧ m.Alike m' ∧
      m.kind ≠ .alias ∧ m'.kind ≠ .alias := by
  obtain ⟨m, m', hm, hm', halike⟩ := h.copy
  obtain ⟨n, hn, hk⟩ := h.source
  obtain ⟨m₀, hm₀, hmk⟩ := exists_of_follow h.resolved
  obtain rfl := Option.some.inj (hm.symm.trans hm₀)
  have hne : r ≠ a := by
    rintro rfl
    obtain rfl := Option.some.inj (hm.symm.trans hn)
    exact hmk hk
  exact ⟨m, m', hm, (h.other r hne).trans hm, hm', halike, hmk, halike.kind ▸ hmk⟩

theorem Replaces.follow (h : t.Replaces t' a r) (hs : t.follow k id = some s) :
    t'.follow k id = some s ∨ s = r ∧ t'.follow k id = some a := by
  induction k generalizing id with
  | zero => cases hs
  | succ k ih =>
    by_cases hid : id = a
    · subst hid
      obtain ⟨-, m', -, -, hm', -, -, hmk'⟩ := h.direct
      exact .inr ⟨follow_unique hs h.resolved, follow_direct hm' hmk' k⟩
    · cases hn : t.get? id with
      | none =>
        rw [follow_foreign hn] at hs
        cases hs
      | some n =>
        have hn' := (h.other id hid).trans hn
        by_cases ha : n.kind = .alias
        · rw [follow_alias hn ha] at hs
          obtain ⟨c, hc, hs⟩ := Option.bind_eq_some_iff.mp hs
          rw [follow_alias hn' ha, hc]
          exact ih hs
        · rw [follow_direct hn ha] at hs
          exact .inl ((follow_direct hn' ha k).trans hs)

/-- A chain without an end does not get one. -/
theorem Replaces.follow_none (h : t.Replaces t' a r) (hs : t.resolve? id = none) (k : Nat) :
    t'.follow k id = none := by
  induction k generalizing id with
  | zero => rfl
  | succ k ih =>
    have hid : id ≠ a := by
      rintro rfl
      rw [h.resolved] at hs
      cases hs
    cases hn : t.get? id with
    | none => exact follow_foreign ((h.other id hid).trans hn) _
    | some n =>
      have hn' := (h.other id hid).trans hn
      by_cases ha : n.kind = .alias
      · rw [follow_alias hn' ha]
        cases hc : n.target with
        | none => rfl
        | some c =>
          refine ih ?_
          have hnone := follow_of_unresolved hs (t.size + 2)
          rw [follow_alias hn ha, hc] at hnone
          exact hnone
      · rw [resolve?_of_ne_alias hn ha] at hs
        cases hs

theorem Replaces.resolve? (h : t.Replaces t' a r) (id : NodeId) :
    t'.resolve? id = t.resolve? id ∨ t.resolve? id = some r ∧ t'.resolve? id = some a := by
  cases hs : t.resolve? id with
  | none => exact .inl (h.follow_none hs _)
  | some s =>
    rw [Tree.resolve?, h.size]
    rcases h.follow hs with hs' | ⟨rfl, hs'⟩
    · exact .inl hs'
    · exact .inr ⟨rfl, hs'⟩

/-! ### Keys -/

theorem keyText_foreign (hn : t.get? id = none) : t.keyText id = .error (.foreignNode id) := by
  rw [keyText, node, hn]
  rfl

theorem keyText_direct (hn : t.get? id = some n) (hk : n.kind ≠ .alias) :
    t.keyText id = .ok n.value := by
  have hb : (n.kind == .alias) = false := by simpa using hk
  rw [keyText, bind_ok (node_eq_ok.mpr hn), hb]
  rfl

theorem keyText_alias (hn : t.get? id = some n) (hk : n.kind = .alias) :
    t.keyText id = (t.aliased id n.value).bind fun r => (t.node r).map (·.value) := by
  have hb : (n.kind == .alias) = true := by simpa using hk
  rw [keyText, bind_ok (node_eq_ok.mpr hn), if_pos hb]
  rfl

/-- The text of a key stays, be it the alias or another alias of its chain. -/
theorem Replaces.keyText (h : t.Replaces t' a r) : t'.keyText = t.keyText := by
  funext id
  obtain ⟨m, m', hm, hmr, hm', halike, hmk, hmk'⟩ := h.direct
  by_cases hid : id = a
  · subst hid
    obtain ⟨n, hn, hk⟩ := h.source
    rw [keyText_direct hm' hmk', keyText_alias hn hk, aliased_eq_ok.mpr h.resolved, halike.value]
    exact (congrArg (Except.map (·.value)) (node_eq_ok.mpr hm)).symm
  · cases hn : t.get? id with
    | none => rw [keyText_foreign hn, keyText_foreign ((h.other id hid).trans hn)]
    | some n =>
      have hn' := (h.other id hid).trans hn
      by_cases hk : n.kind = .alias
      · rw [keyText_alias hn hk, keyText_alias hn' hk]
        rcases h.resolve? id with hs' | ⟨hs, hs'⟩
        · cases hs : t.resolve? id with
          | none =>
            rw [aliased_of_none hs, aliased_of_none (hs'.trans hs)]
            rfl
          | some s =>
            -- The end of the chain is no alias, and so not the one that was replaced.
            obtain ⟨e, he, hek⟩ := exists_of_follow hs
            have hne : s ≠ a := by
              rintro rfl
              obtain ⟨n, hn, hk⟩ := h.source
              obtain rfl := Option.some.inj (hn.symm.trans he)
              exact hek hk
            have hnode : t'.node s = t.node s := by rw [node, node, h.other s hne]
            rw [aliased_eq_ok.mpr hs, aliased_eq_ok.mpr (hs'.trans hs)]
            exact congrArg (Except.map _) hnode
        · rw [aliased_eq_ok.mpr hs, aliased_eq_ok.mpr hs']
          change (t'.node a).map (·.value) = (t.node r).map (·.value)
          rw [node_eq_ok.mpr hm', node_eq_ok.mpr hm]
          exact congrArg Except.ok halike.value
      · rw [keyText_direct hn hk, keyText_direct hn' hk]

/-! ### Values -/

/-- Alike nodes have the same value, as long as the document is none of them. -/
theorem valueStep_alike {value : NodeId → Nat → Except Error Value} (hn : t.get? id = some n)
    (hn' : t'.get? id' = some n') (halike : n.Alike n') (hk : n.kind ≠ .alias)
    (hroot : id' = root ↔ id = root) (hkeys : t'.keyText = t.keyText) :
    t'.valueStep maxDepth value id' depth = t.valueStep maxDepth value id depth := by
  have hb : (id' != root) = (id != root) := by
    rw [Bool.eq_iff_iff, bne_iff_ne, bne_iff_ne, not_iff_not]
    exact hroot
  rw [valueStep, valueStep, bind_ok (node_eq_ok.mpr hn), bind_ok (node_eq_ok.mpr hn'), halike.kind,
    halike.value, halike.children, hkeys, hb]
  cases hkind : n.kind with
  | «alias» => exact absurd hkind hk
  | _ => rfl

/-- The values of the new tree solve the recursion of the old one. -/
theorem Replaces.valueStep (h : t.Replaces t' a r) (ha : a ≠ root) (hr : r ≠ root) (maxDepth : Nat)
    (id : NodeId) (depth : Nat) : t'.valueAt maxDepth (maxDepth - depth) id =
      t.valueStep maxDepth (fun c d => t'.valueAt maxDepth (maxDepth - d) c) id depth := by
  obtain ⟨m, m', hm, hmr, hm', halike, hmk, hmk'⟩ := h.direct
  have hcopy (d : Nat) :
      t'.valueAt maxDepth (maxDepth - d) a = t'.valueAt maxDepth (maxDepth - d) r := by
    rw [valueAt_eq_valueStep, valueAt_eq_valueStep]
    exact valueStep_alike hmr hm' halike hmk (by simp [ha, hr]) rfl
  by_cases hid : id = a
  · subst hid
    obtain ⟨n, hn, hk⟩ := h.source
    rw [valueStep_alias hn hk, aliased_eq_ok.mpr h.resolved, hcopy]
    rfl
  · rw [valueAt_eq_valueStep]
    cases hn : t.get? id with
    | none => rw [valueStep_foreign hn, valueStep_foreign ((h.other id hid).trans hn)]
    | some n =>
      have hn' := (h.other id hid).trans hn
      by_cases hk : n.kind = .alias
      · rw [valueStep_alias hn hk, valueStep_alias hn' hk, aliased, aliased]
        rcases h.resolve? id with hs | ⟨hs, hs'⟩
        · rw [hs]
        · rw [hs, hs']
          exact hcopy depth
      · exact valueStep_alike hn hn' (.refl n) hk Iff.rfl h.keyText

/-- The value of the document stays. -/
theorem Replaces.value (h : t.Replaces t' a r) (hk : t.rootNode.kind = .document)
    (hroot : ∀ p, ¬ t.Child p root)
    (halias : ∀ id n, t.get? id = some n → n.kind = .alias → t.resolve? id ≠ some root)
    (maxDepth : Nat) : t'.value maxDepth = t.value maxDepth := by
  obtain ⟨n, hn, hna⟩ := h.source
  have ha : a ≠ root := by
    rintro rfl
    obtain rfl := Option.some.inj (hn.symm.trans t.get?_root)
    rw [hk] at hna
    cases hna
  have hr : r ≠ root := by
    rintro rfl
    exact halias a n hn hna h.resolved
  exact eq_valueAt_of_step (not_endless hroot halias) (h.valueStep ha hr maxDepth) (root, 0)

/-- An alias may be overwritten with a copy of the node that it stands for, wherever it is, and
whether or not there is a value. -/
theorem value_overwrite (hk : t.rootNode.kind = .document)
    (hroot : ∀ p, ¬ t.Child p root)
    (halias : ∀ id n, t.get? id = some n → n.kind = .alias → t.resolve? id ≠ some root)
    (hn : t.get? a = some n) (hna : n.kind = .alias) (hr : t.resolve? a = some r)
    (hm : t.get? r = some m) (maxDepth : Nat) :
    (t.overwrite a m).value maxDepth = t.value maxDepth :=
  (replaces_overwrite hn hna hr hm).value hk hroot halias maxDepth

/-- The node that is overwritten is a value, and a link of the chain of another one. -/
theorem value_overwrite_chain :
    let t : Tree := ⟨#[{ kind := .document, children := #[1] },
      { kind := .mapping, children := #[2, 3, 4, 5] },
      { kind := .scalar, value := "k", anchor := some "x" },
      { kind := .alias, value := "y", target := some 5 },
      { kind := .alias, value := "x", target := some 2 },
      { kind := .alias, value := "x", target := some 2, anchor := some "y" }], by decide⟩
    let m : Node := { kind := .scalar, value := "k", anchor := some "x" }
    (t.rootNode.kind = .document ∧ ∀ p, ¬ t.Child p root) ∧
      (∀ id n, t.get? id = some n → n.kind = .alias → t.resolve? id ≠ some root) ∧
      (∃ n, t.get? 5 = some n ∧ n.kind = .alias) ∧ t.resolve? 5 = some 2 ∧ t.get? 2 = some m ∧
      t.value 1 = .ok (.map [("k", .text "k")]) ∧
      (t.overwrite 5 m).value 1 = .ok (.map [("k", .text "k")]) := by
  intro t m
  have hchildren : ∀ p < t.size, ∀ c ∈ t.members p, c ≠ root := by decide
  have hroot : ∀ p, ¬ t.Child p root := fun p h => hchildren p h.lt_size root h rfl
  have hresolve : ∀ id < t.size, id ≠ root → t.resolve? id ≠ some root := by decide
  have halias : ∀ id n, t.get? id = some n → n.kind = .alias → t.resolve? id ≠ some root := by
    intro id n hn hk
    refine hresolve id (lt_size hn) ?_
    rintro rfl
    obtain rfl := Option.some.inj hn
    cases hk
  have hvalue : t.value 1 = .ok (.map [("k", .text "k")]) := by cbv
  have hsame := value_overwrite (a := 5) (r := 2) (m := m) rfl hroot halias rfl rfl rfl rfl 1
  exact ⟨⟨rfl, hroot⟩, halias, ⟨_, rfl, rfl⟩, rfl, rfl, hvalue, hsame.trans hvalue⟩

end Tree

end TaggedYaml
