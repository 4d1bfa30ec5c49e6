import Mathlib.Data.Finset.Card
import Mathlib.Data.Nat.Find
import TaggedYaml.Proofs.Tree.Calls

/-!
# Chains — aliases of aliases

An alias may stand for an alias.  What `follow` finds it finds with more fuel too, so a chain has one
end (`follow_unique`).  The nodes of a chain need different amounts of fuel, the first of them the
most; so there are no more of them than nodes in the tree, and the fuel that `resolve?` takes is
always enough (`follow_size_of_follow`).
-/

namespace TaggedYaml

namespace Tree

variable {t : Tree} {fuel j k : Nat} {id c r s : NodeId} {n : Node}

theorem follow_foreign (hn : t.get? id = none) (fuel : Nat) : t.follow fuel id = none := by
  cases fuel with
  | zero => rfl
  | succ fuel => rw [follow, hn]

theorem follow_direct (hn : t.get? id = some n) (hk : n.kind ≠ .alias) (fuel : Nat) :
    t.follow (fuel + 1) id = some id := by
  have hb : (n.kind == .alias) = false := by simpa using hk
  simp only [follow, hn, hb, Bool.false_eq_true, if_false]

theorem follow_alias (hn : t.get? id = some n) (hk : n.kind = .alias) (fuel : Nat) :
    t.follow (fuel + 1) id = n.target.bind (t.follow fuel) := by
  simp only [follow, hn, hk, beq_self_eq_true, if_true]

/-- More fuel finds the same. -/
theorem follow_mono (h : t.follow j id = some r) (hjk : j ≤ k) : t.follow k id = some r := by
  induction j generalizing id k with
  | zero => cases h
  | succ j ih =>
    obtain ⟨k, rfl⟩ := Nat.exists_eq_add_of_le' (Nat.lt_of_lt_of_le (Nat.succ_pos j) hjk)
    cases hn : t.get? id with
    | none =>
      rw [follow_foreign hn] at h
      cases h
    | some n =>
      by_cases ha : n.kind = .alias
      · rw [follow_alias hn ha] at h ⊢
        obtain ⟨c, hc, hr⟩ := Option.bind_eq_some_iff.mp h
        rw [hc]
        exact ih hr (Nat.le_of_succ_le_succ hjk)
      · rw [follow_direct hn ha] at h ⊢
        exact h

/-- A chain has one end. -/
theorem follow_unique (hr : t.follow j id = some r) (hs : t.follow k id = some s) : r = s := by
  have hr' := follow_mono hr (Nat.le_max_left j k)
  have hs' := follow_mono hs (Nat.le_max_right j k)
  exact Option.some.inj (hr'.symm.trans hs')

/-- The nodes of a chain that just comes to its end: as many as the fuel it takes. -/
theorem exists_chain (h : t.follow (k + 1) id = some r) (hleast : t.follow k id = none) :
    ∃ nodes : Finset NodeId, nodes.card = k + 1 ∧
      ∀ c ∈ nodes, c < t.size ∧ (t.follow (k + 1) c).isSome := by
  induction k generalizing id with
  | zero =>
    obtain ⟨n, hn⟩ : ∃ n, t.get? id = some n := by
      cases hn : t.get? id with
      | none =>
        rw [follow_foreign hn] at h
        cases h
      | some n => exact ⟨n, rfl⟩
    refine ⟨{id}, Finset.card_singleton id, ?_⟩
    intro c hc
    obtain rfl := Finset.mem_singleton.mp hc
    rw [h]
    exact ⟨lt_size hn, rfl⟩
  | succ k ih =>
    cases hn : t.get? id with
    | none =>
      rw [follow_foreign hn] at h
      cases h
    | some n =>
      by_cases ha : n.kind = .alias
      · rw [follow_alias hn ha] at h
        obtain ⟨c, hc, hr⟩ := Option.bind_eq_some_iff.mp h
        have hless : t.follow k c = none := by
          rw [follow_alias hn ha, hc] at hleast
          exact hleast
        obtain ⟨nodes, hcard, hnodes⟩ := ih hr hless
        -- All that comes later ends with less fuel than the alias itself needs.
        have hnew : id ∉ nodes := by
          intro hid
          have hsome := (hnodes id hid).2
          rw [hleast] at hsome
          cases hsome
        refine ⟨insert id nodes, ?_, ?_⟩
        · rw [Finset.card_insert_of_notMem hnew, hcard]
        · intro d hd
          rcases Finset.mem_insert.mp hd with rfl | hd
          · rw [follow_alias hn ha, hc, Option.bind_some, hr]
            exact ⟨lt_size hn, rfl⟩
          · obtain ⟨hlt, hsome⟩ := hnodes d hd
            obtain ⟨e, he⟩ := Option.isSome_iff_exists.mp hsome
            rw [follow_mono he (Nat.le_succ _)]
            exact ⟨hlt, rfl⟩
      · rw [follow_direct hn ha] at hleast
        cases hleast

/-- Whatever fuel finds the end of a chain, as much as there are nodes finds it. -/
theorem follow_size_of_follow (h : t.follow k id = some r) : t.follow t.size id = some r := by
  classical
  have hex : ∃ k, t.follow k id = some r := ⟨k, h⟩
  obtain ⟨least, hk⟩ : ∃ least, Nat.find hex = least + 1 := by
    refine Nat.exists_eq_succ_of_ne_zero ?_
    intro hzero
    have hfound := Nat.find_spec hex
    rw [hzero] at hfound
    cases hfound
  have hfound : t.follow (least + 1) id = some r := hk ▸ Nat.find_spec hex
  have hleast : t.follow least id = none := by
    cases hs : t.follow least id with
    | none => rfl
    | some s =>
      obtain rfl := follow_unique hs hfound
      exact absurd hs (Nat.find_min hex (hk ▸ Nat.lt_succ_self least))
  obtain ⟨nodes, hcard, hnodes⟩ := exists_chain hfound hleast
  have hsubset : nodes ⊆ Finset.range t.size :=
    fun c hc => Finset.mem_range.mpr (hnodes c hc).1
  have hsize : least + 1 ≤ t.size := by
    rw [← hcard, ← Finset.card_range t.size]
    exact Finset.card_le_card hsubset
  exact follow_mono hfound hsize

/-- Whatever fuel finds the end of a chain, `resolve?` finds it. -/
theorem resolve?_of_follow (h : t.follow k id = some r) : t.resolve? id = some r :=
  follow_mono (follow_size_of_follow h) (Nat.le_succ _)

/-- Without an end with the fuel of `resolve?` there is none. -/
theorem follow_of_unresolved (h : t.resolve? id = none) (k : Nat) : t.follow k id = none := by
  cases hr : t.follow k id with
  | none => rfl
  | some r =>
    rw [resolve?_of_follow hr] at h
    cases h

end Tree

end TaggedYaml
