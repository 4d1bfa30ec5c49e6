import TaggedYaml.Proofs.Tree.Chains

/-!
# Links — what an alias finally stands for

An alias of the tree leads to the number that is its target (`Links`), whatever stands there.  A way
along these links is the only one from where it begins; it ends at a node that is no alias, ends
without one, or comes back to a node that it has passed.  `resolve?` counts its rounds and remembers
no node, and yet finds the node in the first case and nothing in the others (`resolve?_links`).
-/

namespace TaggedYaml

open Relation (ReflTransGen TransGen)

namespace Tree

variable {t : Tree} {id a b c r : NodeId}

/-- An alias of the tree and the number that it leads to. -/
def Links (t : Tree) (a b : NodeId) : Prop :=
  ∃ n, t.get? a = some n ∧ n.kind = .alias ∧ n.target = some b

/-- A node of the tree that is no alias. -/
def Stands (t : Tree) (id : NodeId) : Prop := ∃ n, t.get? id = some n ∧ n.kind ≠ .alias

/-- An alias of the tree without a target. -/
def Dangles (t : Tree) (id : NodeId) : Prop :=
  ∃ n, t.get? id = some n ∧ n.kind = .alias ∧ n.target = none

/-! ### One link -/

theorem Links.lt_size (h : t.Links a b) : a < t.size := by
  obtain ⟨n, hn, -⟩ := h
  exact Tree.lt_size hn

theorem Links.unique (h : t.Links a b) (h' : t.Links a c) : b = c := by
  obtain ⟨n, hn, -, hb⟩ := h
  obtain ⟨m, hm, -, hc⟩ := h'
  obtain rfl := Option.some.inj (hn.symm.trans hm)
  exact Option.some.inj (hb.symm.trans hc)

theorem Stands.not_links (h : t.Stands a) : ¬ t.Links a b := by
  rintro ⟨n, hn, hk, -⟩
  obtain ⟨m, hm, hne⟩ := h
  obtain rfl := Option.some.inj (hn.symm.trans hm)
  exact hne hk

theorem Dangles.not_links (h : t.Dangles a) : ¬ t.Links a b := by
  rintro ⟨n, hn, -, hb⟩
  obtain ⟨m, hm, -, hnone⟩ := h
  obtain rfl := Option.some.inj (hn.symm.trans hm)
  rw [hb] at hnone
  cases hnone

theorem Dangles.not_stands (h : t.Dangles a) : ¬ t.Stands a := by
  rintro ⟨n, hn, hne⟩
  obtain ⟨m, hm, hk, -⟩ := h
  obtain rfl := Option.some.inj (hn.symm.trans hm)
  exact hne hk

theorem not_links_of_foreign (h : t.get? a = none) : ¬ t.Links a b := by
  rintro ⟨n, hn, -⟩
  rw [h] at hn
  cases hn

/-- A number leads on, or a way that comes to it ends there. -/
theorem links_or_ends (t : Tree) (a : NodeId) :
    (∃ b, t.Links a b) ∨ t.Stands a ∨ t.Dangles a ∨ t.get? a = none := by
  cases hn : t.get? a with
  | none => exact .inr (.inr (.inr rfl))
  | some n =>
    by_cases hk : n.kind = .alias
    · cases htarget : n.target with
      | none => exact .inr (.inr (.inl ⟨n, hn, hk, htarget⟩))
      | some b => exact .inl ⟨b, n, hn, hk, htarget⟩
    · exact .inr (.inl ⟨n, hn, hk⟩)

/-! ### Ways along links -/

/-- Of two ways from one number one goes on from the end of the other. -/
theorem links_total (h : ReflTransGen t.Links id a) (h' : ReflTransGen t.Links id b) :
    ReflTransGen t.Links a b ∨ ReflTransGen t.Links b a :=
  ReflTransGen.total_of_right_unique (fun _ _ _ hb hc => hb.unique hc) h h'

/-- From a number that does not lead on there is no way to another. -/
theorem eq_of_not_links (hend : ∀ c, ¬ t.Links a c) (h : ReflTransGen t.Links a b) : a = b := by
  rcases h.cases_head with rfl | ⟨c, hac, -⟩
  · rfl
  · exact absurd hac (hend c)

/-- All ways that come from one number lead to the node where one of them ends. -/
theorem links_of_stands (hr : ReflTransGen t.Links id r) (hstands : t.Stands r)
    (hc : ReflTransGen t.Links id c) : ReflTransGen t.Links c r := by
  rcases links_total hr hc with hrc | hcr
  · rw [eq_of_not_links (fun _ => hstands.not_links) hrc]
  · exact hcr

/-- What a way comes to that has come back to a number leads back to itself. -/
theorem cycle_of_links (hcycle : TransGen t.Links a a) (h : ReflTransGen t.Links a b) :
    TransGen t.Links b b := by
  induction h with
  | refl => exact hcycle
  | tail _ hbc ih =>
    obtain ⟨d, hbd, hdb⟩ := TransGen.head'_iff.mp ih
    obtain rfl := hbc.unique hbd
    exact .tail' hdb hbc

/-! ### Rounds -/

theorem follow_links (h : t.Links a b) (fuel : Nat) : t.follow (fuel + 1) a = t.follow fuel b := by
  obtain ⟨n, hn, hk, hb⟩ := h
  rw [follow_alias hn hk, hb]
  rfl

theorem follow_stands (h : t.Stands a) (fuel : Nat) : t.follow (fuel + 1) a = some a := by
  obtain ⟨n, hn, hk⟩ := h
  exact follow_direct hn hk fuel

theorem follow_dangles (h : t.Dangles a) : ∀ fuel, t.follow fuel a = none
  | 0 => rfl
  | fuel + 1 => by
    obtain ⟨n, hn, hk, hnone⟩ := h
    rw [follow_alias hn hk, hnone]
    rfl

/-- What is found stands at the end of a way. -/
theorem links_of_follow : ∀ {fuel : Nat} {id : NodeId}, t.follow fuel id = some r →
    ReflTransGen t.Links id r ∧ t.Stands r
  | 0, _, h => by cases h
  | fuel + 1, id, h => by
    rcases t.links_or_ends id with ⟨b, hb⟩ | hstands | hdangles | hforeign
    · rw [follow_links hb] at h
      obtain ⟨hway, hstands⟩ := links_of_follow h
      exact ⟨.head hb hway, hstands⟩
    · rw [follow_stands hstands] at h
      obtain rfl := Option.some.inj h
      exact ⟨.refl, hstands⟩
    · rw [follow_dangles hdangles] at h
      cases h
    · rw [follow_foreign hforeign] at h
      cases h

/-- What stands at the end of a way is found. -/
theorem resolve?_of_links (h : ReflTransGen t.Links id r) (hstands : t.Stands r) :
    t.resolve? id = some r := by
  obtain ⟨fuel, hfuel⟩ : ∃ fuel, t.follow fuel id = some r := by
    induction h using ReflTransGen.head_induction_on with
    | refl => exact ⟨1, follow_stands hstands 0⟩
    | head hlink _ ih =>
      obtain ⟨fuel, hfuel⟩ := ih
      exact ⟨fuel + 1, (follow_links hlink fuel).trans hfuel⟩
  exact resolve?_of_follow hfuel

/-- A way that does not come back to a number comes to an end. -/
theorem exists_end (h : ∀ c, ReflTransGen t.Links id c → ¬ TransGen t.Links c c) :
    ∃ c, ReflTransGen t.Links id c ∧ (t.Stands c ∨ t.Dangles c ∨ t.get? c = none) := by
  have hacc : Acc (fun b a => t.Links a b) id := acc_of_irrefl (fun _ _ hlink => hlink.lt_size) h
  clear h
  induction hacc with
  | intro a _ ih =>
    rcases t.links_or_ends a with ⟨b, hb⟩ | hend
    · obtain ⟨c, hway, hend⟩ := ih b hb
      exact ⟨c, .head hb hway, hend⟩
    · exact ⟨a, .refl, hend⟩

/-- An alias stands for the node at the end of the way along its links, and there is one such node at
most.  It stands for none just if the way comes to an alias without a target, leads out of the tree or
comes back.  As many rounds as there are nodes are enough, and more of them find nothing else. -/
theorem resolve?_links (t : Tree) (id : NodeId) :
    (∀ r, t.resolve? id = some r ↔ ReflTransGen t.Links id r ∧ t.Stands r) ∧
      (∀ r s, ReflTransGen t.Links id r → t.Stands r → ReflTransGen t.Links id s → t.Stands s →
        r = s) ∧
      (t.resolve? id = none ↔ ∃ c, ReflTransGen t.Links id c ∧
        (t.Dangles c ∨ t.get? c = none ∨ TransGen t.Links c c)) ∧
      ∀ more, t.follow (t.size + more) id = t.resolve? id := by
  refine ⟨fun r => ⟨links_of_follow, fun h => resolve?_of_links h.1 h.2⟩, ?_, ⟨?_, ?_⟩, ?_⟩
  · intro r s hr hstands hs hstands'
    have hsr := links_of_stands hr hstands hs
    exact (eq_of_not_links (fun _ => hstands'.not_links) hsr).symm
  · intro hnone
    by_contra hno
    have hout : ∀ c, ReflTransGen t.Links id c → ¬ TransGen t.Links c c :=
      fun c hway hcycle => hno ⟨c, hway, .inr (.inr hcycle)⟩
    obtain ⟨c, hway, hend⟩ := exists_end hout
    rcases hend with hstands | hdangles | hforeign
    · rw [resolve?_of_links hway hstands] at hnone
      cases hnone
    · exact hno ⟨c, hway, .inl hdangles⟩
    · exact hno ⟨c, hway, .inr (.inl hforeign)⟩
  · rintro ⟨c, hway, hend⟩
    cases hfound : t.resolve? id with
    | none => rfl
    | some r =>
      exfalso
      obtain ⟨hr, hstands⟩ := links_of_follow hfound
      have hcr := links_of_stands hr hstands hway
      rcases hend with hdangles | hforeign | hcycle
      · obtain rfl := eq_of_not_links (fun _ => hdangles.not_links) hcr
        exact hdangles.not_stands hstands
      · obtain rfl := eq_of_not_links (fun _ => not_links_of_foreign hforeign) hcr
        obtain ⟨n, hn, -⟩ := hstands
        rw [hforeign] at hn
        cases hn
      · obtain ⟨d, hrd, -⟩ := TransGen.head'_iff.mp (cycle_of_links hcycle hcr)
        exact hstands.not_links hrd
  · intro more
    cases hfound : t.resolve? id with
    | none => exact follow_of_unresolved hfound _
    | some r => exact follow_mono (follow_size_of_follow hfound) (Nat.le_add_right ..)

/-- The way leads through all nodes of the first tree; in the second one it comes back, comes to an
alias without a target, and leads out of the tree. -/
theorem resolve?_links_longest :
    let t : Tree := ⟨#[{ kind := .document, children := #[4] }, { kind := .alias, target := some 0 },
      { kind := .alias, target := some 1 }, { kind := .alias, target := some 2 },
      { kind := .alias, target := some 3 }], by decide⟩
    let u : Tree := ⟨#[{ kind := .document, children := #[1, 3, 5] },
      { kind := .alias, target := some 2 }, { kind := .alias, target := some 1 },
      { kind := .alias, target := some 4 }, { kind := .alias },
      { kind := .alias, target := some 6 }], by decide⟩
    (ReflTransGen t.Links 4 0 ∧ t.Stands 0 ∧ t.resolve? 4 = some 0) ∧
      (TransGen u.Links 1 1 ∧ u.resolve? 1 = none) ∧ (u.Dangles 4 ∧ u.resolve? 3 = none) ∧
      (u.get? 6 = none ∧ u.resolve? 5 = none) := by
  intro t u
  have hway : ReflTransGen t.Links 4 0 :=
    .head ⟨_, rfl, rfl, rfl⟩ (.head ⟨_, rfl, rfl, rfl⟩ (.head ⟨_, rfl, rfl, rfl⟩
      (.single ⟨_, rfl, rfl, rfl⟩)))
  have hstands : t.Stands 0 := ⟨_, rfl, by decide⟩
  have hcycle : TransGen u.Links 1 1 := .head ⟨_, rfl, rfl, rfl⟩ (.single ⟨_, rfl, rfl, rfl⟩)
  have hdangles : u.Dangles 4 := ⟨_, rfl, rfl, rfl⟩
  refine ⟨⟨hway, hstands, ((resolve?_links t 4).1 0).mpr ⟨hway, hstands⟩⟩, ⟨hcycle, ?_⟩,
    ⟨hdangles, ?_⟩, rfl, ?_⟩
  · exact (resolve?_links u 1).2.2.1.mpr ⟨1, .refl, .inr (.inr hcycle)⟩
  · exact (resolve?_links u 3).2.2.1.mpr ⟨4, .single ⟨_, rfl, rfl, rfl⟩, .inl hdangles⟩
  · exact (resolve?_links u 5).2.2.1.mpr ⟨6, .single ⟨_, rfl, rfl, rfl⟩, .inr (.inl rfl)⟩

/-- Fewer rounds than nodes may end before the way does. -/
example : let t : Tree := ⟨#[{ kind := .document }, { kind := .alias, target := some 0 },
      { kind := .alias, target := some 1 }], by decide⟩
    t.follow 2 2 = none ∧ t.follow 3 2 = some 0 := by
  decide

end Tree

end TaggedYaml
