import TaggedYaml.Proofs.Tree.Steps
import TaggedYaml.Tree.Flatten

/-!
# Flattens — what flattening does to a tree

A node is left as it is or becomes a string, and it keeps its children, its target and its anchor
(`flattens_flatten`).  Whatever speaks of these only is the same in the flattened tree.
-/

namespace TaggedYaml

/-- A node and what flattening may make of it. -/
structure Node.Flattens (n n' : Node) : Prop where
  eq_or_scalar : n' = n ∨ n'.kind = .scalar
  children : n'.children = n.children
  target : n'.target = n.target
  anchor : n'.anchor = n.anchor

theorem Node.Flattens.refl (n : Node) : n.Flattens n := ⟨.inl rfl, rfl, rfl, rfl⟩

theorem Node.flattens_flatten (n : Node) (arguments : List String) :
    n.Flattens (n.flatten arguments) := ⟨.inr rfl, rfl, rfl, rfl⟩

theorem Node.Flattens.trans {n₁ n₂ n₃ : Node} (h₁ : n₁.Flattens n₂) (h₂ : n₂.Flattens n₃) :
    n₁.Flattens n₃ := by
  refine ⟨?_, h₂.children.trans h₁.children, h₂.target.trans h₁.target, h₂.anchor.trans h₁.anchor⟩
  rcases h₂.eq_or_scalar with rfl | hk
  · exact h₁.eq_or_scalar
  · exact .inr hk

/-- What is no scalar was not changed. -/
theorem Node.Flattens.eq {n n' : Node} (h : n.Flattens n') (hk : n'.kind ≠ .scalar) : n' = n :=
  h.eq_or_scalar.resolve_right hk

namespace Tree

variable {t t' : Tree} {id : NodeId} {n n' : Node}

/-- A tree and what flattening may make of it. -/
structure Flattens (t t' : Tree) : Prop where
  size : t'.size = t.size
  node : ∀ id n', t'.get? id = some n' → ∃ n, t.get? id = some n ∧ n.Flattens n'

theorem Flattens.refl (t : Tree) : t.Flattens t := ⟨rfl, fun _ n hn => ⟨n, hn, .refl n⟩⟩

theorem Flattens.trans {t₁ t₂ t₃ : Tree} (h₁ : t₁.Flattens t₂) (h₂ : t₂.Flattens t₃) :
    t₁.Flattens t₃ := by
  refine ⟨h₂.size.trans h₁.size, fun id n₃ hn₃ => ?_⟩
  obtain ⟨n₂, hn₂, hf₂⟩ := h₂.node id n₃ hn₃
  obtain ⟨n₁, hn₁, hf₁⟩ := h₁.node id n₂ hn₂
  exact ⟨n₁, hn₁, hf₁.trans hf₂⟩

/-- A node of the first tree is flattened in the second. -/
theorem Flattens.of_get? (h : t.Flattens t') (hn : t.get? id = some n) :
    ∃ n', t'.get? id = some n' ∧ n.Flattens n' := by
  obtain ⟨n', hn'⟩ := exists_get? (t := t') (h.size ▸ lt_size hn)
  obtain ⟨m, hm, hf⟩ := h.node id n' hn'
  obtain rfl : n = m := Option.some.inj (hn.symm.trans hm)
  exact ⟨n', hn', hf⟩

theorem flattens_modify (t : Tree) (id : NodeId) (arguments : List String) :
    t.Flattens (t.modify id (·.flatten arguments)) := by
  refine ⟨size_modify .., fun other n' hn' => ?_⟩
  by_cases hid : id = other
  · subst hid
    rw [get?_modify_self, Option.map_eq_some_iff] at hn'
    obtain ⟨n, hn, rfl⟩ := hn'
    exact ⟨n, hn, n.flattens_flatten arguments⟩
  · rw [get?_modify_of_ne _ hid] at hn'
    exact ⟨n', hn', .refl n'⟩

theorem flattens_flattenList (isExtension : String → Bool) : ∀ (ids : List NodeId) (t : Tree)
    (count : Nat), t.Flattens (flattenList isExtension ids t count).tree
  | [], t, _ => .refl t
  | id :: rest, t, count => by
    rw [flattenList]
    split
    · exact .refl t
    · split
      · split
        · exact .refl t
        · exact (flattens_modify t id _).trans (flattens_flattenList isExtension rest _ _)
      · exact flattens_flattenList isExtension rest t count

theorem flattens_flatten (t : Tree) (isExtension : String → Bool) :
    t.Flattens (t.flatten isExtension).tree :=
  flattens_flattenList isExtension t.preorder t 0

end Tree

end TaggedYaml
