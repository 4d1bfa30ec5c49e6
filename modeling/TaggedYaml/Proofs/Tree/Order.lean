import TaggedYaml.Proofs.Tree.Aliases
import TaggedYaml.Proofs.Tree.Flattens
import TaggedYaml.Proofs.Tree.Lossless

/-!
# Order — the nodes of a text stand in the order of their numbers

In a tree that was read, a node and all that is below it have numbers without a gap, and they are
less than those of the nodes behind it (`spans_read`).
-/

namespace TaggedYaml

/-- An event that adds a collection opens it. -/
theorem Event.nesting_of_node {bound : List (Nat × NodeId)} {e : Marked Event} {n : Node}
    (h : e.node? bound = some n) (depth : Nat) (es : List Event) :
    Event.nesting depth (e.item :: es) = if n.kind.isCollection then
      max (depth + 1) (Event.nesting (depth + 1) es) else Event.nesting depth es := by
  obtain ⟨mark, e⟩ := e
  cases e <;> cases h <;> rfl

theorem Event.nesting_of_end {e : Event} (h : e.isNode = false) (depth : Nat) (es : List Event) :
    Event.nesting depth (e :: es) = Event.nesting (depth - 1) es := by
  cases e with
  | closeSequence => rfl
  | closeMapping => rfl
  | _ => cases h

namespace Builder

/-- Events that the builder takes nest no deeper than its ceiling. -/
theorem nesting_le {maxDepth : Nat} : ∀ {es : List (Marked Event)} {b b' : Builder},
    es.foldlM (step maxDepth) b = .ok b' →
    Event.nesting b.stack.length (es.map (·.item)) ≤ maxDepth
  | [], b, b', _ => Nat.zero_le _
  | e :: es, b, b', hb => by
    rw [List.foldlM_cons] at hb
    obtain ⟨b₁, hb₁, hb⟩ := bind_eq_ok hb
    have ih := nesting_le hb
    rw [List.map_cons]
    rcases step_cases hb₁ with ⟨n, hn⟩ | hl
    · rw [Event.nesting_of_node hn.node]
      rw [hn.stack] at ih
      split
      · rw [if_pos ‹_›] at ih
        exact Nat.max_le.mpr ⟨hn.room ‹_›, ih⟩
      · rwa [if_neg ‹_›] at ih
    · obtain ⟨id, hstack⟩ := hl.stack
      rw [Event.nesting_of_end hl.node, hstack]
      exact ih

end Builder

namespace Tree

variable {t t' : Tree} {maxDepth : Nat} {text : String} {ids : List NodeId} {i j : Nat}

/-- A text is read as a document whose value, if it has one, is all there is below the root. -/
theorem spans_read (h : read maxDepth text = .ok t) :
    t.rootNode.children.size ≤ 1 ∧ t.Spans 1 t.rootNode.children.toList t.size := by
  obtain ⟨es, hes, ht⟩ := exists_of_read h
  obtain ⟨b, hb, -⟩ := exists_of_ofEvents ht
  have hbound := Scan.bound_events hes
  rw [← List.append_nil (List.reverse _)] at hbound
  obtain ⟨t', ids, ht', hlength, hroot, hsize, hregains⟩ := exists_regains
    (Scan.isDocument_events hes) (Event.numbered_of_bound hbound) (Builder.nesting_le hb)
  obtain rfl := Except.ok.inj (ht.symm.trans ht')
  have hroot' : t.rootNode = { kind := .document, children := ids.toArray } :=
    Option.some.inj ((Array.getElem?_eq_getElem t.size_pos).symm.trans hroot)
  rw [hroot', hsize, Nat.add_comm]
  exact ⟨hlength, hregains.spans⟩

theorem Spans.flattens (h : t.Spans i ids j) (hf : t.Flattens t') : t'.Spans i ids j := by
  induction h with
  | nil i => exact .nil i
  | cons hn hbelow hrest ih ih' =>
    obtain ⟨n', hn', hnf⟩ := hf.of_get? hn
    exact .cons hn' (hnf.children ▸ ih) ih'

theorem Spans.le (h : t.Spans i ids j) : i ≤ j := by
  induction h with
  | nil i => exact Nat.le_refl i
  | cons hn hbelow hrest ih ih' => omega

end Tree

end TaggedYaml
