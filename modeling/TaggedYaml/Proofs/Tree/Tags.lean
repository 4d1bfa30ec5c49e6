import TaggedYaml.Codec
import TaggedYaml.Proofs.Except
import TaggedYaml.Tree.Build

/-!
# Tags — where the tags of a tree come from

The builder gives nodes no tags but those of events (`tagged_ofEvents`), and flattening leaves a tree
without extension tags as it is (`flatten_of_tagged`).
-/

namespace TaggedYaml

/-- The tag that an event gives to a node. -/
def Event.tag : Event → String
  | .scalar _ _ tag _ | .openSequence tag _ | .openMapping tag _ => tag
  | .alias _ | .closeSequence | .closeMapping => ""

namespace Tree

variable {P : String → Prop} {t t' : Tree} {parent id : NodeId} {n : Node}

/-- Every node has a tag of some kind. -/
def Tagged (P : String → Prop) (t : Tree) : Prop := ∀ id n, t.get? id = some n → P n.tag

theorem tagged_append (h : Tagged P t) (hn : P n.tag) (ha : t.append? parent n = some (id, t')) :
    Tagged P t' := by
  rw [append?] at ha
  split at ha
  · rename_i hp
    obtain rfl : ((t.alloc n).2.modify parent fun m =>
        { m with children := m.children.push t.size }) = t' :=
      congrArg Prod.snd (Option.some.inj ha)
    have halloc : Tagged P (t.alloc n).2 := by
      intro other m hm
      simp only [alloc, get?, Array.getElem?_push] at hm
      split at hm
      · obtain rfl := Option.some.inj hm
        exact hn
      · exact h other m hm
    intro other m hm
    by_cases hpar : parent = other
    · subst hpar
      rw [get?_modify_self, Option.map_eq_some_iff] at hm
      obtain ⟨m', hm', rfl⟩ := hm
      exact halloc _ m' hm'
    · exact halloc other m (get?_modify_of_ne _ hpar _ ▸ hm)
  · cases ha

end Tree

namespace Builder

variable {P : String → Prop} {b b' : Builder} {maxDepth : Nat}

theorem tagged_attach {n : Node} {anchor : Option Anchor} {id : NodeId}
    (h : b.tree.Tagged P) (hn : P n.tag) (ha : b.attach n anchor = .ok (id, b')) :
    b'.tree.Tagged P := by
  rw [attach] at ha
  split at ha
  · cases ha
  · rename_i id' t' happ
    obtain rfl := congrArg Prod.snd (Except.ok.inj ha)
    exact Tree.tagged_append (n := { n with anchor := anchor.map (·.name) }) h hn happ

theorem tagged_openNode {n : Node} {anchor : Option Anchor} (h : b.tree.Tagged P) (hn : P n.tag)
    (ho : b.openNode maxDepth n anchor = .ok b') : b'.tree.Tagged P := by
  rw [openNode] at ho
  split at ho
  · cases ho
  · cases ha : b.attach n anchor with
    | error e => simp [ha, bind, Except.bind] at ho
    | ok r =>
      obtain rfl : ({ r.2 with stack := r.1 :: r.2.stack } : Builder) = b' := by
        simpa [ha, bind, Except.bind, pure, Except.pure] using ho
      have hadded : r.2.tree.Tagged P := tagged_attach h hn ha
      exact hadded

theorem tagged_closeNode {kind : Kind} (h : b.tree.Tagged P) (hc : b.closeNode kind = .ok b') :
    b'.tree.Tagged P := by
  rw [closeNode] at hc
  split at hc
  · split at hc
    · obtain rfl := Except.ok.inj hc
      exact h
    · cases hc
  · cases hc

/-- A step gives no node another tag than that of its event. -/
theorem tagged_step {e : Marked Event} (h0 : P "") (h : b.tree.Tagged P) (he : P e.item.tag)
    (hs : b.step maxDepth e = .ok b') : b'.tree.Tagged P := by
  obtain ⟨mark, e⟩ := e
  cases e with
  | scalar style text tag anchor =>
    obtain ⟨r, hr, hs⟩ := bind_eq_ok hs
    obtain rfl : r.2 = b' := by simpa [pure, Except.pure] using hs
    exact tagged_attach h he hr
  | «alias» a =>
    simp only [step] at hs
    split at hs
    · cases hs
    · obtain ⟨r, hr, hs⟩ := bind_eq_ok hs
      obtain rfl : r.2 = b' := by simpa [pure, Except.pure] using hs
      exact tagged_attach h h0 hr
  | openSequence tag anchor => exact tagged_openNode h he hs
  | openMapping tag anchor => exact tagged_openNode h he hs
  | closeSequence => exact tagged_closeNode h hs
  | closeMapping => exact tagged_closeNode h hs

theorem tagged_foldlM {es : List (Marked Event)} (h0 : P "") (hes : ∀ e ∈ es, P e.item.tag) :
    ∀ {b b' : Builder}, b.tree.Tagged P → es.foldlM (step maxDepth) b = .ok b' →
      b'.tree.Tagged P := by
  induction es with
  | nil =>
    intro b b' h hb
    obtain rfl : b = b' := by simpa [pure, Except.pure] using hb
    exact h
  | cons e es ih =>
    intro b b' h hb
    rw [List.forall_mem_cons] at hes
    rw [List.foldlM_cons] at hb
    obtain ⟨b₁, hb₁, hb⟩ := bind_eq_ok hb
    exact ih hes.2 (tagged_step h0 h hes.1 hb₁) hb

end Builder

namespace Tree

variable {P : String → Prop} {t : Tree} {maxDepth : Nat}

/-- The nodes of a tree have the tags of the events that it was made of. -/
theorem tagged_ofEvents {es : List (Marked Event)} (h0 : P "") (hes : ∀ e ∈ es, P e.item.tag)
    (h : ofEvents maxDepth es = .ok t) : t.Tagged P := by
  obtain ⟨b, hb, h⟩ := bind_eq_ok h
  obtain rfl : b.tree = t := by simpa [pure, Except.pure] using h
  refine Builder.tagged_foldlM h0 hes (fun id n hn => ?_) hb
  have hmem : n ∈ (Array.mk [{ kind := Kind.document }] : Array Node) := Array.mem_of_getElem? hn
  obtain rfl : n = { kind := .document } := by simpa using hmem
  exact h0

/-- A tree without extension tags is left as it is. -/
theorem flatten_of_tagged {isExtension : String → Bool}
    (h : t.Tagged fun tag => isExtension tag = false) :
    (t.flatten isExtension).tree = t ∧ (t.flatten isExtension).count = 0 := by
  have hlist : ∀ (ids : List NodeId) (count : Nat), (flattenList isExtension ids t count).tree = t ∧
      (flattenList isExtension ids t count).count = count := by
    intro ids count
    induction ids with
    | nil => exact ⟨rfl, rfl⟩
    | cons id rest ih =>
      rw [flattenList]
      cases hn : t.get? id with
      | none => exact ⟨rfl, rfl⟩
      | some n => simpa [h id n hn] using ih
  exact hlist t.preorder 0

end Tree

namespace Settings

variable {s : Settings} {t : Tree}

theorem isExtensionTag_empty (hpattern : s.tagPattern = .tag) : s.isExtensionTag "" = false := by
  rw [isExtensionTag, hpattern]
  decide +kernel

/-- With the usual tags, a tree without tags is left as it is. -/
theorem flatten_of_untagged (hpattern : s.tagPattern = .tag) (h : t.Tagged (· = "")) :
    (s.flatten t).tree = t :=
  (Tree.flatten_of_tagged fun id n hn =>
    (congrArg s.isExtensionTag (h id n hn)).trans (isExtensionTag_empty hpattern)).1

end Settings

end TaggedYaml
