import TaggedYaml.Proofs.Tree.Gathered

/-!
# Untagged — documents in which no node has a tag of its own

Core tags are out of reach of every pattern, so flattening changes a node of such a document only if
the node has no tag and the pattern matches the empty text.  The document node never has a tag: a
pattern that does not match the empty text leaves the document as it is, YAML or JSON, and any other
pattern turns it into a string (`decode_untagged`).
-/

namespace TaggedYaml

namespace Settings

variable {s : Settings} {text : String} {t : Tree}

theorem isExtensionTag_of_isCoreTag (s : Settings) {tag : String} (h : isCoreTag tag = true) :
    s.isExtensionTag tag = false := by
  rw [isExtensionTag, h]
  rfl

/-- Only the pattern decides on nodes without a tag. -/
theorem isExtensionTag_nothing (s : Settings) : s.isExtensionTag "" = s.tagPattern.matchesIn "" := by
  have hcore : isCoreTag "" = false := by decide
  rw [isExtensionTag, hcore]
  rfl

theorem decode_of_read (h : Tree.read s.maxDepth text = .ok t) :
    s.decode text = .ok (s.flatten t).tree := bind_ok h _

/-- A pattern that matches the empty text makes a string of the document. -/
theorem flatten_ne_of_matches (h : Tree.read s.maxDepth text = .ok t)
    (hempty : s.tagPattern.matchesIn "" = true) : (s.flatten t).tree ≠ t := by
  intro heq
  have hrooted := Tree.rooted_read h
  have hk : t.rootNode.kind = .document := (hrooted.document Tree.root _ t.get?_root).mpr rfl
  have htag : s.isExtensionTag t.rootNode.tag = true := by
    rw [(Tree.regular_read h).untagged Tree.root _ t.get?_root (.inl hk), isExtensionTag_nothing]
    exact hempty
  have hget := hrooted.get?_flatten s.isExtensionTag Tree.root
  rw [← flatten, heq, t.get?_root, Option.map_some, Tree.flattened_of_extension htag] at hget
  have hscalar : t.rootNode.kind = .scalar := congrArg Node.kind (Option.some.inj hget)
  rw [hk] at hscalar
  cases hscalar

/-- If all nodes of a text have core tags or none, nothing is flattened where the pattern does not
match the empty text, and only there; the tree is what was read then.  Nodes with core tags stay as
they are in any case. -/
theorem decode_untagged (s : Settings) {text : String} {t : Tree}
    (hread : Tree.read s.maxDepth text = .ok t)
    (htags : t.Tagged fun tag => tag = "" ∨ isCoreTag tag = true) :
    (s.flatten t = ⟨t, 0, none⟩ ↔ s.tagPattern.matchesIn "" = false) ∧
      (s.decode text = .ok t ↔ s.tagPattern.matchesIn "" = false) ∧
      ∀ id n, t.get? id = some n → isCoreTag n.tag = true →
        (s.flatten t).tree.get? id = some n := by
  have hrooted := Tree.rooted_read hread
  have hsettled (hempty : s.tagPattern.matchesIn "" = false) : s.flatten t = ⟨t, 0, none⟩ := by
    have hno : t.Tagged fun tag => s.isExtensionTag tag = false := by
      intro id n hn
      rcases htags id n hn with htag | htag
      · rw [htag, isExtensionTag_nothing]
        exact hempty
      · exact s.isExtensionTag_of_isCoreTag htag
    obtain ⟨htree, hcount⟩ := Tree.flatten_of_tagged hno
    rw [s.flatten_eq hrooted.inside, flatten, htree, hcount]
  have hchanged (heq : (s.flatten t).tree = t) : s.tagPattern.matchesIn "" = false := by
    rw [← Bool.not_eq_true]
    intro hempty
    exact flatten_ne_of_matches hread hempty heq
  refine ⟨⟨?_, hsettled⟩, ⟨?_, ?_⟩, ?_⟩
  · intro heq
    exact hchanged (congrArg Tree.Flattened.tree heq)
  · intro hdecode
    rw [decode_of_read hread] at hdecode
    exact hchanged (Except.ok.inj hdecode)
  · intro hempty
    rw [decode_of_read hread, hsettled hempty]
  · intro id n hn hcore
    have htag := s.isExtensionTag_of_isCoreTag hcore
    rw [flatten, hrooted.get?_flatten, hn, Option.map_some, Tree.flattened_of_not htag]

/-- The pattern matches every text but the empty one, and so the core tag too. -/
theorem decode_untagged_core : ∃ p t, Pattern.ofString? ".+" = some p ∧
    p.matchesIn "!!map" = true ∧ Tree.read 128 "- !!map {a: b}\n- [c]\n" = .ok t ∧
    (t.get? 2).map (·.tag) = some "!!map" ∧
    ({ default with tagPattern := p } : Settings).flatten t = ⟨t, 0, none⟩ ∧
    ({ default with tagPattern := p } : Settings).decode "- !!map {a: b}\n- [c]\n" = .ok t := by
  let p : Pattern := ⟨".+", .loop (.set (.compl (.range '\n' '\n'))) 1 none true⟩
  let t : Tree := ⟨#[{ kind := .document, children := #[1] },
    { kind := .sequence, children := #[2, 5] },
    { kind := .mapping, tag := "!!map", children := #[3, 4], mark := ⟨8, 1, 8⟩ },
    { kind := .scalar, value := "a", mark := ⟨9, 1, 9⟩ },
    { kind := .scalar, value := "b", mark := ⟨12, 1, 12⟩ },
    { kind := .sequence, children := #[6], mark := ⟨17, 2, 2⟩ },
    { kind := .scalar, value := "c", mark := ⟨18, 2, 3⟩ }], by decide⟩
  have hread : Tree.read 128 "- !!map {a: b}\n- [c]\n" = .ok t := by decide +kernel
  have htags : ∀ n ∈ t.nodes, n.tag = "" ∨ isCoreTag n.tag = true := by decide
  have hempty : p.matchesIn "" = false := by decide +kernel
  obtain ⟨hflat, hdecode, -⟩ := decode_untagged { default with tagPattern := p } hread
    fun id n hn => htags n (Array.mem_of_getElem? hn)
  exact ⟨p, t, by decide +kernel, by decide +kernel, hread, rfl, hflat.mpr hempty, hdecode.mpr hempty⟩

/-- A pattern that matches the empty text flattens all that is read of a JSON text. -/
theorem decode_untagged_empty : ∃ p t, Pattern.ofString? ".*" = some p ∧
    Tree.read 128 "\x7b\"a\":\"b\"\x7d" = .ok t ∧ (∀ id n, t.get? id = some n → n.tag = "") ∧
    (({ default with tagPattern := p } : Settings).flatten t).count = 4 ∧
    ({ default with tagPattern := p } : Settings).decode "\x7b\"a\":\"b\"\x7d" ≠ .ok t := by
  let p : Pattern := ⟨".*", .loop (.set (.compl (.range '\n' '\n'))) 0 none true⟩
  let t : Tree := ⟨#[{ kind := .document, children := #[1] },
    { kind := .mapping, children := #[2, 3] },
    { kind := .scalar, value := "a", style := .double, mark := ⟨1, 1, 1⟩ },
    { kind := .scalar, value := "b", style := .double, mark := ⟨5, 1, 5⟩ }], by decide⟩
  have htags : ∀ n ∈ t.nodes, n.tag = "" := by decide
  exact ⟨p, t, by decide +kernel, by decide +kernel,
    fun id n hn => htags n (Array.mem_of_getElem? hn), by decide +kernel, by decide +kernel⟩

end Settings

end TaggedYaml
