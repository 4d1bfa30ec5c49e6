import TaggedYaml.Proofs.Tree.Tags
import TaggedYaml.Proofs.Tree.Total
import TaggedYaml.Proofs.Tree.Transparent
import TaggedYaml.Proofs.Tree.Unshared

/-!
# Gathered — aliases among the arguments of a tag

A node that is flattened spells out what its children say, and an alias says its name.  Where no
node with an extension tag gathers the name of an alias, flattening and overwriting the alias with a
copy of a scalar do not get in each other's way (`Regular.replaces_flatten`), and the alias stays
transparent.
-/

namespace TaggedYaml

namespace Tree

/-! ### Nodes of trees that were read -/

/-- Scalars and aliases have no children, and there are no tags on aliases and on the document. -/
structure Regular (t : Tree) : Prop where
  leaf : ∀ id n, t.get? id = some n → n.kind = .scalar ∨ n.kind = .alias → n.children = #[]
  untagged : ∀ id n, t.get? id = some n → n.kind = .document ∨ n.kind = .alias → n.tag = ""

end Tree

namespace Builder

variable {b b' : Builder} {e : Marked Event} {n : Node} {maxDepth : Nat}

/-- Nodes are added to the document or to collections, and what is built is regular. -/
structure Tidies (b : Builder) : Prop where
  rooted : b.tree.Rooted
  regular : b.tree.Regular
  stack : ∀ id ∈ b.stack, ∃ n, b.tree.get? id = some n ∧ n.kind.isCollection = true

/-- Nodes are not added to scalars and aliases. -/
theorem Tidies.parent (h : b.Tidies) (hn : b.tree.get? b.parent = some n) :
    n.kind ≠ .scalar ∧ n.kind ≠ .alias := by
  rw [Builder.parent] at hn
  cases hs : b.stack with
  | nil =>
    rw [hs, List.headD_nil] at hn
    rw [(h.rooted.document Tree.root n hn).mpr rfl]
    exact ⟨by decide, by decide⟩
  | cons id outer =>
    rw [hs, List.headD_cons] at hn
    obtain ⟨m, hm, hk⟩ := h.stack id (hs ▸ List.mem_cons_self)
    obtain rfl := Option.some.inj (hn.symm.trans hm)
    refine ⟨?_, ?_⟩
    · intro hkind
      rw [hkind] at hk
      cases hk
    · intro hkind
      rw [hkind] at hk
      cases hk

theorem tag_of_node? {bound : List (Nat × NodeId)} (h : e.node? bound = some n)
    (hk : n.kind = .alias) : n.tag = "" := by
  obtain ⟨mark, e⟩ := e
  cases e with
  | «alias» a =>
    cases h
    rfl
  | _ =>
    cases h
    try cases hk

theorem Tidies.enters (h : b.Tidies) (hn : Enters maxDepth b e n b') : b'.Tidies := by
  have hchildren := Marked.children_of_node? hn.node
  have hkind := Marked.kind_of_node? hn.node
  refine ⟨h.rooted.appends hn.tree hkind hchildren, ⟨?_, ?_⟩, ?_⟩
  · intro id m hm hk
    rcases hn.tree.cases hm with ⟨rfl, rfl⟩ | ⟨m₀, hm₀, hbare, hcases⟩
    · exact hchildren
    · rw [Node.kind_of_bare hbare] at hk
      have hnil := h.regular.leaf id m₀ hm₀ hk
      refine Array.eq_empty_iff_forall_not_mem.mpr ?_
      intro c hc
      rcases hcases c hc with hc | ⟨rfl, -⟩
      · rw [hnil] at hc
        exact absurd hc (Array.not_mem_empty c)
      · have hparent := h.parent hm₀
        exact hk.elim hparent.1 hparent.2
  · intro id m hm hk
    rcases hn.tree.cases hm with ⟨rfl, rfl⟩ | ⟨m₀, hm₀, hbare, -⟩
    · exact tag_of_node? hn.node (hk.resolve_left hkind)
    · rw [Node.kind_of_bare hbare] at hk
      rw [Node.eq_of_bare hbare]
      exact h.regular.untagged id m₀ hm₀ hk
  · have hold : ∀ id ∈ b.stack, ∃ n, b'.tree.get? id = some n ∧ n.kind.isCollection = true := by
      intro id hid
      obtain ⟨m₀, hm₀, hk⟩ := h.stack id hid
      have hlt := Tree.lt_size hm₀
      obtain ⟨m, hm⟩ : ∃ m, b'.tree.get? id = some m := by
        refine Tree.exists_get? ?_
        rw [hn.tree.size]
        exact Nat.lt_succ_of_lt hlt
      rcases hn.tree.cases hm with ⟨rfl, -⟩ | ⟨m₁, hm₁, hbare, -⟩
      · exact absurd hlt (Nat.lt_irrefl _)
      · obtain rfl := Option.some.inj (hm₀.symm.trans hm₁)
        exact ⟨m, hm, Node.kind_of_bare hbare ▸ hk⟩
    rw [hn.stack]
    split
    · rename_i hk
      intro id hid
      rcases List.mem_cons.mp hid with rfl | hid
      · exact ⟨n, hn.tree.get?_new, hk⟩
      · exact hold id hid
    · exact hold

theorem Tidies.leaves (h : b.Tidies) (hl : Leaves b e b') : b'.Tidies := by
  obtain ⟨id, hstack⟩ := hl.stack
  refine ⟨hl.tree ▸ h.rooted, hl.tree ▸ h.regular, ?_⟩
  intro x hx
  rw [hl.tree]
  exact h.stack x (hstack ▸ List.mem_cons_of_mem _ hx)

theorem tidies_empty : (⟨.empty, [], []⟩ : Builder).Tidies := by
  have hone {id : NodeId} {n : Node} (hn : Tree.empty.get? id = some n) :
      n = { kind := .document } := by
    have hmem : n ∈ Tree.empty.nodes := Array.mem_of_getElem? hn
    simpa [Tree.empty] using hmem
  refine ⟨Tree.rooted_empty, ⟨?_, ?_⟩, fun _ hid => absurd hid List.not_mem_nil⟩
  · intro id n hn _
    rw [hone hn]
  · intro id n hn _
    rw [hone hn]

end Builder

namespace Tree

variable {isExtension : String → Bool} {t : Tree} {a r id : NodeId} {n m : Node} {maxDepth : Nat}
  {text : String}

theorem rooted_read (h : read maxDepth text = .ok t) : t.Rooted := by
  obtain ⟨es, -, ht⟩ := exists_of_read h
  exact rooted_ofEvents ht

theorem regular_read (h : read maxDepth text = .ok t) : t.Regular := by
  obtain ⟨es, -, ht⟩ := exists_of_read h
  obtain ⟨b, hb, rfl⟩ := exists_of_ofEvents ht
  have hrun := Builder.run_keeps (P := fun _ b => b.Tidies) ?_ Builder.tidies_empty hb
  · exact hrun.regular
  · intro _ e b b' h hs
    rcases Builder.step_cases hs with ⟨n, hn⟩ | hl
    · exact h.enters hn
    · exact h.leaves hl

/-! ### Overwritten aliases -/

theorem members_overwrite (hn : t.get? a = some n) (hc : m.children = n.children) :
    (t.overwrite a m).members = t.members := by
  funext id
  by_cases hid : id = a
  · subst hid
    rw [members_eq hn, members_eq (get?_overwrite hn m)]
    exact congrArg Array.toList hc
  · rw [members, members, get?_overwrite_of_ne hid]

theorem child_overwrite (hn : t.get? a = some n) (hc : m.children = n.children) :
    (t.overwrite a m).Child = t.Child := by
  funext p c
  rw [Child, Child, members_overwrite hn hc]

/-- In a tree with an alias overwritten all nodes are flattened as they stand there. -/
theorem Rooted.get?_flatten_overwrite (h : t.Rooted) (hn : t.get? a = some n)
    (hc : m.children = n.children) (isExtension : String → Bool) (id : NodeId) :
    ((t.overwrite a m).flatten isExtension).tree.get? id =
      ((t.overwrite a m).get? id).map ((t.overwrite a m).flattened isExtension) := by
  have hchild := child_overwrite hn hc
  have hsize : (t.overwrite a m).size = t.size := size_modify ..
  by_cases hid : id < t.size
  · refine get?_flatten_of_below ?_ ?_ ?_ ?_
    · rw [Inside, hchild, hsize]
      exact h.inside
    · rw [Unshared, hchild]
      exact h.unshared
    · rw [hchild]
      exact h.not_child_root
    · rw [Below, hchild]
      exact h.below hid
  · have hflat := (flattens_flatten (t.overwrite a m) isExtension).size
    rw [get?_eq_none_iff.mpr, get?_eq_none_iff.mpr]
    · rfl
    · rw [hsize]
      exact Nat.le_of_not_lt hid
    · rw [hflat, hsize]
      exact Nat.le_of_not_lt hid

/-- Where no arguments tell the alias from the scalar, the flattened trees differ in the place of the
alias only, and there one has something like what stands in the place of the scalar. -/
theorem Regular.replaces_flatten (h : t.Regular) (hrooted : t.Rooted) (hclosed : t.Closed)
    (hempty : isExtension "" = false) (hn : t.get? a = some n) (hna : n.kind = .alias)
    (hr : t.resolve? a = some r) (hm : t.get? r = some m) (hmk : m.kind = .scalar)
    (hgather : ∀ p q, t.get? p = some q → isExtension q.tag = true → a ∈ q.children →
      n.value = m.value) :
    (t.flatten isExtension).tree.Replaces ((t.overwrite a m).flatten isExtension).tree a r := by
  have hnil : m.children = #[] := h.leaf r m hm (.inl hmk)
  have hnil' : n.children = #[] := h.leaf a n hn (.inr hna)
  have hget := hrooted.get?_flatten isExtension
  have hget' := hrooted.get?_flatten_overwrite hn (hnil.trans hnil'.symm) isExtension
  have hflat := flattens_flatten t isExtension
  have hsource : (t.flatten isExtension).tree.get? a = some n := by
    have htag : isExtension n.tag = false := by
      rw [h.untagged a n hn (.inr hna)]
      exact hempty
    rw [hget, hn, Option.map_some, flattened_of_not htag]
  refine ⟨?_, ?_, ⟨n, hsource, hna⟩, ?_, ?_⟩
  · rw [hflat.size, (flattens_flatten _ isExtension).size]
    exact size_modify ..
  · intro id hid
    rw [hget, hget', get?_overwrite_of_ne hid]
    cases hq : t.get? id with
    | none => rfl
    | some q =>
      by_cases htag : isExtension q.tag = true
      · have harguments : (t.overwrite a m).arguments q = t.arguments q := by
          refine List.filterMap_congr ?_
          intro c hc
          by_cases hca : c = a
          · subst hca
            have hvalue := hgather id q hq htag (Array.mem_toList_iff.mp hc)
            rw [get?_overwrite hn, hn, Option.map_some, Option.map_some, hvalue]
          · rw [get?_overwrite_of_ne hca]
        rw [Option.map_some, Option.map_some, flattened_of_extension htag,
          flattened_of_extension htag, harguments]
      · have htag : isExtension q.tag = false := by simpa using htag
        rw [Option.map_some, Option.map_some, flattened_of_not htag, flattened_of_not htag]
  · obtain ⟨r', -, hr', -, -, -, htarget⟩ := hclosed.resolve? hn hna
    obtain ⟨r'', -, hr'', -, -, -, htarget'⟩ := (hclosed.flattens hflat).resolve? hsource hna
    obtain rfl := Option.some.inj (hr'.symm.trans hr)
    obtain rfl := Option.some.inj (htarget.symm.trans htarget')
    exact hr''
  · refine ⟨t.flattened isExtension m, (t.overwrite a m).flattened isExtension { m with anchor := none },
      ?_, ?_, ?_⟩
    · rw [hget, hm, Option.map_some]
    · rw [hget', get?_overwrite hn, Option.map_some]
    · by_cases htag : isExtension m.tag = true
      · have hself : t.arguments m = [] := by rw [arguments, hnil]; rfl
        have hself' : (t.overwrite a m).arguments { m with anchor := none } = [] := by
          rw [arguments, hnil]
          rfl
        rw [flattened_of_extension htag, flattened_of_extension (n := { m with anchor := none }) htag,
          hself, hself']
        exact ⟨rfl, rfl, rfl⟩
      · have htag : isExtension m.tag = false := by simpa using htag
        rw [flattened_of_not htag, flattened_of_not (n := { m with anchor := none }) htag]
        exact ⟨rfl, rfl, rfl⟩

/-- The document is not flattened, since it has no tag. -/
theorem Regular.rootNode_flatten (h : t.Regular) (hrooted : t.Rooted)
    (hempty : isExtension "" = false) : (t.flatten isExtension).tree.rootNode = t.rootNode := by
  have hk : t.rootNode.kind = .document := (hrooted.document root _ t.get?_root).mpr rfl
  have htag : isExtension t.rootNode.tag = false := by
    rw [h.untagged root _ t.get?_root (.inl hk)]
    exact hempty
  have hget := hrooted.get?_flatten isExtension root
  rw [t.get?_root, Option.map_some, flattened_of_not htag, get?_root] at hget
  exact Option.some.inj hget

end Tree

/-! ### Documents -/

namespace Settings

open TaggedYaml.Tree (root)

/-- With the usual tags, an alias of a scalar in a document that was read may be overwritten with a
copy of the scalar before the tags are flattened, unless it is an argument of an extension tag and has
a name other than the text of the scalar. -/
theorem value_flatten_overwrite (s : Settings) (hpattern : s.tagPattern = .tag) {maxDepth : Nat}
    {text : String} {t : Tree} {a r : NodeId} {n m : Node} (ht : Tree.read maxDepth text = .ok t)
    (hn : t.get? a = some n) (hna : n.kind = .alias) (hr : t.resolve? a = some r)
    (hm : t.get? r = some m) (hmk : m.kind = .scalar)
    (hgather : ∀ p q, t.get? p = some q → s.isExtensionTag q.tag = true → a ∈ q.children →
      n.value = m.value) :
    s.value (s.flatten (t.overwrite a m)).tree = s.value (s.flatten t).tree := by
  have hempty := isExtensionTag_empty hpattern
  have hrooted := Tree.rooted_read ht
  have hregular := Tree.regular_read ht
  have hflat := Tree.flattens_flatten t s.isExtensionTag
  have hclosed := (Tree.closed_read ht).flattens hflat
  have hreplaces := hregular.replaces_flatten hrooted (Tree.closed_read ht) hempty hn hna hr hm hmk
    hgather
  refine hreplaces.value ?_ ?_ ?_ s.maxDepth
  · rw [hregular.rootNode_flatten hrooted hempty]
    exact (hrooted.document root _ t.get?_root).mpr rfl
  · rw [hflat.child]
    exact hrooted.not_child_root
  · intro id n hn hk hroot
    obtain ⟨r, -, hr, hne, -⟩ := hclosed.resolve? hn hk
    exact hne (Option.some.inj (hr.symm.trans hroot))

/-- The alias is a key, and the scalar that it stands for has an extension tag itself. -/
theorem value_flatten_overwrite_key :
    ∃ t n m, Tree.read 128 "- &x !T a\n- {*x : [*x]}\n" = .ok t ∧
      (t.get? 4 = some n ∧ n.kind = .alias ∧ t.resolve? 4 = some 2) ∧
      (t.get? 2 = some m ∧ m.kind = .scalar) ∧
      (∀ p q, t.get? p = some q → default.isExtensionTag q.tag = true → 4 ∈ q.children →
        n.value = m.value) ∧
      default.value (default.flatten (t.overwrite 4 m)).tree =
        .ok (.list [.text "!T a", .map [("!T a", .list [.text "!T a"])]]) := by
  let m : Node :=
    { kind := .scalar, tag := "!T", value := "a", anchor := some "x", mark := ⟨8, 1, 8⟩ }
  let n : Node := { kind := .alias, value := "x", target := some 2, mark := ⟨13, 2, 3⟩ }
  let t : Tree := ⟨#[{ kind := .document, children := #[1] },
    { kind := .sequence, children := #[2, 3] }, m,
    { kind := .mapping, children := #[4, 5], mark := ⟨12, 2, 2⟩ }, n,
    { kind := .sequence, children := #[6], mark := ⟨18, 2, 8⟩ },
    { kind := .alias, value := "x", target := some 2, mark := ⟨19, 2, 9⟩ }], by decide⟩
  have hread : Tree.read 128 "- &x !T a\n- {*x : [*x]}\n" = .ok t := by decide +kernel
  have htags : ∀ q ∈ t.nodes, default.isExtensionTag q.tag = true → q.children = #[] := by
    decide +kernel
  have hgather : ∀ p q, t.get? p = some q → default.isExtensionTag q.tag = true → 4 ∈ q.children →
      n.value = m.value := by
    intro p q hq htag hmem
    rw [htags q (Array.mem_of_getElem? hq) htag] at hmem
    exact absurd hmem (Array.not_mem_empty 4)
  have hvalue : default.value (default.flatten t).tree =
      .ok (.list [.text "!T a", .map [("!T a", .list [.text "!T a"])]]) := by
    have hflat : (default.flatten t).tree = t.modify 2 (·.flatten []) := by decide +kernel
    rw [hflat]
    cbv
  have hsame := default.value_flatten_overwrite rfl hread (a := 4) (n := n) (m := m) rfl rfl rfl rfl
    rfl hgather
  exact ⟨t, n, m, hread, ⟨rfl, rfl, rfl⟩, ⟨rfl, rfl⟩, hgather, hsame.trans hvalue⟩

/-- The alias is an argument of a tag, and the tag is spelled out with the name of the alias. -/
theorem value_flatten_gathered :
    ∃ t n m, Tree.read 128 "- &x a\n- !Find [*x]\n" = .ok t ∧
      (t.get? 4 = some n ∧ n.kind = .alias ∧ t.resolve? 4 = some 2) ∧
      (t.get? 2 = some m ∧ m.kind = .scalar) ∧
      default.value (default.flatten t).tree = .ok (.list [.text "a", .text "!Find [x]"]) ∧
      default.value (default.flatten (t.overwrite 4 m)).tree =
        .ok (.list [.text "a", .text "!Find [a]"]) := by
  let m : Node := { kind := .scalar, value := "a", anchor := some "x", mark := ⟨5, 1, 5⟩ }
  let n : Node := { kind := .alias, value := "x", target := some 2, mark := ⟨16, 2, 9⟩ }
  let t : Tree := ⟨#[{ kind := .document, children := #[1] },
    { kind := .sequence, children := #[2, 3] }, m,
    { kind := .sequence, tag := "!Find", children := #[4], mark := ⟨15, 2, 8⟩ }, n], by decide⟩
  refine ⟨t, n, m, ?_, ⟨rfl, rfl, rfl⟩, ⟨rfl, rfl⟩, ?_, ?_⟩
  · decide +kernel
  · have hflat : (default.flatten t).tree = t.modify 3 (·.flatten ["x"]) := by decide +kernel
    rw [hflat]
    cbv
  · have hflat : (default.flatten (t.overwrite 4 m)).tree =
        (t.overwrite 4 m).modify 3 (·.flatten ["a"]) := by decide +kernel
    rw [hflat]
    cbv

end Settings

end TaggedYaml
