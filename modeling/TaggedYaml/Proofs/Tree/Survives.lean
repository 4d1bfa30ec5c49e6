import TaggedYaml.Proofs.Tree.Chains
import TaggedYaml.Proofs.Tree.Together
import TaggedYaml.Proofs.Tree.Visits

/-!
# Survives — flattening makes nothing fail

A node that was flattened is a string, which has a value and can be written in any place and at any
depth.  An alias is found to stand for what it stood for, or for the first node on the way there that
was flattened (`Flattens.follow`).  So whatever had a value still has one, and whatever could be
written still can, also where nodes are shared, children are flattened before their parents, and
aliases lead anywhere.
-/

namespace TaggedYaml

open Relation (ReflTransGen)

namespace Tree

variable {t t' : Tree} {maxDepth room indent fuel : Nat} {position : Position} {id r : NodeId}
  {n n' : Node}

/-- A node of the first tree is the same in the second, or is a scalar there. -/
theorem Flattens.same_or_scalar (h : t.Flattens t') (hn : t.get? id = some n) :
    t'.get? id = some n ∨ ∃ n', t'.get? id = some n' ∧ n'.kind = .scalar := by
  obtain ⟨n', hn', hf⟩ := h.of_get? hn
  rcases hf.eq_or_scalar with rfl | hk
  · exact .inl hn'
  · exact .inr ⟨n', hn', hk⟩

/-! ### Aliases -/

/-- A chain of aliases ends where it ended, or earlier at a scalar. -/
theorem Flattens.follow (h : t.Flattens t') (hr : t.follow fuel id = some r) :
    ∃ r', t'.follow fuel id = some r' ∧
      (r' = r ∨ ∃ m, t'.get? r' = some m ∧ m.kind = .scalar) := by
  induction fuel generalizing id with
  | zero => cases hr
  | succ fuel ih =>
    cases hn : t.get? id with
    | none =>
      rw [follow_foreign hn] at hr
      cases hr
    | some n =>
      rcases h.same_or_scalar hn with hn' | ⟨n', hn', hk⟩
      · by_cases ha : n.kind = .alias
        · rw [follow_alias hn ha] at hr
          obtain ⟨c, hc, hr⟩ := Option.bind_eq_some_iff.mp hr
          rw [follow_alias hn' ha, hc]
          exact ih hr
        · rw [follow_direct hn ha] at hr
          exact ⟨id, follow_direct hn' ha fuel, .inl (Option.some.inj hr)⟩
      · exact ⟨id, follow_direct hn' (by rw [hk]; exact nofun) fuel, .inr ⟨n', hn', hk⟩⟩

theorem Flattens.resolve? (h : t.Flattens t') (hr : t.resolve? id = some r) :
    ∃ r', t'.resolve? id = some r' ∧
      (r' = r ∨ ∃ m, t'.get? r' = some m ∧ m.kind = .scalar) := by
  rw [Tree.resolve?, h.size]
  exact h.follow hr

/-- An alias that leads somewhere still does. -/
theorem Flattens.aliased (h : t.Flattens t') {name : String} (hr : t.aliased id name = .ok r) :
    ∃ r', t'.aliased id name = .ok r' ∧
      (r' = r ∨ ∃ m, t'.get? r' = some m ∧ m.kind = .scalar) := by
  obtain ⟨r', hr', hcases⟩ := h.resolve? (aliased_eq_ok.mp hr)
  exact ⟨r', aliased_eq_ok.mpr hr', hcases⟩

/-! ### Keys -/

/-- A node that could be written as a key still can. -/
theorem Flattens.writeKey (h : t.Flattens t') {text : List Char} (hkey : t.writeKey id = .ok text) :
    ∃ text', t'.writeKey id = .ok text' := by
  obtain ⟨n, hn, -⟩ := bind_eq_ok hkey
  rw [node_eq_ok] at hn
  rcases h.same_or_scalar hn with hn' | ⟨n', hn', hk⟩
  · by_cases ha : n.kind = .alias
    · rw [writeKey_alias hn ha] at hkey
      obtain ⟨r, hr, -⟩ := bind_eq_ok hkey
      obtain ⟨r', hr', -⟩ := h.aliased hr
      rw [writeKey_alias hn' ha, hr']
      exact ⟨_, rfl⟩
    · by_cases hs : n.kind = .scalar
      · exact ⟨_, writeKey_scalar hn' hs⟩
      · exact ⟨_, writeKey_other hn' hs ha⟩
  · exact ⟨_, writeKey_scalar hn' hk⟩

/-- A key that had a text still has one. -/
theorem Flattens.keyText (h : t.Flattens t') {text : String} (hkey : t.keyText id = .ok text) :
    ∃ text', t'.keyText id = .ok text' := by
  obtain ⟨n, hn, -⟩ := bind_eq_ok hkey
  rw [node_eq_ok] at hn
  obtain ⟨n', hn', -⟩ := h.of_get? hn
  -- The text of a key is found where the key is written.
  obtain ⟨written, hwritten⟩ : ∃ written, t.writeKey id = .ok written := by
    rw [← verdict_eq_ok, ← verdict_keyText hn, hkey]
    rfl
  obtain ⟨written', hwritten'⟩ := h.writeKey hwritten
  rw [← verdict_eq_ok, verdict_keyText hn', hwritten']
  rfl

/-! ### Values -/

/-- What a node is once aliases are passed: the same as before, or a text. -/
theorem Flattens.content (h : t.Flattens t') {c : Content} (hc : t.content fuel id = .ok c) :
    ∃ c', t'.content fuel id = .ok c' ∧ (c' = c ∨ ∃ s, c' = .text s) := by
  induction fuel generalizing id with
  | zero => cases hc
  | succ fuel ih =>
    cases hn : t.get? id with
    | none =>
      rw [content_foreign hn] at hc
      cases hc
    | some n =>
      rcases h.same_or_scalar hn with hn' | ⟨n', hn', hk⟩
      · cases hk : n.kind with
        | scalar =>
          rw [content_scalar hn hk] at hc
          exact ⟨c, (content_scalar hn' hk fuel).trans hc, .inl rfl⟩
        | sequence =>
          rw [content_collection hn (.inl hk)] at hc
          exact ⟨c, (content_collection hn' (.inl hk) fuel).trans hc, .inl rfl⟩
        | mapping =>
          rw [content_collection hn (.inr hk)] at hc
          exact ⟨c, (content_collection hn' (.inr hk) fuel).trans hc, .inl rfl⟩
        | «alias» =>
          rw [content_alias hn hk] at hc
          rw [content_alias hn' hk]
          obtain ⟨r, hr, hc⟩ := bind_eq_ok hc
          obtain ⟨r', hr', rfl | ⟨m, hm, hmk⟩⟩ := h.aliased hr
          · rw [hr']
            exact ih hc
          · rw [hr']
            cases fuel with
            | zero => cases hc
            | succ fuel => exact ⟨_, content_scalar hm hmk fuel, .inr ⟨_, rfl⟩⟩
        | document =>
          by_cases hroot : id = root
          · subst hroot
            obtain rfl := Option.some.inj (t.get?_root.symm.trans hn)
            have hsame : t'.rootNode = t.rootNode := Option.some.inj (t'.get?_root.symm.trans hn')
            have hvalue : t'.rootValue? = t.rootValue? := by rw [rootValue?, hsame, rootValue?]
            rw [content_document hk] at hc
            rw [content_document (hsame ▸ hk), hvalue]
            cases hv : t.rootValue? with
            | none =>
              rw [hv] at hc
              exact ⟨c, hc, .inl rfl⟩
            | some v =>
              rw [hv] at hc
              exact ih hc
          · rw [content_nested hn hk hroot] at hc
            cases hc
      · exact ⟨_, content_scalar hn' hk fuel, .inr ⟨_, rfl⟩⟩

/-- Entries that could be put still can, if the values among them are still found. -/
theorem Flattens.putAll (h : t.Flattens t')
    (ih : ∀ c v, t.valueAt maxDepth room c = .ok v → ∃ v', t'.valueAt maxDepth room c = .ok v')
    {pairs : List (NodeId × Option NodeId)} {into entries : List (String × Value)}
    (hput : t.putAll maxDepth room into pairs = .ok entries) (into' : List (String × Value)) :
    ∃ entries', t'.putAll maxDepth room into' pairs = .ok entries' := by
  refine foldlM_ok ?_ into'
  rintro ⟨k, v⟩ hkv before
  obtain ⟨b, b', hstep⟩ := exists_of_foldlM hput (k, v) hkv
  cases v with
  | none =>
    obtain ⟨text, htext, -⟩ := map_eq_ok hstep
    obtain ⟨text', htext'⟩ := h.keyText htext
    exact ⟨_, congrArg (Except.map _) htext'⟩
  | some v =>
    obtain ⟨value, hvalue, hstep⟩ := bind_eq_ok hstep
    obtain ⟨text, htext, -⟩ := bind_eq_ok hstep
    obtain ⟨value', hvalue'⟩ := ih v value hvalue
    obtain ⟨text', htext'⟩ := h.keyText htext
    exact ⟨_, (bind_ok hvalue' _).trans (bind_ok htext' _)⟩

/-- The members of a collection still have values. -/
theorem Flattens.collectionAt (h : t.Flattens t')
    (ih : ∀ c v, t.valueAt maxDepth room c = .ok v → ∃ v', t'.valueAt maxDepth room c = .ok v')
    (hc : t.content contentSteps id = .ok (.collection n))
    (hc' : t'.content contentSteps id = .ok (.collection n)) {v : Value}
    (hv : t.valueAt maxDepth (room + 1) id = .ok v) :
    ∃ v', t'.valueAt maxDepth (room + 1) id = .ok v' := by
  rw [valueAt_of_content hc] at hv
  rw [valueAt_of_content hc']
  by_cases hs : (n.kind == .sequence) = true
  · simp only [hs, if_true] at hv ⊢
    obtain ⟨values, hvalues, -⟩ := map_eq_ok hv
    have hmembers : ∀ c ∈ n.children.toList, ∃ v', t'.valueAt maxDepth room c = .ok v' := by
      intro c hc
      obtain ⟨value, -, hvalue⟩ := exists_of_mapM hvalues c hc
      exact ih c value hvalue
    obtain ⟨values', hvalues'⟩ := mapM_ok hmembers
    exact ⟨_, congrArg (Except.map _) hvalues'⟩
  · simp only [hs] at hv ⊢
    obtain ⟨entries, hentries, -⟩ := map_eq_ok hv
    obtain ⟨entries', hentries'⟩ := h.putAll ih hentries []
    exact ⟨_, congrArg (Except.map _) hentries'⟩

/-- A node still has a value, if it has one as a collection. -/
theorem Flattens.valueAt_of (h : t.Flattens t') {v : Value} (hv : t.valueAt maxDepth room id = .ok v)
    (hcollection : ∀ n, t.content contentSteps id = .ok (.collection n) →
      t'.content contentSteps id = .ok (.collection n) →
      ∃ v', t'.valueAt maxDepth room id = .ok v') :
    ∃ v', t'.valueAt maxDepth room id = .ok v' := by
  rw [Tree.valueAt.eq_def] at hv
  obtain ⟨c, hc, -⟩ := bind_eq_ok hv
  obtain ⟨c', hc', rfl | ⟨s, rfl⟩⟩ := h.content hc
  · cases c' with
    | text s => exact ⟨_, valueAt_of_content hc' maxDepth room⟩
    | nothing => exact ⟨_, valueAt_of_content hc' maxDepth room⟩
    | collection n => exact hcollection n hc hc'
  · exact ⟨_, valueAt_of_content hc' maxDepth room⟩

/-- A node that had a value still has one. -/
theorem Flattens.valueAt (h : t.Flattens t') {v : Value} (hv : t.valueAt maxDepth room id = .ok v) :
    ∃ v', t'.valueAt maxDepth room id = .ok v' := by
  induction room generalizing id v with
  | zero =>
    refine h.valueAt_of hv ?_
    intro n hc _
    rw [valueAt_of_content hc] at hv
    cases hv
  | succ room ih =>
    refine h.valueAt_of hv ?_
    intro n hc hc'
    exact h.collectionAt (fun _ _ => ih) hc hc' hv

/-! ### Writing -/

/-- An entry that could be written still can, at any indentation. -/
theorem Flattens.writeEntry (h : t.Flattens t') {inner : Nat} {entry : NodeId × Option NodeId}
    (ih : ∀ c text, t.writeValue maxDepth room c indent .mapValue = .ok text →
      ∃ text', t'.writeValue maxDepth room c inner .mapValue = .ok text') {text : List Char}
    (hwritten : t.writeEntry maxDepth room indent entry = .ok text) :
    ∃ text', t'.writeEntry maxDepth room inner entry = .ok text' := by
  obtain ⟨k, v⟩ := entry
  obtain ⟨key, hkey, hwritten⟩ := bind_eq_ok hwritten
  obtain ⟨key', hkey'⟩ := h.writeKey hkey
  cases v with
  | none => exact ⟨_, bind_ok hkey' _⟩
  | some v =>
    obtain ⟨value, hvalue, -⟩ := bind_eq_ok hwritten
    obtain ⟨value', hvalue'⟩ := ih v value hvalue
    exact ⟨_, (bind_ok hkey' _).trans (bind_ok hvalue' _)⟩

/-- A node without members that could be written still can. -/
theorem Flattens.writeLeaf (h : t.Flattens t') (hn : t.get? id = some n)
    (hk : n.kind.isCollection = false) {text : List Char}
    (hwritten : t.writeValue maxDepth room id indent position = .ok text) (inner : Nat) :
    ∃ text', t'.writeValue maxDepth room id inner position = .ok text' := by
  rcases h.same_or_scalar hn with hn' | ⟨n', hn', hs⟩
  · cases hk' : n.kind with
    | scalar => exact ⟨_, writeValue_scalar hn' hk' ..⟩
    | «alias» =>
      rw [writeValue_alias hn hk'] at hwritten
      obtain ⟨r, hr, -⟩ := bind_eq_ok hwritten
      obtain ⟨r', hr', -⟩ := h.aliased hr
      rw [writeValue_alias hn' hk', hr']
      exact ⟨_, rfl⟩
    | document =>
      rw [writeValue_document hn hk'] at hwritten
      cases hwritten
    | sequence => simp [hk', Kind.isCollection] at hk
    | mapping => simp [hk', Kind.isCollection] at hk
  · exact ⟨_, writeValue_scalar hn' hs ..⟩

/-- A node that could be written still can, at any indentation. -/
theorem Flattens.writeValue (h : t.Flattens t') {text : List Char}
    (hwritten : t.writeValue maxDepth room id indent position = .ok text) (inner : Nat) :
    ∃ text', t'.writeValue maxDepth room id inner position = .ok text' := by
  induction room generalizing id indent position text inner with
  | zero =>
    obtain ⟨n, hn⟩ := exists_of_writeValue hwritten
    by_cases hc : n.kind.isCollection = true
    · rw [writeValue_zero hn hc] at hwritten
      cases hwritten
    · exact h.writeLeaf hn (by simpa using hc) hwritten inner
  | succ room ih =>
    obtain ⟨n, hn⟩ := exists_of_writeValue hwritten
    rcases h.same_or_scalar hn with hn' | ⟨n', hn', hs⟩
    · cases hk : n.kind with
      | sequence =>
        obtain ⟨before, hbefore⟩ := verdict_writeValue_sequence hn hk maxDepth room indent position
        obtain ⟨after, hafter⟩ := verdict_writeValue_sequence hn' hk maxDepth room inner position
        rw [hwritten] at hbefore
        obtain ⟨texts, htexts⟩ := verdict_eq_ok.mp hbefore.symm
        rw [← verdict_eq_ok, hafter, verdict_eq_ok]
        refine mapM_ok ?_
        intro c hc
        obtain ⟨item, -, hitem⟩ := exists_of_mapM htexts c hc
        obtain ⟨member, hmember, -⟩ := bind_eq_ok hitem
        rw [← verdict_eq_ok, verdict_writeItem, verdict_eq_ok]
        exact ih hmember after
      | mapping =>
        obtain ⟨before, hbefore⟩ := verdict_writeValue_mapping hn hk maxDepth room indent position
        obtain ⟨after, hafter⟩ := verdict_writeValue_mapping hn' hk maxDepth room inner position
        rw [hwritten] at hbefore
        obtain ⟨texts, htexts⟩ := verdict_eq_ok.mp hbefore.symm
        rw [← verdict_eq_ok, hafter, verdict_eq_ok]
        refine mapM_ok ?_
        intro entry hentry
        obtain ⟨item, -, hitem⟩ := exists_of_mapM htexts entry hentry
        exact h.writeEntry (fun _ _ hvalue => ih hvalue after) hitem
      | _ => exact h.writeLeaf hn (by rw [hk]; rfl) hwritten inner
    · exact ⟨_, writeValue_scalar hn' hs ..⟩

/-! ### The document -/

/-- A document that had a value still has one. -/
theorem Flattens.value (h : t.Flattens t') {v : Value} (hv : t.value maxDepth = .ok v) :
    ∃ v', t'.value maxDepth = .ok v' := h.valueAt hv

/-- The value of the document is the same node. -/
theorem Flattens.rootValue? (h : t.Flattens t') : t'.rootValue? = t.rootValue? := by
  obtain ⟨n', hn', hf⟩ := h.of_get? t.get?_root
  obtain rfl := Option.some.inj (t'.get?_root.symm.trans hn')
  rw [Tree.rootValue?, Tree.rootValue?, hf.children]

/-- A document that could be written still can. -/
theorem Flattens.write (h : t.Flattens t') {text : String} (hwritten : t.write maxDepth = .ok text) :
    ∃ text', t'.write maxDepth = .ok text' := by
  cases hc : t.rootValue? with
  | none =>
    rw [Tree.write, h.rootValue?, hc]
    exact ⟨"", rfl⟩
  | some c =>
    rw [write_eq hc] at hwritten
    obtain ⟨value, hvalue, -⟩ := map_eq_ok hwritten
    obtain ⟨value', hvalue'⟩ := h.writeValue hvalue 0
    rw [write_eq (h.rootValue?.trans hc), hvalue']
    exact ⟨_, rfl⟩

end Tree

namespace Settings

/-- Where children are nodes of the tree and do not lead back, flattening ends, and the plain walk comes
to its result.  At any ceiling the document has a value then if it had one before, and can be written
if it could be written before, wherever aliases lead. -/
theorem flatten_survives (s : Settings) {t : Tree} (hin : t.Inside) (hac : t.Acyclic) (maxDepth : Nat) :
    ∃ t' count, s.flatten t = ⟨t', count, none⟩ ∧
      ReflTransGen (Visit.Step s.isExtensionTag) ⟨[Tree.root], t, 0⟩ ⟨[], t', count⟩ ∧
      ((∃ v, t.value maxDepth = .ok v) → ∃ v, t'.value maxDepth = .ok v) ∧
      ((∃ text, t.write maxDepth = .ok text) → ∃ text, t'.write maxDepth = .ok text) := by
  have hflat := Tree.flattens_flatten t s.isExtensionTag
  refine ⟨_, _, s.flatten_eq hin, Tree.visits_flatten rfl hin hac, ?_, ?_⟩
  · rintro ⟨v, hv⟩
    exact hflat.value hv
  · rintro ⟨text, htext⟩
    exact hflat.write htext

/-- The second of two aliases in a chain is flattened, and so is a child of two nodes; other aliases
lead nowhere. -/
theorem flatten_survives_chain :
    let t : Tree := ⟨#[{ kind := .document, children := #[1] },
      { kind := .sequence, children := #[3, 4, 5, 2] }, { kind := .mapping, children := #[4, 3] },
      { kind := .sequence, tag := "!Find", children := #[6] },
      { kind := .alias, value := "x", target := some 5 },
      { kind := .alias, tag := "!Link", value := "y", target := some 7 },
      { kind := .scalar, value := "a" }, { kind := .sequence },
      { kind := .alias, value := "z", target := some 8 },
      { kind := .alias, value := "z", target := some 10 }], by decide⟩
    (t.Inside ∧ t.Acyclic) ∧
      t.value 3 = .ok (.list [.list [.text "a"], .list [], .list [], .map [("", .list [.text "a"])]]) ∧
      t.write 3 = .ok "- !Find\n  - a\n- *x\n- *y\n- *x : !Find\n      - a\n" ∧
      ∃ t', default.flatten t = ⟨t', 2, none⟩ ∧ (∃ v, t'.value 3 = .ok v) ∧
        ∃ text, t'.write 3 = .ok text := by
  intro t
  have hchildren : ∀ p < t.size, ∀ c ∈ t.members p, p < c ∧ c < t.size := by decide
  have hchild : ∀ p c, t.Child p c → p < c ∧ c < t.size := fun p c h => hchildren p h.lt_size c h
  have hin : t.Inside := fun p c h => (hchild p c h).2
  have hac : t.Acyclic := Tree.acyclic_of_lt fun p c h => (hchild p c h).1
  have hvalue : t.value 3 =
      .ok (.list [.list [.text "a"], .list [], .list [], .map [("", .list [.text "a"])]]) := by
    cbv
  have hwrite : t.write 3 = .ok "- !Find\n  - a\n- *x\n- *y\n- *x : !Find\n      - a\n" := by
    decide +kernel
  have hcount : (default.flatten t).count = 2 := by decide +kernel
  obtain ⟨t', count, hflat, -, hvalue', hwrite'⟩ := default.flatten_survives hin hac 3
  rw [hflat] at hcount
  obtain rfl : count = 2 := hcount
  exact ⟨⟨hin, hac⟩, hvalue, hwrite, t', hflat, hvalue' ⟨_, hvalue⟩, hwrite' ⟨_, hwrite⟩⟩

end Settings

end TaggedYaml
