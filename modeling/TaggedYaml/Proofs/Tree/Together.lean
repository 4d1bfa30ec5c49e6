import TaggedYaml.Proofs.Tree.Calls

/-!
# Together — a tree is written where it has a value

Writing and taking the value are two recursions over the same nodes.  They meet an error at the same
place, as long as no alias is followed: a key that is written fails with the same error as its text
does, and the ceiling is met at the same node (`verdict_valueAt`).  An alias is only looked up when it
is written, so a tree may be written though it has no value, but not the other way round
(`writeValue_of_valueAt`).
-/

namespace TaggedYaml

namespace Tree

variable {t : Tree} {maxDepth room indent : Nat} {position : Position} {id c : NodeId} {n : Node}

/-- Neither a node nor one below it is an alias. -/
def Unaliased (t : Tree) (id : NodeId) : Prop :=
  ∀ y n, t.Below id y → t.get? y = some n → n.kind ≠ .alias

theorem Unaliased.child (h : t.Unaliased id) (hc : t.Child id c) : t.Unaliased c :=
  fun y n hy hn => h y n (.head hc hy) hn

/-! ### Members -/

/-- A sequence is written if its items are, at some indentation. -/
theorem verdict_writeValue_sequence (hn : t.get? id = some n) (hk : n.kind = .sequence)
    (maxDepth room indent : Nat) (position : Position) :
    ∃ inner, verdict (t.writeValue maxDepth (room + 1) id indent position) =
      verdict (n.children.toList.mapM (t.writeItem maxDepth room inner)) := by
  rw [writeValue_sequence hn hk]
  split
  · rename_i hempty
    have hnil : n.children.toList = [] := by simpa using hempty
    refine ⟨indent, ?_⟩
    rw [hnil]
    rfl
  · exact ⟨_, verdict_map _ _⟩

/-- A mapping is written if its entries are, at some indentation. -/
theorem verdict_writeValue_mapping (hn : t.get? id = some n) (hk : n.kind = .mapping)
    (maxDepth room indent : Nat) (position : Position) :
    ∃ inner, verdict (t.writeValue maxDepth (room + 1) id indent position) =
      verdict ((inPairs n.children.toList).mapM (t.writeEntry maxDepth room inner)) := by
  rw [writeValue_mapping hn hk]
  split
  · rename_i hempty
    have hnil : n.children.toList = [] := by simpa using hempty
    refine ⟨indent, ?_⟩
    rw [hnil]
    rfl
  · exact ⟨_, verdict_map _ _⟩

theorem verdict_writeItem :
    verdict (t.writeItem maxDepth room indent c) =
      verdict (t.writeValue maxDepth room c indent .seqItem) := by
  rw [writeItem]
  cases t.writeValue maxDepth room c indent .seqItem <;> rfl

theorem writeEntry_none (maxDepth room indent : Nat) (k : NodeId) :
    t.writeEntry maxDepth room indent (k, none) =
      (t.writeKey k).map fun key => key ++ ':' :: ['\n'] := rfl

theorem writeEntry_some (maxDepth room indent : Nat) (k v : NodeId) :
    t.writeEntry maxDepth room indent (k, some v) = t.writeKey k >>= fun key =>
      (t.writeValue maxDepth room v indent .mapValue).map fun value => key ++ ':' :: value := rfl

/-- The text of a key is known where the key can be written. -/
theorem verdict_keyText (hn : t.get? id = some n) :
    verdict (t.keyText id) = verdict (t.writeKey id) := by
  by_cases ha : n.kind = .alias
  · have hb : (n.kind == .alias) = true := by simpa using ha
    rw [writeKey_alias hn ha, keyText, bind_ok (node_eq_ok.mpr hn), if_pos hb]
    cases hr : t.resolve? id with
    | none =>
      rw [aliased_of_none hr]
      rfl
    | some r =>
      obtain ⟨m, hm, -⟩ := exists_of_follow hr
      rw [aliased_eq_ok.mpr hr, bind_ok rfl, bind_ok (node_eq_ok.mpr hm)]
      rfl
  · have hb : (n.kind == .alias) = false := by simpa using ha
    rw [keyText, bind_ok (node_eq_ok.mpr hn), hb]
    by_cases hs : n.kind = .scalar
    · rw [writeKey_scalar hn hs]
      rfl
    · rw [writeKey_other hn hs ha]
      rfl

/-! ### Without aliases -/

/-- An entry is put where it is written, if its value is: what comes first does not matter, since the
key is no alias. -/
theorem verdict_putStep {k : NodeId} {v : Option NodeId} {entries : List (String × Value)}
    (hn : t.get? k = some n) (hk : n.kind ≠ .alias)
    (hv : ∀ c ∈ v, verdict (t.valueAt maxDepth room c) =
      verdict (t.writeValue maxDepth room c indent .mapValue)) :
    verdict (t.putStep (t.valueAt maxDepth room) entries (k, v)) =
      verdict (t.writeEntry maxDepth room indent (k, v)) := by
  obtain ⟨text, htext⟩ : ∃ text, t.keyText k = .ok text := by
    have hb : (n.kind == .alias) = false := by simpa using hk
    refine ⟨n.value, ?_⟩
    rw [keyText, bind_ok (node_eq_ok.mpr hn), hb]
    rfl
  obtain ⟨written, hwritten⟩ : ∃ written, t.writeKey k = .ok written := by
    rw [← verdict_eq_ok, ← verdict_keyText hn, htext]
    rfl
  cases v with
  | none =>
    rw [putStep_none, writeEntry_none, htext, hwritten]
    rfl
  | some c =>
    rw [putStep_some, writeEntry_some, htext, bind_ok hwritten, verdict_map, ← hv c rfl]
    cases t.valueAt maxDepth room c <;> rfl

theorem verdict_leaf (hn : t.get? id = some n) (hne : id ≠ root) (ha : n.kind ≠ .alias)
    (hc : n.kind.isCollection = false) :
    verdict (t.valueAt maxDepth room id) =
      verdict (t.writeValue maxDepth room id indent position) := by
  cases hk : n.kind with
  | scalar =>
    rw [valueAt_scalar hn hk, writeValue_scalar hn hk]
    rfl
  | «alias» => exact absurd hk ha
  | document =>
    rw [valueAt_nested hn hk hne, writeValue_document hn hk]
    rfl
  | sequence => simp [hk, Kind.isCollection] at hc
  | mapping => simp [hk, Kind.isCollection] at hc

/-- Without aliases a node has a value where it can be written, and else both fail alike. -/
theorem verdict_valueAt (hin : t.Inside) (hroot : ∀ p, ¬ t.Child p root) : ∀ {room : Nat} {id : NodeId}
    {indent : Nat} {position : Position}, id < t.size → id ≠ root → t.Unaliased id →
    verdict (t.valueAt maxDepth room id) =
      verdict (t.writeValue maxDepth room id indent position) := by
  intro room
  induction room with
  | zero =>
    intro id indent position hid hne hno
    obtain ⟨n, hn⟩ := exists_get? hid
    by_cases hc : n.kind.isCollection = true
    · rw [valueAt_zero hn hc, writeValue_zero hn hc]
      rfl
    · exact verdict_leaf hn hne (hno id n .refl hn) (by simpa using hc)
  | succ room ih =>
    intro id indent position hid hne hno
    obtain ⟨n, hn⟩ := exists_get? hid
    have hmember {c : NodeId} {inner : Nat} {place : Position} (hc : c ∈ n.children.toList) :
        verdict (t.valueAt maxDepth room c) = verdict (t.writeValue maxDepth room c inner place) := by
      have hchild := child_of_mem hn hc
      exact ih (hin id c hchild) (ne_root_of_child hroot hchild) (hno.child hchild)
    cases hk : n.kind with
    | sequence =>
      obtain ⟨inner, hwritten⟩ := verdict_writeValue_sequence hn hk maxDepth room indent position
      rw [hwritten, valueAt_sequence hn hk, verdict_map]
      refine verdict_mapM ?_
      intro c hc
      rw [verdict_writeItem]
      exact hmember hc
    | mapping =>
      obtain ⟨inner, hwritten⟩ := verdict_writeValue_mapping hn hk maxDepth room indent position
      rw [hwritten, valueAt_mapping hn hk, verdict_map]
      refine verdict_foldlM ?_
      rintro ⟨k, v⟩ hkv entries
      obtain ⟨hmem, hvalue⟩ := mem_inPairs hkv
      have hchild := child_of_mem hn hmem
      obtain ⟨m, hm⟩ := hin.get? hchild
      refine verdict_putStep hm (hno k m (.single hchild) hm) ?_
      intro c hc
      exact hmember (hvalue c hc)
    | _ => exact verdict_leaf hn hne (hno id n .refl hn) (by rw [hk]; rfl)

/-! ### With aliases -/

theorem exists_writeEntry {k : NodeId} {v : Option NodeId} {entries entries' : List (String × Value)}
    (hn : t.get? k = some n) (hput : t.putStep (t.valueAt maxDepth room) entries (k, v) = .ok entries')
    (hv : ∀ c ∈ v, ∀ value, t.valueAt maxDepth room c = .ok value →
      ∃ text, t.writeValue maxDepth room c indent .mapValue = .ok text) :
    ∃ text, t.writeEntry maxDepth room indent (k, v) = .ok text := by
  have hkey {text : String} (htext : t.keyText k = .ok text) : ∃ written, t.writeKey k = .ok written := by
    rw [← verdict_eq_ok, ← verdict_keyText hn, htext]
    rfl
  cases v with
  | none =>
    rw [putStep_none] at hput
    obtain ⟨text, htext, -⟩ := map_eq_ok hput
    obtain ⟨written, hwritten⟩ := hkey htext
    rw [writeEntry_none, hwritten]
    exact ⟨_, rfl⟩
  | some c =>
    rw [putStep_some] at hput
    obtain ⟨value, hvalue, hput⟩ := bind_eq_ok hput
    obtain ⟨text, htext, -⟩ := map_eq_ok hput
    obtain ⟨written, hwritten⟩ := hkey htext
    obtain ⟨member, hmember⟩ := hv c rfl value hvalue
    rw [writeEntry_some, bind_ok hwritten, hmember]
    exact ⟨_, rfl⟩

theorem writeValue_leaf (hn : t.get? id = some n) (hne : id ≠ root)
    (hc : n.kind.isCollection = false) {v : Value} (hv : t.valueAt maxDepth room id = .ok v) :
    ∃ text, t.writeValue maxDepth room id indent position = .ok text := by
  by_cases ha : n.kind = .alias
  · rw [valueAt_alias hn ha] at hv
    obtain ⟨r, hr, -⟩ := bind_eq_ok hv
    rw [writeValue_alias hn ha, hr]
    exact ⟨_, rfl⟩
  · rw [← verdict_eq_ok, ← verdict_leaf hn hne ha hc, hv]
    rfl

/-- A node that has a value can be written. -/
theorem writeValue_of_valueAt (hin : t.Inside) (hroot : ∀ p, ¬ t.Child p root) : ∀ {room : Nat}
    {id : NodeId} {indent : Nat} {position : Position} {v : Value}, id < t.size → id ≠ root →
    t.valueAt maxDepth room id = .ok v →
    ∃ text, t.writeValue maxDepth room id indent position = .ok text := by
  intro room
  induction room with
  | zero =>
    intro id indent position v hid hne hv
    obtain ⟨n, hn⟩ := exists_get? hid
    by_cases hc : n.kind.isCollection = true
    · rw [valueAt_zero hn hc] at hv
      cases hv
    · exact writeValue_leaf hn hne (by simpa using hc) hv
  | succ room ih =>
    intro id indent position v hid hne hv
    obtain ⟨n, hn⟩ := exists_get? hid
    have hmember {c : NodeId} {inner : Nat} {place : Position} {value : Value}
        (hc : c ∈ n.children.toList) (hvalue : t.valueAt maxDepth room c = .ok value) :
        ∃ text, t.writeValue maxDepth room c inner place = .ok text := by
      have hchild := child_of_mem hn hc
      exact ih (hin id c hchild) (ne_root_of_child hroot hchild) hvalue
    cases hk : n.kind with
    | sequence =>
      rw [valueAt_sequence hn hk] at hv
      obtain ⟨values, hvalues, -⟩ := map_eq_ok hv
      obtain ⟨inner, hwritten⟩ := verdict_writeValue_sequence hn hk maxDepth room indent position
      rw [← verdict_eq_ok, hwritten, verdict_eq_ok]
      refine mapM_ok ?_
      intro c hc
      obtain ⟨value, -, hvalue⟩ := exists_of_mapM hvalues c hc
      rw [← verdict_eq_ok, verdict_writeItem, verdict_eq_ok]
      exact hmember hc hvalue
    | mapping =>
      rw [valueAt_mapping hn hk] at hv
      obtain ⟨entries, hentries, -⟩ := map_eq_ok hv
      obtain ⟨inner, hwritten⟩ := verdict_writeValue_mapping hn hk maxDepth room indent position
      rw [← verdict_eq_ok, hwritten, verdict_eq_ok]
      refine mapM_ok ?_
      rintro ⟨k, v⟩ hkv
      obtain ⟨hmem, hvalue⟩ := mem_inPairs hkv
      obtain ⟨m, hm⟩ := hin.get? (child_of_mem hn hmem)
      obtain ⟨before, after, hput⟩ := exists_of_foldlM hentries (k, v) hkv
      refine exists_writeEntry hm hput ?_
      intro c hc value hvalue'
      exact hmember (hvalue c hc) hvalue'
    | _ => exact writeValue_leaf hn hne (by rw [hk]; rfl) hv

/-! ### The document -/

/-- The value of a document is that of its first child, which is what is written of it. -/
theorem value_eq (hk : t.rootNode.kind = .document) :
    t.value maxDepth = t.rootValue?.elim (.ok (.map [])) (t.valueAt maxDepth maxDepth) :=
  valueAt_document hk

theorem write_eq (hv : t.rootValue? = some c) :
    t.write maxDepth = (t.writeValue maxDepth maxDepth c 0 .top).map String.ofList := by
  rw [write, hv]
  rfl

theorem write_of_value (hin : t.Inside) (hk : t.rootNode.kind = .document)
    (hroot : ∀ p, ¬ t.Child p root) {v : Value} (hv : t.value maxDepth = .ok v) :
    ∃ text, t.write maxDepth = .ok text := by
  rw [value_eq hk] at hv
  cases hc : t.rootValue? with
  | none =>
    rw [write, hc]
    exact ⟨"", rfl⟩
  | some c =>
    rw [hc, Option.elim_some] at hv
    have hchild := child_of_rootValue hc
    have hne := ne_root_of_child hroot hchild
    obtain ⟨text, htext⟩ := writeValue_of_valueAt hin hroot (hin root c hchild) hne hv
    rw [write_eq hc, htext]
    exact ⟨_, rfl⟩

theorem verdict_value (hin : t.Inside) (hk : t.rootNode.kind = .document)
    (hroot : ∀ p, ¬ t.Child p root) (hno : t.Unaliased root) :
    verdict (t.value maxDepth) = verdict (t.write maxDepth) := by
  rw [value_eq hk]
  cases hc : t.rootValue? with
  | none =>
    rw [write, hc]
    rfl
  | some c =>
    have hchild := child_of_rootValue hc
    have hne := ne_root_of_child hroot hchild
    rw [write_eq hc, verdict_map, Option.elim_some]
    exact verdict_valueAt hin hroot (hin root c hchild) hne (hno.child hchild)

/-- A document has no end of calls only if the root is a child, or an alias leads to it. -/
theorem not_endless (hroot : ∀ p, ¬ t.Child p root)
    (halias : ∀ id n, t.get? id = some n → n.kind = .alias → t.resolve? id ≠ some root) :
    ¬ t.Endless := by
  rintro ⟨-, c, hc, hr⟩
  rcases alias_or_root hr with ⟨n, hn, ha⟩ | rfl
  · exact halias c n hn ha hr
  · exact hroot root (child_of_rootValue hc)

/-- Whatever the children below the document are: where it has a value it can be written, and if no
alias is below it, a document that has no value is not written either, for the same reason. -/
theorem value_write (hin : t.Inside) (hk : t.rootNode.kind = .document)
    (hroot : ∀ p, ¬ t.Child p root)
    (halias : ∀ id n, t.get? id = some n → n.kind = .alias → t.resolve? id ≠ some root)
    (maxDepth : Nat) :
    ((∃ v, t.value maxDepth = .ok v) → ∃ text, t.write maxDepth = .ok text) ∧
      ((∀ id n, t.Below root id → t.get? id = some n → n.kind ≠ .alias) →
        ((∃ v, t.value maxDepth = .ok v) ∧ ∃ text, t.write maxDepth = .ok text) ∨
        ∃ e, t.value maxDepth = .error e ∧ t.write maxDepth = .error e ∧ t.Refusal maxDepth e) := by
  refine ⟨?_, ?_⟩
  · rintro ⟨v, hv⟩
    exact write_of_value hin hk hroot hv
  · intro hno
    have hverdict : verdict (t.value maxDepth) = verdict (t.write maxDepth) :=
      verdict_value hin hk hroot hno
    rcases ends_of_verdict hverdict with hok | hfail
    · exact .inl hok
    · obtain ⟨e, hvalue, hwrite⟩ := hfail
      exact .inr ⟨e, hvalue, hwrite,
        refusal_of_valueAt hin (not_endless hroot halias) (root, 0) t.size_pos hvalue⟩

/-- The value of an entry is the mapping that the entry stands in. -/
theorem value_write_round :
    let t : Tree := ⟨#[{ kind := .document, children := #[1] },
      { kind := .mapping, children := #[2, 1, 2, 3] }, { kind := .scalar, value := "a" },
      { kind := .document }], by decide⟩
    (t.Inside ∧ t.rootNode.kind = .document ∧ ∀ p, ¬ t.Child p root) ∧
      (∀ id n, t.get? id = some n → n.kind = .alias → t.resolve? id ≠ some root) ∧
      t.value 5 = .error (.depthExceeded 5) ∧ t.write 5 = .error (.depthExceeded 5) := by
  intro t
  have hchildren : ∀ p < t.size, ∀ c ∈ t.members p, c < t.size ∧ c ≠ root := by decide
  have hin : t.Inside := fun p c h => (hchildren p h.lt_size c h).1
  have hroot : ∀ p, ¬ t.Child p root := fun p h => (hchildren p h.lt_size root h).2 rfl
  have hkinds : ∀ n ∈ t.nodes, n.kind ≠ .alias := by decide
  have hno : ∀ id n, t.get? id = some n → n.kind ≠ .alias :=
    fun _ n hn => hkinds n (Array.mem_of_getElem? hn)
  have halias : ∀ id n, t.get? id = some n → n.kind = .alias → t.resolve? id ≠ some root :=
    fun id n hn hk => absurd hk (hno id n hn)
  have hfail : t.value 5 = .error (.depthExceeded 5) := verdict_eq_error.mp (by decide +kernel)
  obtain ⟨-, halike⟩ := value_write hin rfl hroot halias 5
  rcases halike fun id n _ hn => hno id n hn with ⟨⟨v, hv⟩, -⟩ | ⟨e, hvalue, hwrite, -⟩
  · rw [hfail] at hv
    cases hv
  · obtain rfl := Except.error.inj (hfail.symm.trans hvalue)
    exact ⟨⟨hin, rfl, hroot⟩, halias, hvalue, hwrite⟩

end Tree

end TaggedYaml
