import TaggedYaml.Proofs.Tree.Legible

/-!
# Places — tags that are read back where they were written

A node that is written stands at a place, which is the way to it from the value of the document
(`shown_iff_writtenAt`), and at a place there is one node (`WrittenAt.unique`).  What is written of a
text reads back as a tree that has, at the places of tagged nodes, nodes with the same tags, as long as
the tags are ones that can be written without escapes (`tags_write`).
-/

namespace TaggedYaml

/-- A member of a collection, by the position of the item or of the entry. -/
inductive Member where
  | item (i : Nat)
  | key (i : Nat)
  | value (i : Nat)
deriving DecidableEq, Repr

namespace Tree

variable {t t' : Tree} {id c x y v : NodeId} {n m : Node} {place : List Member}

/-- The way from a node to one that is written within it. -/
inductive Leads (t : Tree) : NodeId → List Member → NodeId → Prop where
  | here (id : NodeId) : Leads t id [] id
  | item {id c x : NodeId} {n : Node} {i : Nat} {place : List Member} : t.get? id = some n →
    n.kind = .sequence → n.children.toList[i]? = some c → Leads t c place x →
    Leads t id (.item i :: place) x
  | key {id k : NodeId} {v : Option NodeId} {n m : Node} {i : Nat} : t.get? id = some n →
    n.kind = .mapping → (inPairs n.children.toList)[i]? = some (k, v) → t.get? k = some m →
    m.kind = .scalar ∨ m.kind = .alias → Leads t id [.key i] k
  | value {id k v x : NodeId} {n : Node} {i : Nat} {place : List Member} : t.get? id = some n →
    n.kind = .mapping → (inPairs n.children.toList)[i]? = some (k, some v) → Leads t v place x →
    Leads t id (.value i :: place) x

/-- The place of a node that is written. -/
def WrittenAt (t : Tree) (place : List Member) (x : NodeId) : Prop :=
  ∃ v, t.rootValue? = some v ∧ t.Leads v place x

/-! ### Places of nodes -/

theorem Leads.unique (h : t.Leads id place x) (h' : t.Leads id place y) : x = y := by
  induction h with
  | here id =>
    cases h'
    rfl
  | item hn _ hc _ ih =>
    cases h' with
    | item hn' _ hc' h' =>
      obtain rfl := Option.some.inj (hn.symm.trans hn')
      obtain rfl := Option.some.inj (hc.symm.trans hc')
      exact ih h'
  | key hn _ hk _ _ =>
    cases h' with
    | key hn' _ hk' _ _ =>
      obtain rfl := Option.some.inj (hn.symm.trans hn')
      exact (Prod.mk.inj (Option.some.inj (hk.symm.trans hk'))).1
  | value hn _ hv _ ih =>
    cases h' with
    | value hn' _ hv' h' =>
      obtain rfl := Option.some.inj (hn.symm.trans hn')
      obtain ⟨-, hv⟩ := Prod.mk.inj (Option.some.inj (hv.symm.trans hv'))
      obtain rfl := Option.some.inj hv
      exact ih h'

/-- At a place there is one node. -/
theorem WrittenAt.unique (h : t.WrittenAt place x) (h' : t.WrittenAt place y) : x = y := by
  obtain ⟨v, hv, h⟩ := h
  obtain ⟨w, hw, h'⟩ := h'
  obtain rfl := Option.some.inj (hv.symm.trans hw)
  exact h.unique h'

/-- One step more; there is none from a key, which is no collection. -/
theorem Leads.append {more : List Member} (h : t.Leads id place c) (h' : t.Leads c more x) :
    t.Leads id (place ++ more) x := by
  induction h with
  | here id => exact h'
  | item hn hk hc _ ih => exact .item hn hk hc (ih h')
  | value hn hk hv _ ih => exact .value hn hk hv (ih h')
  | key hn hk hp hm hkey =>
    cases h' with
    | here => exact .key hn hk hp hm hkey
    | _ hm' hk' =>
      obtain rfl := Option.some.inj (hm.symm.trans hm')
      rw [hk'] at hkey
      exact absurd hkey (by decide)

theorem Leads.shown (h : t.Leads id place x) (hs : t.Shown id) : t.Shown x := by
  induction h with
  | here => exact hs
  | item hn hk hc _ ih => exact ih (.item hs hn hk (List.mem_of_getElem? hc))
  | key hn hk hp hm hkey => exact .key hs hn hk (List.mem_of_getElem? hp) hm hkey
  | value hn hk hv _ ih => exact ih (.entry hs hn hk (List.mem_of_getElem? hv))

/-- What is written with its names has a place. -/
theorem shown_iff_writtenAt : t.Shown x ↔ ∃ place, t.WrittenAt place x := by
  constructor
  · intro h
    induction h with
    | value hv => exact ⟨[], _, hv, .here _⟩
    | item _ hn hk hc ih =>
      obtain ⟨place, v, hv, hp⟩ := ih
      obtain ⟨i, hi⟩ := List.getElem?_of_mem hc
      exact ⟨_, v, hv, hp.append (.item hn hk hi (.here _))⟩
    | key _ hn hk hc hm hkey ih =>
      obtain ⟨place, v, hv, hp⟩ := ih
      obtain ⟨i, hi⟩ := List.getElem?_of_mem hc
      exact ⟨_, v, hv, hp.append (.key hn hk hi hm hkey)⟩
    | entry _ hn hk hc ih =>
      obtain ⟨place, v, hv, hp⟩ := ih
      obtain ⟨i, hi⟩ := List.getElem?_of_mem hc
      exact ⟨_, v, hv, hp.append (.value hn hk hi (.here _))⟩
  · rintro ⟨place, v, hv, h⟩
    exact h.shown (.value hv)

/-! ### Members of shapes -/

theorem exists_denotes_item : ∀ {items : List Shape} {ids : List NodeId} {i : Nat},
    t.DenotesItems ids items → ids[i]? = some c → ∃ s, items[i]? = some s ∧ t.Denotes c s
  | [], ids, i, hd, hc => by
    obtain rfl : ids = [] := hd
    cases hc
  | s :: _, ids, 0, hd, hc => by
    obtain ⟨id, ids, rfl, hs, -⟩ := hd
    obtain rfl : id = c := by simpa using hc
    exact ⟨s, rfl, hs⟩
  | s :: _, ids, i + 1, hd, hc => by
    obtain ⟨id, ids, rfl, -, hrest⟩ := hd
    rw [List.getElem?_cons_succ] at hc ⊢
    exact exists_denotes_item hrest hc

theorem exists_bears_item {s : Shape} : ∀ {items : List Shape} {ids : List NodeId} {i : Nat},
    t.BearsItems ids (Shape.rereadItems items) → items[i]? = some s →
    ∃ c, ids[i]? = some c ∧ t.Bears c s.reread
  | [], _, _, _, hs => by cases hs
  | s' :: _, ids, 0, hb, hs => by
    obtain ⟨id, ids, rfl, hb, -⟩ := hb
    obtain rfl : s' = s := by simpa using hs
    exact ⟨id, rfl, hb⟩
  | s' :: _, ids, i + 1, hb, hs => by
    obtain ⟨id, ids, rfl, -, hrest⟩ := hb
    rw [List.getElem?_cons_succ] at hs ⊢
    exact exists_bears_item hrest hs

theorem exists_denotes_entry {w : Option NodeId} : ∀ {entries : List (Key × Shape)}
    {pairs : List (NodeId × Option NodeId)} {i : Nat}, t.DenotesEntries pairs entries →
    pairs[i]? = some (c, w) →
    ∃ k s, entries[i]? = some (k, s) ∧ t.DenotesKey c k ∧ ∀ v ∈ w, t.Denotes v s
  | [], pairs, i, hd, hc => by
    obtain rfl : pairs = [] := hd
    cases hc
  | (k, s) :: _, pairs, 0, hd, hc => by
    obtain ⟨id, v, pairs, rfl, hk, hv, -⟩ := hd
    obtain ⟨rfl, rfl⟩ : id = c ∧ v = w := by simpa using hc
    exact ⟨k, s, rfl, hk, hv⟩
  | _ :: _, pairs, i + 1, hd, hc => by
    obtain ⟨id, v, pairs, rfl, -, -, -, hrest⟩ := hd
    rw [List.getElem?_cons_succ] at hc ⊢
    exact exists_denotes_entry hrest hc

theorem exists_bears_entry {k : Key} {s : Shape} : ∀ {entries : List (Key × Shape)}
    {pairs : List (NodeId × Option NodeId)} {i : Nat},
    t.BearsEntries pairs (Shape.rereadEntries entries) → entries[i]? = some (k, s) →
    ∃ c v, pairs[i]? = some (c, some v) ∧ t.BearsKey c k.reread ∧ t.Bears v s.reread
  | [], _, _, _, hs => by cases hs
  | (k', s') :: _, pairs, 0, hb, hs => by
    obtain ⟨id, v, pairs, rfl, hk, hv, -⟩ := hb
    obtain ⟨rfl, rfl⟩ : k' = k ∧ s' = s := by simpa using hs
    exact ⟨id, v, rfl, hk, hv⟩
  | _ :: _, pairs, i + 1, hb, hs => by
    obtain ⟨id, v, pairs, rfl, -, -, hrest⟩ := hb
    rw [List.getElem?_cons_succ] at hs ⊢
    exact exists_bears_entry hrest hs

/-! ### Nodes that are read back -/

/-- A node is read back as one of the same kind, with the same tag if one is written and, if it is a
scalar, with the same text. -/
structure Returns (n n' : Node) : Prop where
  kind : n'.kind = n.kind
  tag : n.kind ≠ .alias → n.hasOwnTag = true → n'.tag = n.tag
  value : n.kind = .scalar → n'.value = n.value

theorem tag_of_face {n' : Node} (hf : n'.face.tag = n.face.writtenTag) (htag : n.hasOwnTag = true) :
    n'.tag = n.tag :=
  Eq.trans hf (if_pos htag)

theorem returns_scalar {n' : Node} {style : Style} (hk : n.kind = .scalar) (hk' : n'.kind = .scalar)
    (hf : n'.face = n.face.restyled style) : Returns n n' :=
  ⟨hk'.trans hk.symm, fun _ => tag_of_face (congrArg Face.tag hf), fun _ => congrArg Face.text hf⟩

/-- Of a scalar the tag and the text are read back, of a collection the tag. -/
theorem exists_returns {s : Shape} {id' : NodeId} (hd : t.Denotes id s) (hb : t'.Bears id' s.reread)
    (hn : t.get? id = some n) : ∃ n', t'.get? id' = some n' ∧ Returns n n' := by
  cases s with
  | scalar f =>
    obtain ⟨m, hm, hk, rfl⟩ := hd
    obtain ⟨n', hn', hk', hf⟩ := hb
    obtain rfl := Option.some.inj (hn.symm.trans hm)
    exact ⟨n', hn', returns_scalar hk hk' hf⟩
  | «alias» name =>
    obtain ⟨m, hm, hk, -⟩ := hd
    obtain ⟨n', hn', hk', -⟩ := hb
    obtain rfl := Option.some.inj (hn.symm.trans hm)
    exact ⟨n', hn', hk'.trans hk.symm, fun hna => absurd hk hna, fun hs => by rw [hk] at hs; cases hs⟩
  | sequence f items =>
    obtain ⟨m, hm, hk, rfl, -⟩ := hd
    obtain ⟨n', hn', hk', hf, -⟩ := hb
    obtain rfl := Option.some.inj (hn.symm.trans hm)
    exact ⟨n', hn', hk'.trans hk.symm, fun _ => tag_of_face (congrArg Face.tag hf),
      fun hs => by rw [hk] at hs; cases hs⟩
  | mapping f entries =>
    obtain ⟨m, hm, hk, rfl, -⟩ := hd
    obtain ⟨n', hn', hk', hf, -⟩ := hb
    obtain rfl := Option.some.inj (hn.symm.trans hm)
    exact ⟨n', hn', hk'.trans hk.symm, fun _ => tag_of_face (congrArg Face.tag hf),
      fun hs => by rw [hk] at hs; cases hs⟩

theorem exists_returns_key {k : Key} {id' : NodeId} (hd : t.DenotesKey id k)
    (hb : t'.BearsKey id' k.reread) (hn : t.get? id = some n)
    (hkey : n.kind = .scalar ∨ n.kind = .alias) :
    ∃ n', t'.get? id' = some n' ∧ (n'.kind = .scalar ∨ n'.kind = .alias) ∧ Returns n n' := by
  cases k with
  | scalar f =>
    obtain ⟨m, hm, hk, rfl⟩ := hd
    obtain ⟨n', hn', hk', hf⟩ := hb
    obtain rfl := Option.some.inj (hn.symm.trans hm)
    exact ⟨n', hn', .inl hk', returns_scalar hk hk' hf⟩
  | «alias» name text =>
    obtain ⟨m, r, m', hm, hk, -⟩ := hd
    obtain ⟨n', hn', hk', -⟩ := hb
    obtain rfl := Option.some.inj (hn.symm.trans hm)
    exact ⟨n', hn', .inr hk', hk'.trans hk.symm, fun hna => absurd hk hna,
      fun hs => by rw [hk] at hs; cases hs⟩
  | other text =>
    obtain ⟨m, hm, hna, hns, -⟩ := hd
    obtain rfl := Option.some.inj (hn.symm.trans hm)
    exact absurd hkey (not_or.mpr ⟨hns, hna⟩)

/-- One node is read back as another: as a value or, at the end of its place, as a key. -/
inductive Rereads (t t' : Tree) : List Member → NodeId → NodeId → Prop where
  | value {place : List Member} {x x' : NodeId} {s : Shape} : (∀ i, .key i ∉ place) →
    t.Denotes x s → t'.Bears x' s.reread → Rereads t t' place x x'
  | key {place : List Member} {x x' : NodeId} {k : Key} {i : Nat} : .key i ∈ place →
    t.DenotesKey x k → t'.BearsKey x' k.reread → Rereads t t' place x x'

theorem Rereads.cons {m : Member} (hm : ∀ i, m ≠ .key i) (h : Rereads t t' place x y) :
    Rereads t t' (m :: place) x y := by
  cases h with
  | value hp hd hb =>
    refine .value (fun i hi => ?_) hd hb
    rcases List.mem_cons.mp hi with rfl | hi
    · exact hm i rfl
    · exact hp i hi
  | key hp hd hb => exact .key (List.mem_cons_of_mem _ hp) hd hb

/-- The way to a node leads to the one as which it is read back. -/
theorem Leads.rereads (h : t.Leads id place x) : ∀ {s : Shape} {id' : NodeId}, t.Denotes id s →
    t'.Bears id' s.reread → ∃ x', t'.Leads id' place x' ∧ Rereads t t' place x x' := by
  induction h with
  | here id =>
    intro s id' hd hb
    exact ⟨id', .here id', .value (by simp) hd hb⟩
  | item hm hk hc _ ih =>
    intro s id' hd hb
    cases s with
    | sequence f items =>
      obtain ⟨m', hm', -, -, hitems⟩ := hd
      obtain ⟨n₁, hn₁, hk₁, -, hbears⟩ := hb
      obtain rfl := Option.some.inj (hm.symm.trans hm')
      obtain ⟨s, hs, hd⟩ := exists_denotes_item hitems hc
      obtain ⟨c', hc', hb⟩ := exists_bears_item hbears hs
      obtain ⟨x', hleads, hreads⟩ := ih hd hb
      exact ⟨x', .item hn₁ hk₁ hc' hleads, hreads.cons (by simp)⟩
    | _ => cases hk.symm.trans (kind_of_denotes hd hm)
  | key hm hk hp hget hkey =>
    intro s id' hd hb
    cases s with
    | mapping f entries =>
      obtain ⟨m', hm', -, -, hentries⟩ := hd
      obtain ⟨n₁, hn₁, hk₁, -, hbears⟩ := hb
      obtain rfl := Option.some.inj (hm.symm.trans hm')
      obtain ⟨k, s, hs, hdk, -⟩ := exists_denotes_entry hentries hp
      obtain ⟨c', v', hc', hbk, -⟩ := exists_bears_entry hbears hs
      obtain ⟨n', hn', hkey', -⟩ := exists_returns_key hdk hbk hget hkey
      exact ⟨c', .key hn₁ hk₁ hc' hn' hkey', .key List.mem_cons_self hdk hbk⟩
    | _ => cases hk.symm.trans (kind_of_denotes hd hm)
  | value hm hk hp _ ih =>
    intro s id' hd hb
    cases s with
    | mapping f entries =>
      obtain ⟨m', hm', -, -, hentries⟩ := hd
      obtain ⟨n₁, hn₁, hk₁, -, hbears⟩ := hb
      obtain rfl := Option.some.inj (hm.symm.trans hm')
      obtain ⟨k, s, hs, -, hdv⟩ := exists_denotes_entry hentries hp
      obtain ⟨c', v', hc', -, hbv⟩ := exists_bears_entry hbears hs
      obtain ⟨x', hleads, hreads⟩ := ih (hdv _ rfl) hbv
      exact ⟨x', .value hn₁ hk₁ hc' hleads, hreads.cons (by simp)⟩
    | _ => cases hk.symm.trans (kind_of_denotes hd hm)

/-- A key is a scalar or an alias. -/
theorem Leads.kind_of_key {i : Nat} (h : t.Leads id place x) (hn : t.get? x = some n)
    (hi : .key i ∈ place) : n.kind = .scalar ∨ n.kind = .alias := by
  induction h with
  | here id => cases hi
  | item _ _ _ _ ih => exact ih hn (by simpa using hi)
  | key _ _ _ hm hkey =>
    obtain rfl := Option.some.inj (hm.symm.trans hn)
    exact hkey
  | value _ _ _ _ ih => exact ih hn (by simpa using hi)

/-- The way to a node leads to what is read back of it. -/
theorem Leads.returns {s : Shape} {id' : NodeId} (h : t.Leads id place x) (hd : t.Denotes id s)
    (hb : t'.Bears id' s.reread) (hn : t.get? x = some n) :
    ∃ x' n', t'.Leads id' place x' ∧ t'.get? x' = some n' ∧ Returns n n' := by
  obtain ⟨x', hleads, hreads⟩ := h.rereads hd hb
  cases hreads with
  | value _ hd hb =>
    obtain ⟨n', hn', hreturns⟩ := exists_returns hd hb hn
    exact ⟨x', n', hleads, hn', hreturns⟩
  | key hp hd hb =>
    obtain ⟨n', hn', -, hreturns⟩ := exists_returns_key hd hb hn (h.kind_of_key hn hp)
    exact ⟨x', n', hleads, hn', hreturns⟩

/-! ### Texts -/

/-- A line without text is a document without a value. -/
theorem read_line (maxDepth : Nat) : read maxDepth "\n" = .ok .empty := by
  have h : (scan "\n".toList).namedEvents = .ok [] := by decide +kernel
  rw [read_of_events h]
  rfl

/-- A bare document has one place, that of a scalar of which nothing is written. -/
theorem Leads.of_bare {s : Shape} (h : t.Leads id place x) (hd : t.Denotes id s) (hb : s.Bare)
    (hn : t.get? x = some n) : place = [] ∧ n.face.reread = {} := by
  cases s with
  | scalar f =>
    obtain ⟨m, hm, hk, rfl⟩ := hd
    cases h with
    | here =>
      obtain rfl := Option.some.inj (hn.symm.trans hm)
      exact ⟨rfl, Shape.scalar.inj hb⟩
    | _ hm' hk' =>
      obtain rfl := Option.some.inj (hm.symm.trans hm')
      rw [hk] at hk'
      cases hk'
  | «alias» name => cases hb
  | sequence f items => cases hb
  | mapping f entries => cases hb

/-- What is written of a node with a tag of its own is not an empty line. -/
theorem Leads.not_bare {s : Shape} (h : t.Leads id place x) (hd : t.Denotes id s)
    (hn : t.get? x = some n) (htag : n.hasOwnTag = true) : ¬ s.Bare := by
  intro hb
  have hwritten : n.face.writtenTag = "" := congrArg Face.tag (h.of_bare hd hb hn).2
  have hempty : n.tag = "" := Eq.trans (if_pos htag).symm hwritten
  rw [Node.hasOwnTag, hempty] at htag
  cases htag

/-- What is written of a text can be read, and every node with a tag of its own is found in it at its
place, with its kind, its tag and its text: if each tag is a `!` and characters that need no escape, no
key is too long to be found, and no alias leads to a node that is written without its names. -/
theorem tags_write {maxDepth : Nat} {text : String} (h : read maxDepth text = .ok t)
    (htags : ∀ id n, t.Shown id → t.get? id = some n → n.hasOwnTag = true → IsShorthand n.tag)
    (hkeys : t.ShortKeys)
    (hbound : ∀ id n r, t.Shown id → t.get? id = some n → n.kind = .alias →
      t.resolve? id = some r → t.Shown r) :
    ∃ y t', t.write maxDepth = .ok y ∧ read maxDepth y = .ok t' ∧
      ∀ place id n, t.WrittenAt place id → t.get? id = some n → n.hasOwnTag = true →
        ∃ id' n', t'.WrittenAt place id' ∧ t'.get? id' = some n' ∧ n'.kind = n.kind ∧
          n'.tag = n.tag ∧ (n.kind = .scalar → n'.value = n.value) := by
  obtain ⟨level, hlevel⟩ := levelled_read h
  cases hv : t.rootValue? with
  | none =>
    refine ⟨"", .empty, by rw [write, hv], read_nothing maxDepth, ?_⟩
    rintro place id n ⟨v, hv', -⟩
    rw [hv] at hv'
    cases hv'
  | some v =>
    obtain ⟨s, hd, hroom, -⟩ := shaped_rootValue (closed_read h) hlevel hv
    have hwrite := (write_eq_ok hv).mpr ⟨s, hd, hroom, rfl⟩
    by_cases hb : s.Bare
    · rw [Shape.written_bare hb] at hwrite
      refine ⟨_, .empty, hwrite, read_line maxDepth, ?_⟩
      rintro place id n ⟨v', hv', hleads⟩ hn htag
      obtain rfl := Option.some.inj (hv.symm.trans hv')
      exact absurd hb (hleads.not_bare hd hn htag)
    · have hs := legible_of_read h htags hkeys hbound hv hd hroom
      obtain ⟨t', id', ht', hroot, hbears, -⟩ := Shape.exists_read hs hb hroom
      refine ⟨_, t', hwrite, ht', ?_⟩
      rintro place id n ⟨v', hv', hleads⟩ hn htag
      obtain rfl := Option.some.inj (hv.symm.trans hv')
      obtain ⟨x', n', hleads', hn', hreturns⟩ := hleads.returns hd hbears hn
      have hkind : n.kind ≠ .alias := by
        intro hk
        rw [hasOwnTag_alias h hn hk] at htag
        cases htag
      exact ⟨x', n', ⟨id', hroot, hleads'⟩, hn', hreturns.kind, hreturns.tag hkind htag,
        hreturns.value⟩

/-- A tagged key, and a tagged sequence that an alias leads to. -/
theorem tags_write_labels : ∃ t t', read 128 "!m a: &x !t [b]\nc: *x\n" = .ok t ∧
    t.write 128 = .ok "!m a: &x !t\n    - b\nc: *x\n" ∧
    read 128 "!m a: &x !t\n    - b\nc: *x\n" = .ok t' ∧
    (∃ id n, t'.WrittenAt [.key 0] id ∧ t'.get? id = some n ∧ n.kind = .scalar ∧ n.tag = "!m" ∧
      n.value = "a") ∧
    ∃ id n, t'.WrittenAt [.value 0] id ∧ t'.get? id = some n ∧ n.kind = .sequence ∧ n.tag = "!t" := by
  obtain ⟨t, ht⟩ : ∃ t : Tree, t = ⟨#[{ kind := .document, children := #[1] },
      { kind := .mapping, children := #[2, 3, 5, 6], mark := ⟨4, 1, 4⟩ },
      { kind := .scalar, tag := "!m", value := "a", mark := ⟨3, 1, 3⟩ },
      { kind := .sequence, tag := "!t", anchor := some "x", children := #[4], mark := ⟨12, 1, 12⟩ },
      { kind := .scalar, value := "b", mark := ⟨13, 1, 13⟩ },
      { kind := .scalar, value := "c", mark := ⟨16, 2, 0⟩ },
      { kind := .alias, value := "x", target := some 3, mark := ⟨19, 2, 3⟩ }], by decide⟩ := ⟨_, rfl⟩
  have hread : read 128 "!m a: &x !t [b]\nc: *x\n" = .ok t := by
    subst ht
    decide +kernel
  have hwrite : t.write 128 = .ok "!m a: &x !t\n    - b\nc: *x\n" := by
    subst ht
    decide +kernel
  have htags : ∀ n ∈ t.nodes, n.hasOwnTag = true → IsShorthand n.tag := by
    subst ht
    decide
  have hkeys : t.ShortKeys := shortKeys_of_size (by subst ht; decide +kernel)
  have haliases : ∀ id < t.size, ∀ n ∈ t.get? id, n.kind = .alias → t.resolve? id = some 3 := by
    subst ht
    decide
  have hroot : t.rootValue? = some 1 := by
    subst ht
    rfl
  have hmapping : ∃ n, t.get? 1 = some n ∧ n.kind = .mapping ∧
      inPairs n.children.toList = [(2, some 3), (5, some 6)] := by
    subst ht
    exact ⟨_, rfl, rfl, rfl⟩
  have hkey : ∃ n, t.get? 2 = some n ∧ n.kind = .scalar ∧ n.hasOwnTag = true ∧ n.tag = "!m" ∧
      n.value = "a" := by
    subst ht
    exact ⟨_, rfl, rfl, by decide, rfl, rfl⟩
  have hvalue : ∃ n, t.get? 3 = some n ∧ n.kind = .sequence ∧ n.hasOwnTag = true ∧ n.tag = "!t" := by
    subst ht
    exact ⟨_, rfl, rfl, by decide, rfl⟩
  clear ht
  obtain ⟨n₁, hn₁, hk₁, hpairs⟩ := hmapping
  obtain ⟨n₂, hn₂, hk₂, htag₂, hm, ha⟩ := hkey
  obtain ⟨n₃, hn₃, hk₃, htag₃, ht⟩ := hvalue
  have hplace : t.WrittenAt [.value 0] 3 := ⟨1, hroot, .value hn₁ hk₁ (by rw [hpairs]; rfl) (.here 3)⟩
  have hshown : t.Shown 3 := shown_iff_writtenAt.mpr ⟨[.value 0], hplace⟩
  obtain ⟨y, t', hy, ht', hplaces⟩ := tags_write hread
    (fun id n _ hn => htags n (Array.mem_of_getElem? hn)) hkeys (fun id n r _ hn hk hr => by
      obtain rfl := Option.some.inj ((haliases id (lt_size hn) n hn hk).symm.trans hr)
      exact hshown)
  obtain rfl := Except.ok.inj (hwrite.symm.trans hy)
  refine ⟨t, t', hread, hwrite, ht', ?_, ?_⟩
  · obtain ⟨id, n, hat, hn, hk, htag, hv⟩ := hplaces [.key 0] 2 n₂
      ⟨1, hroot, .key hn₁ hk₁ (by rw [hpairs]; rfl) hn₂ (.inl hk₂)⟩ hn₂ htag₂
    exact ⟨id, n, hat, hn, hk.trans hk₂, htag.trans hm, (hv hk₂).trans ha⟩
  · obtain ⟨id, n, hat, hn, hk, htag, -⟩ := hplaces [.value 0] 3 n₃ hplace hn₃ htag₃
    exact ⟨id, n, hat, hn, hk.trans hk₃, htag.trans ht⟩

/-- A tag that was written with its address is written back without the brackets, and what is written
is read as one text without a tag. -/
theorem tags_write_verbatim : ∃ t t' n n', read 128 "!<x> a" = .ok t ∧ t.WrittenAt [] 1 ∧
    t.get? 1 = some n ∧ n.hasOwnTag = true ∧ n.tag = "x" ∧ n.value = "a" ∧
    t.write 128 = .ok "x a\n" ∧ read 128 "x a\n" = .ok t' ∧ t'.WrittenAt [] 1 ∧
    t'.get? 1 = some n' ∧ n'.tag = "" ∧ n'.value = "x a" := by
  refine ⟨⟨#[{ kind := .document, children := #[1] },
      { kind := .scalar, tag := "x", value := "a", mark := ⟨5, 1, 5⟩ }], by decide⟩,
    ⟨#[{ kind := .document, children := #[1] }, { kind := .scalar, value := "x a" }], by decide⟩,
    _, _, ?_, ⟨1, rfl, .here 1⟩, rfl, by decide, rfl, rfl, ?_, ?_, ⟨1, rfl, .here 1⟩, rfl, rfl, rfl⟩
  · decide +kernel
  · decide +kernel
  · decide +kernel

end Tree

end TaggedYaml
