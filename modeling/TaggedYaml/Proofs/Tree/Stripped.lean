import TaggedYaml.Codec
import TaggedYaml.Proofs.Pattern.Strip
import TaggedYaml.Proofs.Shape.Freed
import TaggedYaml.Proofs.Tree.RoundTrip

/-!
# Stripped — the quotes that are taken from a written tree

Where no text of a tree holds a quote before an exclamation mark, its quotes are taken from each text
between quotes that begins with an exclamation mark, and no others (`Settings.encodeStripped_eq_bare`).
-/

namespace TaggedYaml

namespace Tree

variable {t : Tree}

/-- The segments of what is written of a tree. -/
def Segments (t : Tree) (gs : List Segment) : Prop :=
  (t.rootValue? = none ∧ gs = []) ∨
    ∃ id s, t.rootValue? = some id ∧ t.Denotes id s ∧ gs = s.segments 0 .top

theorem Segments.unique {gs gs' : List Segment} (h : t.Segments gs) (h' : t.Segments gs') :
    gs = gs' := by
  rcases h with ⟨hv, rfl⟩ | ⟨id, s, hv, hd, rfl⟩ <;>
    rcases h' with ⟨hv', rfl⟩ | ⟨id', s', hv', hd', rfl⟩
  · rfl
  · cases hv.symm.trans hv'
  · cases hv.symm.trans hv'
  · obtain rfl := Option.some.inj (hv.symm.trans hv')
    rw [denotes_unique hd hd']

theorem calm_key {k : Key} {id : NodeId} (hk : t.DenotesKey id k)
    (h : ∀ n, t.get? id = some n → n.face.Calm) : k.Calm := by
  cases k with
  | scalar f =>
    obtain ⟨n, hn, -, rfl⟩ := hk
    exact h n hn
  | «alias» name text =>
    obtain ⟨n, r, m, hn, -, rfl, -⟩ := hk
    exact (h n hn).text
  | other text =>
    obtain ⟨n, hn, -, -, rfl⟩ := hk
    exact (h n hn).text

mutual

/-- A shape is calm if the nodes are that are written of it. -/
theorem calm_of_denotes
    (h : ∀ id n, t.WritesValue id ∨ t.WritesKey id → t.get? id = some n → n.face.Calm) :
    ∀ {s : Shape} {id : NodeId}, t.WritesValue id → t.Denotes id s → s.Calm
  | .scalar f, id, hw, hd => by
    obtain ⟨n, hn, -, rfl⟩ := hd
    exact h id n (.inl hw) hn
  | .alias name, id, hw, hd => by
    obtain ⟨n, hn, -, rfl, -⟩ := hd
    exact (h id n (.inl hw) hn).text
  | .sequence f items, id, hw, hd => by
    obtain ⟨n, hn, hk, rfl, hitems⟩ := hd
    refine ⟨h id n (.inl hw) hn, calmItems_of_denotes h (fun c hc => ?_) hitems⟩
    exact .item hw hn hk (by simpa using hc)
  | .mapping f entries, id, hw, hd => by
    obtain ⟨n, hn, hk, rfl, hentries⟩ := hd
    exact ⟨h id n (.inl hw) hn, calmEntries_of_denotes h
      (fun k v hkv => ⟨id, n, v, hw, hn, hk, hkv⟩) (fun k v hkv => .value hw hn hk hkv) hentries⟩

theorem calmItems_of_denotes
    (h : ∀ id n, t.WritesValue id ∨ t.WritesKey id → t.get? id = some n → n.face.Calm) :
    ∀ {items : List Shape} {ids : List NodeId}, (∀ c ∈ ids, t.WritesValue c) →
      t.DenotesItems ids items → Shape.CalmItems items
  | [], _, _, _ => trivial
  | _ :: _, _, hw, hd => by
    obtain ⟨id, ids, rfl, hd, hrest⟩ := hd
    exact ⟨calm_of_denotes h (hw id List.mem_cons_self) hd,
      calmItems_of_denotes h (fun c hc => hw c (List.mem_cons_of_mem _ hc)) hrest⟩

theorem calmEntries_of_denotes
    (h : ∀ id n, t.WritesValue id ∨ t.WritesKey id → t.get? id = some n → n.face.Calm) :
    ∀ {entries : List (Key × Shape)} {pairs : List (NodeId × Option NodeId)},
      (∀ k v, (k, v) ∈ pairs → t.WritesKey k) → (∀ k v, (k, some v) ∈ pairs → t.WritesValue v) →
      t.DenotesEntries pairs entries → Shape.CalmEntries entries
  | [], _, _, _, _ => trivial
  | (k, s) :: rest, _, hkeys, hvalues, hd => by
    obtain ⟨i, v, pairs, rfl, hk, hv, hnone, hrest⟩ := hd
    have hkey : k.Calm := calm_key hk fun n hn => h i n (.inr (hkeys i v List.mem_cons_self)) hn
    have hshape : s.Calm := by
      cases v with
      | none =>
        rw [hnone rfl]
        exact ⟨rfl, nofun, rfl⟩
      | some v => exact calm_of_denotes h (hvalues i v List.mem_cons_self) (hv v rfl)
    exact ⟨hkey, hshape, calmEntries_of_denotes h
      (fun k v hkv => hkeys k v (List.mem_cons_of_mem _ hkv))
      (fun k v hkv => hvalues k v (List.mem_cons_of_mem _ hkv)) hrest⟩

end

/-- What is written of a tree is made of its segments; where its nodes are calm, they are freed. -/
theorem exists_segments {maxDepth : Nat} {e : String} (he : t.write maxDepth = .ok e)
    (h : ∀ id n, t.WritesValue id ∨ t.WritesKey id → t.get? id = some n → n.face.Calm) :
    ∃ gs, t.Segments gs ∧ e = String.ofList (Segment.render gs) ∧ Segment.Freed gs := by
  cases hv : t.rootValue? with
  | none =>
    rw [write, hv] at he
    exact ⟨[], .inl ⟨hv, rfl⟩, (Except.ok.inj he).symm, Segment.freed_nil⟩
  | some id =>
    obtain ⟨s, hd, -, rfl⟩ := (write_eq_ok hv).mp he
    exact ⟨s.segments 0 .top, .inr ⟨id, s, hv, hd, rfl⟩, by rw [s.render_segments],
      Shape.freed_segments (calm_of_denotes h (.root hv) hd) 0 .top⟩

end Tree

namespace Segment

variable {gs : List Segment}

theorem keysAlone_of_marked (h : ∀ g ∈ gs, g.marked = false) : KeysAlone gs := by
  rintro before text after rfl
  have hmark := h (.quoted true ('!' :: text)) (by simp)
  cases hmark

/-- Of freed segments the default rule takes the quotes. -/
theorem Freed.strip (h : Freed gs) (hkeys : KeysAlone gs) :
    Settings.default.strip (String.ofList (render gs)) = String.ofList (bare gs) := by
  have hall := h [] (by rwa [List.append_nil])
  rw [render_nil, List.append_nil, unquote_nil, List.append_nil] at hall
  rw [Settings.strip_default, String.toList_ofList, hall]

end Segment

namespace Settings

/-- The default rule takes the quotes around each text that is written between quotes and begins with an
exclamation mark, and it takes nothing else: if of the nodes that are written no text, anchor, alias or
tag holds a quote before an exclamation mark, and no quote comes on the line behind a key between quotes
that begins with an exclamation mark. -/
theorem encodeStripped_eq_bare {t : Tree} {e : String} (he : default.encode t = .ok e)
    (h : ∀ id n, t.WritesValue id ∨ t.WritesKey id → t.get? id = some n → n.face.Calm) :
    (∃ gs, t.Segments gs) ∧ ∀ gs, t.Segments gs → e = String.ofList (Segment.render gs) ∧
      (Segment.KeysAlone gs →
        default.encodeStripped t = .ok (String.ofList (Segment.bare gs))) ∧
      ((∀ g ∈ gs, g.marked = false) → default.encodeStripped t = .ok e) := by
  obtain ⟨gs, hgs, rfl, hfreed⟩ := Tree.exists_segments he h
  refine ⟨⟨gs, hgs⟩, fun gs' hgs' => ?_⟩
  obtain rfl := hgs.unique hgs'
  have hstrip (hkeys : Segment.KeysAlone gs) :
      default.encodeStripped t = .ok (String.ofList (Segment.bare gs)) := by
    rw [encodeStripped, bind_ok he, hfreed.strip hkeys]
    rfl
  refine ⟨rfl, hstrip, fun hnone => ?_⟩
  rw [hstrip (Segment.keysAlone_of_marked hnone), Segment.bare_eq_render hnone]

/-- Tags as an item and as a key, and an item between quotes that is no tag. -/
theorem encodeStripped_eq_bare_tags : ∃ (t : Tree) (gs : List Segment), t.Segments gs ∧
    Segment.KeysAlone gs ∧
    default.encode t = .ok "k: &a\n    - '!Find [x]'\n    - 'it''s: b'\n'!Out': c\n" ∧
    default.encodeStripped t = .ok (String.ofList (Segment.bare gs)) ∧
    String.ofList (Segment.bare gs) = "k: &a\n    - !Find [x]\n    - 'it''s: b'\n!Out: c\n" := by
  obtain ⟨t, ht⟩ : ∃ t : Tree, t = ⟨#[{ kind := .document, children := #[1] },
      { kind := .mapping, children := #[2, 3, 6, 7] }, { kind := .scalar, value := "k" },
      { kind := .sequence, anchor := some "a", children := #[4, 5] },
      { kind := .scalar, value := "!Find [x]", style := .single },
      { kind := .scalar, value := "it's: b" }, { kind := .scalar, value := "!Out", tag := "!!str" },
      { kind := .scalar, value := "c" }], by decide⟩ := ⟨_, rfl⟩
  have hencode : default.encode t =
      .ok "k: &a\n    - '!Find [x]'\n    - 'it''s: b'\n'!Out': c\n" := by
    subst ht
    decide +kernel
  have hnodes : ∀ n ∈ t.nodes, n.face.Calm := by
    subst ht
    decide
  obtain ⟨s, hs⟩ : ∃ s : Shape, s = .mapping {} [
      (.scalar { text := "k" }, .sequence { anchor := some "a" }
        [.scalar { text := "!Find [x]", style := .single }, .scalar { text := "it's: b" }]),
      (.scalar { text := "!Out", tag := "!!str" }, .scalar { text := "c" })] := ⟨_, rfl⟩
  have hshape : t.Denotes 1 s := by
    have hitems : t.Denotes 3 (.sequence { anchor := some "a" }
        [.scalar { text := "!Find [x]", style := .single }, .scalar { text := "it's: b" }]) := by
      subst ht
      exact ⟨_, rfl, rfl, rfl, 4, _, rfl, ⟨_, rfl, rfl, rfl⟩, 5, _, rfl, ⟨_, rfl, rfl, rfl⟩, rfl⟩
    have hvalue : t.Denotes 7 (.scalar { text := "c" }) := by
      subst ht
      exact ⟨_, rfl, rfl, rfl⟩
    subst ht hs
    exact ⟨_, rfl, rfl, rfl, 2, some 3, _, rfl, ⟨_, rfl, rfl, rfl⟩,
      fun _ h => Option.some.inj h ▸ hitems, nofun, 6, some 7, _, rfl, ⟨_, rfl, rfl, rfl⟩,
      fun _ h => Option.some.inj h ▸ hvalue, nofun, rfl⟩
  have hsegments : t.Segments (s.segments 0 .top) := by
    refine .inr ⟨1, s, ?_, hshape, rfl⟩
    subst ht
    rfl
  have hkeys : Segment.KeysAlone (s.segments 0 .top) := by
    subst hs
    decide +kernel
  have htext : String.ofList (Segment.bare (s.segments 0 .top)) =
      "k: &a\n    - !Find [x]\n    - 'it''s: b'\n!Out: c\n" := by
    subst hs
    decide +kernel
  have hstrip := (encodeStripped_eq_bare hencode fun id n _ hn =>
    hnodes n (Array.mem_of_getElem? hn)).2 _ hsegments
  exact ⟨t, _, hsegments, hkeys, hencode, hstrip.2.1 hkeys, htext⟩

/-- The text of a document that is a key is written too: no text begins with an exclamation mark, and
none but that of the document holds a quote before one, yet two quotes are taken. -/
theorem encodeStripped_documentKey : ¬ ∀ (t : Tree) (e : String), default.encode t = .ok e →
    (∀ n ∈ t.nodes, n.kind ≠ .document → n.face.Calm) →
    (∀ n ∈ t.nodes, n.value.toList.head? ≠ some '!') → default.encodeStripped t = .ok e := by
  intro h
  have hsame := h ⟨#[{ kind := .document, children := #[1] }, { kind := .mapping, children := #[2, 3] },
    { kind := .document, value := "x'!y'" }, { kind := .scalar, value := "v" }], by decide⟩
    "x'!y': v\n" (by decide +kernel) (by decide) (by decide)
  exact absurd hsame (by decide +kernel)

end Settings

end TaggedYaml
