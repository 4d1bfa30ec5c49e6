import TaggedYaml.Proofs.Shape.OfData
import TaggedYaml.Proofs.Shape.Value
import TaggedYaml.Proofs.Tree.Makes
import TaggedYaml.Proofs.Tree.Tags

/-!
# Collected — data from a source becomes a tree of the same value

Data is added below a node as one new child, which has the shape of the data and keeps it, for
whatever is added later goes behind it (`grows_addData`).  No node gets a tag, so flattening leaves
the tree as it is, and its value is that of the data (`Settings.value_collect`).  Data is refused only
for its first defect (`Settings.collect_eq_error`).
-/

namespace TaggedYaml

open Json (Data)

namespace Tree

variable {t t' t'' : Tree} {parent : Nat} {ids ids' : List NodeId} {P P' : Tree → Prop}

/-- The second tree has new children of a node and gives no tags; of the new nodes something holds
as long as they stay. -/
structure Grows (parent : NodeId) (t t' : Tree) (ids : List NodeId) (P : Tree → Prop) : Prop where
  grown : Grown parent t t' ids
  untagged : t.Tagged (· = "") → t'.Tagged (· = "")
  holds : ∀ u, Kept t' t.size u → P u

theorem Grows.refl (parent : NodeId) (t : Tree) (h : ∀ u, P u) : Grows parent t t [] P :=
  ⟨.refl parent t, id, fun u _ => h u⟩

theorem Grows.mono (h : Grows parent t t' ids P) (himp : ∀ u, P u → P' u) :
    Grows parent t t' ids P' :=
  ⟨h.grown, h.untagged, fun u hu => himp u (h.holds u hu)⟩

theorem Grows.append (hp : parent < t.size) (h : Grows parent t t' ids P)
    (h' : Grows parent t' t'' ids' P') :
    Grows parent t t'' (ids ++ ids') fun u => P u ∧ P' u := by
  refine ⟨h.grown.trans h'.grown, fun ht => h'.untagged (h.untagged ht), fun u hu => ⟨?_, ?_⟩⟩
  · have hkept : Kept t' t.size t'' := h'.grown.kept hp
    exact h.holds u (hkept.trans h'.grown.size (Nat.le_refl _) hu)
  · exact h'.holds u fun id h1 h2 => hu id (Nat.le_trans h.grown.size h1) h2

/-- A new child. -/
theorem grows_append (hp : parent < t.size) {n : Node} (hn : n.tag = "") :
    ∃ t', t.append parent n = (t.size, t') ∧ t'.size = t.size + 1 ∧ t'.get? t.size = some n ∧
      Grows parent t t' [t.size] fun u => u.get? t.size = some n := by
  obtain ⟨t', happ, hsize, hget, hgrown⟩ := append_eq hp n
  have heq : t.append parent n = (t.size, t') := by
    rw [append?, if_pos hp] at happ
    exact Option.some.inj happ
  refine ⟨t', heq, hsize, hget, hgrown, fun ht => tagged_append ht hn happ, fun u hu => ?_⟩
  rw [hu t.size (Nat.le_refl _) (by omega), hget]

/-- A new child and, below it, its members. -/
theorem grows_collection (hp : parent < t.size) {n : Node} (hn : n.tag = "") (hc : n.children = #[]) :
    ∃ t₁, t.append parent n = (t.size, t₁) ∧ t.size < t₁.size ∧
      ∀ {t' ids} {P : Tree → Prop}, Grows t.size t₁ t' ids P → Grows parent t t' [t.size] fun u =>
        u.get? t.size = some { n with children := ids.toArray } ∧ P u := by
  obtain ⟨t₁, happ, hsize, hget, h₁⟩ := grows_append hp hn
  refine ⟨t₁, happ, by omega, fun {t' ids P} h => ?_⟩
  have hget' : t'.get? t.size = some { n with children := ids.toArray } := by
    have hnew := h.grown.parent n hget
    rwa [hc, Array.empty_append] at hnew
  have hsize' : t.size < t'.size := Nat.lt_of_lt_of_le (by omega) h.grown.size
  refine ⟨⟨Nat.le_of_lt hsize', fun id hid hne => ?_, fun m hm => ?_⟩,
    fun ht => h.untagged (h₁.untagged ht), fun u hu => ⟨?_, ?_⟩⟩
  · rw [h.grown.old id (by omega) (Nat.ne_of_lt hid), h₁.grown.old id hid hne]
  · rw [h.grown.old parent (by omega) (Nat.ne_of_lt hp), h₁.grown.parent m hm]
  · rw [hu t.size (Nat.le_refl _) hsize', hget']
  · exact h.holds u fun id h1 h2 => hu id (by omega) h2

/-- A scalar becomes a node of its shape. -/
theorem grows_addScalar (hp : parent < t.size) (s : String) (style : Style) :
    Grows parent t (t.addScalar parent s style) [t.size] fun u =>
      u.Denotes t.size (.scalar { text := s, style }) := by
  obtain ⟨t', happ, -, -, h⟩ := grows_append hp (n := { kind := .scalar, value := s, style }) rfl
  rw [addScalar, happ]
  exact h.mono fun u hu => ⟨_, hu, rfl, rfl⟩

/-- A node of a shape that is no alias is a key of that shape. -/
theorem denotesKey_of_denotes {s : Shape} {id : NodeId} (h : t.Denotes id s)
    (hd : s.Direct) : t.DenotesKey id s.key := by
  cases s with
  | scalar f => exact h
  | «alias» name => exact hd.elim
  | sequence f items =>
    obtain ⟨n, hn, hk, hf, -⟩ := h
    exact ⟨n, hn, by simp [hk], by simp [hk], congrArg Face.text hf⟩
  | mapping f entries =>
    obtain ⟨n, hn, hk, hf, -⟩ := h
    exact ⟨n, hn, by simp [hk], by simp [hk], congrArg Face.text hf⟩

mutual

/-- Data without defects becomes one new child, which has its shape. -/
theorem grows_addData : ∀ (d : Data) {parent : Nat} {t : Tree}, d.defect? = none →
    parent < t.size → ∃ t', addData parent d t = .ok t' ∧
      Grows parent t t' [t.size] fun u => u.Denotes t.size (.ofData d)
  | .null, _, _, _, hp => ⟨_, rfl, grows_addScalar hp _ _⟩
  | .bool _, _, _, _, hp => ⟨_, rfl, grows_addScalar hp _ _⟩
  | .int .., _, _, _, hp => ⟨_, rfl, grows_addScalar hp _ _⟩
  | .float _, _, _, _, hp => ⟨_, rfl, grows_addScalar hp _ _⟩
  | .text _, _, _, _, hp => ⟨_, rfl, grows_addScalar hp _ _⟩
  | .some d, _, _, h, hp => by
    obtain ⟨t', ht', hgrows⟩ := grows_addData d h hp
    exact ⟨t', ht', hgrows⟩
  | .long .., _, _, h, _ | .bytes, _, _, h, _ | .newtype, _, _, h, _ | .enum, _, _, h, _
  | .failure _, _, _, h, _ => (Option.some_ne_none _ h).elim
  | .list items, parent, t, h, hp => by
    obtain ⟨t₁, happ, hlt, hclose⟩ := grows_collection hp (n := { kind := .sequence }) rfl rfl
    obtain ⟨t', ids, ht', hgrows⟩ := grows_addItems items h hlt
    refine ⟨t', ?_, (hclose hgrows).mono fun u hu => ?_⟩
    · rw [addData, happ]
      exact ht'
    · obtain ⟨hget, hitems⟩ := hu
      exact ⟨_, hget, rfl, rfl, hitems⟩
  | .map entries, parent, t, h, hp => by
    obtain ⟨t₁, happ, hlt, hclose⟩ := grows_collection hp (n := { kind := .mapping }) rfl rfl
    obtain ⟨t', ids, ht', hgrows⟩ := grows_addEntries entries h hlt
    refine ⟨t', ?_, (hclose hgrows).mono fun u hu => ?_⟩
    · rw [addData, happ]
      exact ht'
    · obtain ⟨hget, hentries⟩ := hu
      exact ⟨_, hget, rfl, rfl, hentries⟩

theorem grows_addItems : ∀ (items : List Data) {parent : Nat} {t : Tree},
    Data.itemsDefect? items = none → parent < t.size →
    ∃ t' ids, addItems parent items t = .ok t' ∧
      Grows parent t t' ids fun u => u.DenotesItems ids (Shape.itemsOfData items)
  | [], parent, t, _, _ => ⟨t, [], rfl, .refl parent t fun _ => rfl⟩
  | d :: rest, parent, t, h, hp => by
    obtain ⟨hd, hrest⟩ := Option.or_eq_none_iff.mp h
    obtain ⟨t₁, ht₁, h₁⟩ := grows_addData d hd hp
    obtain ⟨t₂, ids, ht₂, h₂⟩ := grows_addItems rest hrest (Nat.lt_of_lt_of_le hp h₁.grown.size)
    refine ⟨t₂, t.size :: ids, ?_, (h₁.append hp h₂).mono fun u hu => ?_⟩
    · rw [addItems, ht₁]
      exact ht₂
    · exact ⟨t.size, ids, rfl, hu.1, hu.2⟩

theorem grows_addEntries : ∀ (entries : List (Data × Data)) {parent : Nat} {t : Tree},
    Data.entriesDefect? entries = none → parent < t.size →
    ∃ t' ids, addEntries parent entries t = .ok t' ∧
      Grows parent t t' ids fun u =>
        u.DenotesEntries (inPairs ids) (Shape.entriesOfData entries)
  | [], parent, t, _, _ => ⟨t, [], rfl, .refl parent t fun _ => rfl⟩
  | (k, v) :: rest, parent, t, h, hp => by
    obtain ⟨hk, h⟩ := Option.or_eq_none_iff.mp h
    obtain ⟨hv, hrest⟩ := Option.or_eq_none_iff.mp h
    obtain ⟨t₁, ht₁, h₁⟩ := grows_addData k hk hp
    have hp₁ : parent < t₁.size := Nat.lt_of_lt_of_le hp h₁.grown.size
    obtain ⟨t₂, ht₂, h₂⟩ := grows_addData v hv hp₁
    have hp₂ : parent < t₂.size := Nat.lt_of_lt_of_le hp₁ h₂.grown.size
    obtain ⟨t₃, ids, ht₃, h₃⟩ := grows_addEntries rest hrest hp₂
    refine ⟨t₃, t.size :: t₁.size :: ids, ?_,
      (h₁.append hp (h₂.append hp₁ h₃)).mono fun u hu => ?_⟩
    · simp only [addEntries, ht₁, ht₂, bind, Except.bind]
      exact ht₃
    · obtain ⟨hk, hv, hrest⟩ := hu
      refine ⟨t.size, some t₁.size, inPairs ids, rfl,
        denotesKey_of_denotes hk (Shape.direct_ofData k), fun id hid => ?_,
        fun hnone => by simp at hnone, hrest⟩
      obtain rfl := Option.mem_some.mp hid
      exact hv

end

mutual

/-- Data with defects is refused for the first of them. -/
theorem addData_of_defect : ∀ (d : Data) {parent : Nat} {t : Tree} {e : Json.Defect},
    d.defect? = some e → parent < t.size → addData parent d t = .error e
  | .null, _, _, _, h, _ | .bool _, _, _, _, h, _ | .int .., _, _, _, h, _
  | .float _, _, _, _, h, _ | .text _, _, _, _, h, _ => (Option.some_ne_none _ h.symm).elim
  | .long .., _, _, _, h, _ | .bytes, _, _, _, h, _ | .newtype, _, _, _, h, _
  | .enum, _, _, _, h, _ | .failure _, _, _, _, h, _ => congrArg Except.error (Option.some.inj h)
  | .some d, _, _, _, h, hp => addData_of_defect d (by rwa [Data.defect?] at h) hp
  | .list items, parent, t, e, h, hp => by
    obtain ⟨t₁, happ, hlt, -⟩ := grows_collection hp (n := { kind := .sequence }) rfl rfl
    rw [addData, happ]
    exact addItems_of_defect items h hlt
  | .map entries, parent, t, e, h, hp => by
    obtain ⟨t₁, happ, hlt, -⟩ := grows_collection hp (n := { kind := .mapping }) rfl rfl
    rw [addData, happ]
    exact addEntries_of_defect entries h hlt

theorem addItems_of_defect : ∀ (items : List Data) {parent : Nat} {t : Tree} {e : Json.Defect},
    Data.itemsDefect? items = some e → parent < t.size → addItems parent items t = .error e
  | [], _, _, _, h, _ => (Option.some_ne_none _ h.symm).elim
  | d :: rest, parent, t, e, h, hp => by
    rw [addItems]
    rcases Option.or_eq_some_iff.mp h with hd | ⟨hd, hrest⟩
    · rw [addData_of_defect d hd hp]
      rfl
    · obtain ⟨t₁, ht₁, h₁⟩ := grows_addData d hd hp
      rw [bind_ok ht₁]
      exact addItems_of_defect rest hrest (Nat.lt_of_lt_of_le hp h₁.grown.size)

theorem addEntries_of_defect : ∀ (entries : List (Data × Data)) {parent : Nat} {t : Tree}
    {e : Json.Defect}, Data.entriesDefect? entries = some e → parent < t.size →
    addEntries parent entries t = .error e
  | [], _, _, _, h, _ => (Option.some_ne_none _ h.symm).elim
  | (k, v) :: rest, parent, t, e, h, hp => by
    rw [addEntries]
    rcases Option.or_eq_some_iff.mp h with hk | ⟨hk, h⟩
    · rw [addData_of_defect k hk hp]
      rfl
    · obtain ⟨t₁, ht₁, h₁⟩ := grows_addData k hk hp
      have hp₁ : parent < t₁.size := Nat.lt_of_lt_of_le hp h₁.grown.size
      rw [bind_ok ht₁]
      rcases Option.or_eq_some_iff.mp h with hv | ⟨hv, hrest⟩
      · rw [addData_of_defect v hv hp₁]
        rfl
      · obtain ⟨t₂, ht₂, h₂⟩ := grows_addData v hv hp₁
        rw [bind_ok ht₂]
        exact addEntries_of_defect rest hrest (Nat.lt_of_lt_of_le hp₁ h₂.grown.size)

end

/-- Data becomes a document of its value in which no node has a tag. -/
theorem value_ofData {d : Data} {maxDepth : Nat} (h : d.defect? = none) (hd : d.height ≤ maxDepth) :
    ∃ t, ofData d = .ok t ∧ t.value maxDepth = .ok d.value ∧ t.Tagged (· = "") := by
  obtain ⟨t, ht, hgrows⟩ := grows_addData d h (t := empty) (Nat.zero_lt_one)
  have hroot : t.rootNode = { kind := .document, children := #[1] } := by
    have hget := hgrows.grown.parent { kind := .document } rfl
    rw [show t.get? 0 = some t.rootNode from get?_root t] at hget
    exact Option.some.inj hget
  have hdenotes : t.Denotes 1 (.ofData d) := hgrows.holds t fun _ _ _ => rfl
  refine ⟨t, ht, ?_, hgrows.untagged fun id n hn => ?_⟩
  · rw [← Shape.value_ofData d]
    exact value_of_denotes (by rw [hroot]) (by rw [rootValue?, hroot]; rfl) hdenotes
      (Shape.direct_ofData d) (by rwa [Shape.height_ofData])
  · have hmem : n ∈ (#[{ kind := .document }] : Array Node) := Array.mem_of_getElem? hn
    obtain rfl : n = { kind := .document } := by simpa using hmem
    rfl

theorem ofData_of_defect {d : Data} {e : Json.Defect} (h : d.defect? = some e) :
    ofData d = .error e :=
  addData_of_defect d h Nat.zero_lt_one

end Tree

namespace Settings

variable {s : Settings}

/-- Data without defects becomes a document of its value. -/
theorem value_collect (hpattern : s.tagPattern = .tag) {d : Data} (h : d.defect? = none)
    (hd : d.height ≤ s.maxDepth) : ∃ t, s.collect d = .ok t ∧ s.value t = .ok d.value := by
  obtain ⟨t, ht, hvalue, htags⟩ := Tree.value_ofData h hd
  refine ⟨t, ?_, hvalue⟩
  rw [collect, ht]
  exact congrArg Except.ok (flatten_of_untagged hpattern htags)

/-- Data is refused for its first defect, and for nothing else. -/
theorem collect_eq_error {d : Data} {e : Json.Defect} :
    s.collect d = .error e ↔ d.defect? = some e := by
  cases h : d.defect? with
  | none =>
    obtain ⟨t, ht, -⟩ := Tree.value_ofData h (Nat.le_refl _)
    rw [collect, bind_ok ht]
    exact iff_of_false nofun nofun
  | some e' =>
    rw [collect, Tree.ofData_of_defect h]
    exact ⟨fun h => congrArg some (Except.error.inj h), fun h => congrArg _ (Option.some.inj h)⟩

end Settings

end TaggedYaml
