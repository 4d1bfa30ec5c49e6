import TaggedYaml.Proofs.Except
import TaggedYaml.Proofs.Shape.Value

/-!
# Written — the text of a shape

What is written of a node is said of its shape alone (`Shape.written`): a node can be written with
some room exactly if it has a shape that is no higher (`Tree.writeValue_eq_ok`).
-/

namespace TaggedYaml

/-- A scalar with a face. -/
def Face.node (f : Face) : Node :=
  { kind := .scalar, tag := f.tag, value := f.text, anchor := f.anchor, style := f.style }

theorem Node.properties_face {n : Node} (hk : n.kind ≠ .alias) :
    n.properties = n.face.node.properties := by
  simp [properties, hk, Face.node, face, hasOwnTag]

/-- What is written of a scalar. -/
def Face.written (f : Face) (indent : Nat) (position : Position) : List Char :=
  match f.node.literalBlock? with
  | some (header, body) => position.gap ++ joinProperties f.node.properties header ++
      '\n' :: blockLines (indent + indentStep) body
  | none => position.line (joinProperties f.node.properties f.node.inlineText)

/-- What is written of a scalar that is a key; it is never empty. -/
def Face.writtenKey (f : Face) : List Char :=
  joinProperties f.node.properties
    (if f.node.inlineText.isEmpty then writeString f.text.toList else f.node.inlineText)

/-- A key without its colon. -/
def Key.written : Key → List Char
  | .scalar f => f.writtenKey
  | .alias name _ => '*' :: name.toList ++ [' ']
  | .other text => writeString text.toList

/-- The members of the pairs are members of the list. -/
theorem mem_inPairs {α : Type} : ∀ {xs : List α} {k : α} {v : Option α}, (k, v) ∈ inPairs xs →
    k ∈ xs ∧ ∀ x ∈ v, x ∈ xs
  | [], _, _, h => by simp [inPairs] at h
  | [x], k, v, h => by
    obtain ⟨rfl, rfl⟩ : k = x ∧ v = none := by simpa [inPairs] using h
    exact ⟨List.mem_singleton_self k, by simp⟩
  | x :: y :: rest, k, v, h => by
    rw [inPairs, List.mem_cons] at h
    rcases h with h | h
    · obtain ⟨rfl, rfl⟩ := Prod.mk.inj h
      refine ⟨List.mem_cons_self, fun z hz => ?_⟩
      obtain rfl : y = z := Option.some.inj hz
      exact List.mem_cons_of_mem _ List.mem_cons_self
    · obtain ⟨hk, hv⟩ := mem_inPairs h
      exact ⟨List.mem_cons_of_mem _ (List.mem_cons_of_mem _ hk),
        fun z hz => List.mem_cons_of_mem _ (List.mem_cons_of_mem _ (hv z hz))⟩

namespace Shape

mutual

/-- A shape behind its indicator, up to the end of its last line. -/
def written (indent : Nat) (position : Position) : Shape → List Char
  | .scalar f => f.written indent position
  | .alias name => position.gap ++ '*' :: name.toList ++ ['\n']
  | .sequence f items =>
    if items.isEmpty then position.gap ++ joinProperties f.node.properties ['[', ']'] ++ ['\n']
    else
      let (indent, onLine, head) := position.open indent f.node.properties
      head ++ padded indent onLine (writtenItems indent items)
  | .mapping f entries =>
    if entries.isEmpty then
      position.gap ++ joinProperties f.node.properties ['\x7b', '\x7d'] ++ ['\n']
    else
      let (indent, onLine, head) := position.open indent f.node.properties
      head ++ padded indent onLine (writtenEntries indent entries)

/-- The items of a sequence, each from its `-` on. -/
def writtenItems (indent : Nat) : List Shape → List (List Char)
  | [] => []
  | s :: rest => ('-' :: written indent .seqItem s) :: writtenItems indent rest

/-- The entries of a mapping. -/
def writtenEntries (indent : Nat) : List (Key × Shape) → List (List Char)
  | [] => []
  | (k, s) :: rest => (k.written ++ ':' :: written indent .mapValue s) :: writtenEntries indent rest

end

theorem written_empty (indent : Nat) : empty.written indent .mapValue = ['\n'] := rfl

end Shape

namespace Tree

variable {t : Tree} {id : NodeId}

/-! ### Keys -/

/-- What an alias stands for is in the tree and no alias. -/
theorem exists_of_follow {r : NodeId} : ∀ {fuel : Nat} {id : NodeId}, t.follow fuel id = some r →
    ∃ m, t.get? r = some m ∧ m.kind ≠ .alias
  | 0, _, h => by simp [follow] at h
  | fuel + 1, id, h => by
    rw [follow] at h
    cases hn : t.get? id with
    | none => simp [hn] at h
    | some n =>
      by_cases hk : n.kind = .alias
      · simp only [hn, hk, beq_self_eq_true, if_true] at h
        obtain ⟨r', -, h⟩ := Option.bind_eq_some_iff.mp h
        exact exists_of_follow h
      · have hb : (n.kind == .alias) = false := by simpa using hk
        simp only [hn, hb, Bool.false_eq_true, if_false, Option.some.injEq] at h
        exact ⟨n, h ▸ hn, hk⟩

theorem writeKey_scalar {n : Node} (hn : t.get? id = some n) (hk : n.kind = .scalar) :
    t.writeKey id = .ok n.face.writtenKey := by
  have hp : n.properties = n.face.node.properties := Node.properties_face (by rw [hk]; decide)
  rw [writeKey, bind_ok (node_eq_ok.mpr hn), hk, hp]
  rfl

theorem writeKey_alias {n : Node} (hn : t.get? id = some n) (hk : n.kind = .alias) :
    t.writeKey id =
      (t.aliased id n.value).bind fun _ => .ok ('*' :: n.value.toList ++ [' ']) := by
  rw [writeKey, bind_ok (node_eq_ok.mpr hn), hk]
  rfl

theorem writeKey_other {n : Node} (hn : t.get? id = some n) (hs : n.kind ≠ .scalar)
    (ha : n.kind ≠ .alias) : t.writeKey id = .ok (writeString n.value.toList) := by
  have htext : t.keyText id = .ok n.value := by
    have hb : (n.kind == .alias) = false := by simpa using ha
    rw [keyText, bind_ok (node_eq_ok.mpr hn)]
    simp only [hb, Bool.false_eq_true, if_false]
    rfl
  rw [writeKey, bind_ok (node_eq_ok.mpr hn)]
  cases hk : n.kind with
  | scalar => exact absurd hk hs
  | «alias» => exact absurd hk ha
  | document => simp only [htext]; rfl
  | mapping => simp only [htext]; rfl
  | sequence => simp only [htext]; rfl

/-- A node can be written as a key exactly if it is one. -/
theorem writeKey_eq_ok {text : List Char} :
    t.writeKey id = .ok text ↔ ∃ k, DenotesKey t id k ∧ text = k.written := by
  constructor
  · intro h
    obtain ⟨n, hn, -⟩ := bind_eq_ok h
    rw [node_eq_ok] at hn
    by_cases hs : n.kind = .scalar
    · rw [writeKey_scalar hn hs] at h
      exact ⟨.scalar n.face, ⟨n, hn, hs, rfl⟩, (Except.ok.inj h).symm⟩
    by_cases ha : n.kind = .alias
    · rw [writeKey_alias hn ha] at h
      obtain ⟨r, hr, h⟩ := bind_eq_ok h
      rw [aliased_eq_ok] at hr
      obtain ⟨m, hm, -⟩ := exists_of_follow hr
      exact ⟨.alias n.value m.value, ⟨n, r, m, hn, ha, rfl, hr, hm, rfl⟩, (Except.ok.inj h).symm⟩
    · rw [writeKey_other hn hs ha] at h
      exact ⟨.other n.value, ⟨n, hn, ha, hs, rfl⟩, (Except.ok.inj h).symm⟩
  · rintro ⟨k, h, rfl⟩
    cases k with
    | scalar f =>
      obtain ⟨n, hn, hk, rfl⟩ := h
      exact writeKey_scalar hn hk
    | «alias» name text =>
      obtain ⟨n, r, m, hn, hk, rfl, hr, -, -⟩ := h
      rw [writeKey_alias hn hk, aliased_eq_ok.mpr hr]
      rfl
    | other text =>
      obtain ⟨n, hn, ha, hs, rfl⟩ := h
      exact writeKey_other hn hs ha

/-! ### Values -/

theorem writeValue_scalar {n : Node} (hn : t.get? id = some n) (hk : n.kind = .scalar)
    (maxDepth room indent : Nat) (position : Position) :
    t.writeValue maxDepth room id indent position = .ok (n.face.written indent position) := by
  have hp : n.properties = n.face.node.properties := Node.properties_face (by rw [hk]; decide)
  have hl : n.literalBlock? = n.face.node.literalBlock? := rfl
  have hi : n.inlineText = n.face.node.inlineText := rfl
  rw [writeValue.eq_def]
  cases hb : n.face.node.literalBlock? with
  | some block =>
    simp only [bind_ok (node_eq_ok.mpr hn), hk, hp, hl, hb, Face.written]
    rfl
  | none =>
    simp only [bind_ok (node_eq_ok.mpr hn), hk, hp, hl, hi, hb, Face.written]
    rfl

theorem writeValue_alias {n : Node} (hn : t.get? id = some n) (hk : n.kind = .alias)
    (maxDepth room indent : Nat) (position : Position) :
    t.writeValue maxDepth room id indent position = (t.aliased id n.value).bind fun _ =>
      .ok (position.gap ++ '*' :: n.value.toList ++ ['\n']) := by
  rw [writeValue.eq_def]
  simp only [bind_ok (node_eq_ok.mpr hn), hk]
  rfl

/-- Items are written with less room. -/
def writeItem (t : Tree) (maxDepth room indent : Nat) (id : NodeId) : Except Error (List Char) := do
  return '-' :: (← t.writeValue maxDepth room id indent .seqItem)

/-- Entries are written with less room. -/
def writeEntry (t : Tree) (maxDepth room indent : Nat) (entry : NodeId × Option NodeId) :
    Except Error (List Char) := do
  let key ← t.writeKey entry.1
  let value ←
    match entry.2 with
    | some v => t.writeValue maxDepth room v indent .mapValue
    | none => pure ['\n']
  return key ++ ':' :: value

theorem writeValue_sequence {n : Node} (hn : t.get? id = some n) (hk : n.kind = .sequence)
    (maxDepth room indent : Nat) (position : Position) :
    t.writeValue maxDepth (room + 1) id indent position =
      if n.children.isEmpty then
        .ok (position.gap ++ joinProperties n.face.node.properties ['[', ']'] ++ ['\n'])
      else
        let (indent, onLine, head) := position.open indent n.face.node.properties
        (n.children.toList.mapM (t.writeItem maxDepth room indent)).map
          fun items => head ++ padded indent onLine items := by
  have hp : n.properties = n.face.node.properties := Node.properties_face (by rw [hk]; decide)
  rw [writeValue.eq_def]
  simp only [bind_ok (node_eq_ok.mpr hn), hk, hp]
  split
  · rfl
  · rfl

theorem writeValue_mapping {n : Node} (hn : t.get? id = some n) (hk : n.kind = .mapping)
    (maxDepth room indent : Nat) (position : Position) :
    t.writeValue maxDepth (room + 1) id indent position =
      if n.children.isEmpty then
        .ok (position.gap ++ joinProperties n.face.node.properties ['\x7b', '\x7d'] ++ ['\n'])
      else
        let (indent, onLine, head) := position.open indent n.face.node.properties
        ((inPairs n.children.toList).mapM (t.writeEntry maxDepth room indent)).map
          fun entries => head ++ padded indent onLine entries := by
  have hp : n.properties = n.face.node.properties := Node.properties_face (by rw [hk]; decide)
  rw [writeValue.eq_def]
  simp only [bind_ok (node_eq_ok.mpr hn), hk, hp]
  split
  · rfl
  · rfl

theorem writeValue_zero {n : Node} (hn : t.get? id = some n) (hk : n.kind.isCollection = true)
    (maxDepth indent : Nat) (position : Position) :
    t.writeValue maxDepth 0 id indent position = .error (.depthExceeded maxDepth) := by
  rw [writeValue.eq_def]
  simp only [bind_ok (node_eq_ok.mpr hn)]
  cases hk' : n.kind with
  | mapping => rfl
  | sequence => rfl
  | _ => simp [Kind.isCollection, hk'] at hk

theorem writeValue_document {n : Node} (hn : t.get? id = some n) (hk : n.kind = .document)
    (maxDepth room indent : Nat) (position : Position) :
    t.writeValue maxDepth room id indent position = .error .nestedDocument := by
  rw [writeValue.eq_def]
  simp only [bind_ok (node_eq_ok.mpr hn), hk]
  rfl

theorem isEmpty_children {n : Node} {items : List Shape}
    (h : DenotesItems t n.children.toList items) : n.children.isEmpty = items.isEmpty := by
  rw [← Array.isEmpty_toList]
  cases items with
  | nil =>
    rw [DenotesItems] at h
    rw [h, List.isEmpty_nil, List.isEmpty_nil]
  | cons s rest =>
    obtain ⟨id, ids, heq, -⟩ := h
    rw [heq]
    rfl

theorem isEmpty_entries {n : Node} {entries : List (Key × Shape)}
    (h : DenotesEntries t (inPairs n.children.toList) entries) :
    n.children.isEmpty = entries.isEmpty := by
  rw [← Array.isEmpty_toList]
  cases entries with
  | nil =>
    rw [DenotesEntries] at h
    rcases hc : n.children.toList with _ | ⟨x, _ | ⟨y, xs⟩⟩
    · rfl
    · simp [hc, inPairs] at h
    · simp [hc, inPairs] at h
  | cons e rest =>
    obtain ⟨k, v, pairs, heq, -⟩ := h
    cases hc : n.children.toList with
    | nil => simp [hc, inPairs] at heq
    | cons x xs => rfl

mutual

/-- What has a shape can be written, if there is room for it. -/
theorem writeValue_of_denotes (t : Tree) (maxDepth : Nat) :
    ∀ (s : Shape) (room : Nat) (id : NodeId) (indent : Nat) (position : Position), Denotes t id s →
      s.height ≤ room → t.writeValue maxDepth room id indent position = .ok (s.written indent position)
  | .scalar f, room, id, indent, position, h, _ => by
    obtain ⟨n, hn, hk, rfl⟩ := h
    exact writeValue_scalar hn hk maxDepth room indent position
  | .alias name, room, id, indent, position, h, _ => by
    obtain ⟨n, hn, hk, rfl, hr⟩ := h
    obtain ⟨r, hr⟩ := Option.isSome_iff_exists.mp hr
    rw [writeValue_alias hn hk, aliased_eq_ok.mpr hr]
    rfl
  | .sequence f items, room, id, indent, position, h, hroom => by
    obtain ⟨n, hn, hk, rfl, hitems⟩ := h
    rw [Shape.height] at hroom
    obtain ⟨room, rfl⟩ : ∃ k, room = k + 1 := ⟨room - 1, by omega⟩
    have hmembers (i : Nat) := writeItems_of_denotes t maxDepth items room _ i hitems (by omega)
    rw [writeValue_sequence hn hk, isEmpty_children hitems, Shape.written]
    split
    · rfl
    · simp only [hmembers]
      rfl
  | .mapping f entries, room, id, indent, position, h, hroom => by
    obtain ⟨n, hn, hk, rfl, hentries⟩ := h
    rw [Shape.height] at hroom
    obtain ⟨room, rfl⟩ : ∃ k, room = k + 1 := ⟨room - 1, by omega⟩
    have hmembers (i : Nat) := writeEntries_of_denotes t maxDepth entries room _ i hentries (by omega)
    rw [writeValue_mapping hn hk, isEmpty_entries hentries, Shape.written]
    split
    · rfl
    · simp only [hmembers]
      rfl

theorem writeItems_of_denotes (t : Tree) (maxDepth : Nat) :
    ∀ (items : List Shape) (room : Nat) (ids : List NodeId) (indent : Nat), DenotesItems t ids items →
      Shape.heightItems items ≤ room →
      ids.mapM (t.writeItem maxDepth room indent) = .ok (Shape.writtenItems indent items)
  | [], room, ids, indent, h, _ => by
    rw [DenotesItems] at h
    rw [h]
    rfl
  | s :: rest, room, ids, indent, h, hroom => by
    obtain ⟨id, ids, rfl, hs, hrest⟩ := h
    rw [Shape.heightItems] at hroom
    have hitem : t.writeItem maxDepth room indent id = .ok ('-' :: s.written indent .seqItem) := by
      rw [writeItem, bind_ok (writeValue_of_denotes t maxDepth s room id indent .seqItem hs (by omega))]
      rfl
    rw [List.mapM_cons, bind_ok hitem,
      bind_ok (writeItems_of_denotes t maxDepth rest room ids indent hrest (by omega))]
    rfl

theorem writeEntries_of_denotes (t : Tree) (maxDepth : Nat) :
    ∀ (entries : List (Key × Shape)) (room : Nat) (pairs : List (NodeId × Option NodeId))
      (indent : Nat), DenotesEntries t pairs entries → Shape.heightEntries entries ≤ room →
      pairs.mapM (t.writeEntry maxDepth room indent) = .ok (Shape.writtenEntries indent entries)
  | [], room, pairs, indent, h, _ => by
    rw [DenotesEntries] at h
    rw [h]
    rfl
  | (k, s) :: rest, room, pairs, indent, h, hroom => by
    obtain ⟨i, v, pairs, rfl, hk, hv, hnone, hrest⟩ := h
    rw [Shape.heightEntries] at hroom
    have hkey : t.writeKey i = .ok k.written := writeKey_eq_ok.mpr ⟨k, hk, rfl⟩
    have hentry : t.writeEntry maxDepth room indent (i, v) =
        .ok (k.written ++ ':' :: s.written indent .mapValue) := by
      cases v with
      | none =>
        rw [writeEntry, bind_ok hkey, hnone rfl, Shape.written_empty]
        rfl
      | some v =>
        have hvalue := writeValue_of_denotes t maxDepth s room v indent .mapValue (hv v rfl) (by omega)
        simp only [writeEntry, bind_ok hkey, bind_ok hvalue]
        rfl
    rw [List.mapM_cons, bind_ok hentry,
      bind_ok (writeEntries_of_denotes t maxDepth rest room pairs indent hrest (by omega))]
    rfl

end

/-- Nodes that can be written with some room have shapes that are no higher. -/
def HasShapes (t : Tree) (maxDepth room : Nat) : Prop :=
  ∀ (id : NodeId) (indent : Nat) (position : Position) (text : List Char),
    t.writeValue maxDepth room id indent position = .ok text → ∃ s, Denotes t id s ∧ s.height ≤ room

theorem HasShapes.items {maxDepth room indent : Nat} (ih : t.HasShapes maxDepth room) :
    ∀ {ids : List NodeId} {texts : List (List Char)},
      List.Forall₂ (fun id text => t.writeItem maxDepth room indent id = .ok text) ids texts →
      ∃ items, DenotesItems t ids items ∧ Shape.heightItems items ≤ room
  | _, _, .nil => ⟨[], rfl, Nat.zero_le _⟩
  | id :: ids, _, .cons h hrest => by
    obtain ⟨value, hvalue, -⟩ := bind_eq_ok h
    obtain ⟨s, hs, hle⟩ := ih _ _ _ _ hvalue
    obtain ⟨items, hitems, hle'⟩ := ih.items hrest
    exact ⟨s :: items, ⟨id, ids, rfl, hs, hitems⟩, Nat.max_le.mpr ⟨hle, hle'⟩⟩

theorem HasShapes.entries {maxDepth room indent : Nat} (ih : t.HasShapes maxDepth room) :
    ∀ {pairs : List (NodeId × Option NodeId)} {texts : List (List Char)},
      List.Forall₂ (fun e text => t.writeEntry maxDepth room indent e = .ok text) pairs texts →
      ∃ entries, DenotesEntries t pairs entries ∧ Shape.heightEntries entries ≤ room
  | _, _, .nil => ⟨[], rfl, Nat.zero_le _⟩
  | (i, v) :: pairs, _, .cons h hrest => by
    obtain ⟨key, hkey, h⟩ := bind_eq_ok h
    obtain ⟨k, hk, -⟩ := writeKey_eq_ok.mp hkey
    obtain ⟨entries, hentries, hle'⟩ := ih.entries hrest
    cases v with
    | none =>
      exact ⟨(k, .empty) :: entries, ⟨i, none, pairs, rfl, hk, by simp, fun _ => rfl, hentries⟩,
        Nat.max_le.mpr ⟨Nat.zero_le _, hle'⟩⟩
    | some v =>
      obtain ⟨value, hvalue, -⟩ := bind_eq_ok h
      obtain ⟨s, hs, hle⟩ := ih _ _ _ _ hvalue
      refine ⟨(k, s) :: entries, ⟨i, some v, pairs, rfl, hk, fun id hid => ?_, by simp, hentries⟩,
        Nat.max_le.mpr ⟨hle, hle'⟩⟩
      obtain rfl : v = id := by simpa using hid
      exact hs

theorem exists_of_writeValue {maxDepth room indent : Nat} {position : Position} {text : List Char}
    (h : t.writeValue maxDepth room id indent position = .ok text) : ∃ n, t.get? id = some n := by
  rw [writeValue.eq_def] at h
  obtain ⟨n, hn, -⟩ := bind_eq_ok h
  exact ⟨n, node_eq_ok.mp hn⟩

/-- What is written of a node that is no collection does not depend on room. -/
theorem shape_of_leaf {n : Node} {maxDepth room indent : Nat} {position : Position}
    {text : List Char} (hn : t.get? id = some n) (hk : n.kind.isCollection = false)
    (h : t.writeValue maxDepth room id indent position = .ok text) :
    ∃ s, Denotes t id s ∧ s.height = 0 := by
  cases hk' : n.kind with
  | document =>
    rw [writeValue_document hn hk'] at h
    exact absurd h nofun
  | scalar => exact ⟨.scalar n.face, ⟨n, hn, hk', rfl⟩, rfl⟩
  | «alias» =>
    rw [writeValue_alias hn hk'] at h
    obtain ⟨r, hr, -⟩ := bind_eq_ok h
    exact ⟨.alias n.value, ⟨n, hn, hk', rfl, by simp [aliased_eq_ok.mp hr]⟩, rfl⟩
  | mapping => simp [Kind.isCollection, hk'] at hk
  | sequence => simp [Kind.isCollection, hk'] at hk

theorem hasShapes (t : Tree) (maxDepth room : Nat) : t.HasShapes maxDepth room := by
  induction room with
  | zero =>
    intro id indent position text h
    obtain ⟨n, hn⟩ := exists_of_writeValue h
    cases hk : n.kind.isCollection with
    | false =>
      obtain ⟨s, hs, hle⟩ := shape_of_leaf hn hk h
      exact ⟨s, hs, Nat.le_of_eq hle⟩
    | true =>
      rw [writeValue_zero hn hk] at h
      exact absurd h nofun
  | succ room ih =>
    intro id indent position text h
    obtain ⟨n, hn⟩ := exists_of_writeValue h
    cases hk : n.kind with
    | sequence =>
      obtain ⟨items, hitems, hle⟩ : ∃ items, DenotesItems t n.children.toList items ∧
          Shape.heightItems items ≤ room := by
        rw [writeValue_sequence hn hk] at h
        split at h
        · rename_i he
          exact ⟨[], by simpa [DenotesItems] using he, Nat.zero_le _⟩
        · obtain ⟨texts, htexts, -⟩ := map_eq_ok h
          exact ih.items (forall₂_of_mapM htexts)
      exact ⟨.sequence n.face items, ⟨n, hn, hk, rfl, hitems⟩, Nat.succ_le_succ hle⟩
    | mapping =>
      obtain ⟨entries, hentries, hle⟩ : ∃ entries,
          DenotesEntries t (inPairs n.children.toList) entries ∧
            Shape.heightEntries entries ≤ room := by
        rw [writeValue_mapping hn hk] at h
        split at h
        · rename_i he
          have hnil : n.children.toList = [] := by simpa using he
          exact ⟨[], by simp [DenotesEntries, hnil, inPairs], Nat.zero_le _⟩
        · obtain ⟨texts, htexts, -⟩ := map_eq_ok h
          exact ih.entries (forall₂_of_mapM htexts)
      exact ⟨.mapping n.face entries, ⟨n, hn, hk, rfl, hentries⟩, Nat.succ_le_succ hle⟩
    | _ =>
      obtain ⟨s, hs, hle⟩ := shape_of_leaf hn (by rw [hk]; rfl) h
      exact ⟨s, hs, hle ▸ Nat.zero_le _⟩

/-- A node can be written with some room exactly if it has a shape that is no higher, and what is
written is that of its shape. -/
theorem writeValue_eq_ok {maxDepth room indent : Nat} {position : Position} {text : List Char} :
    t.writeValue maxDepth room id indent position = .ok text ↔
      ∃ s, Denotes t id s ∧ s.height ≤ room ∧ text = s.written indent position := by
  constructor
  · intro h
    obtain ⟨s, hs, hle⟩ := hasShapes t maxDepth room id indent position text h
    rw [writeValue_of_denotes t maxDepth s room id indent position hs hle] at h
    exact ⟨s, hs, hle, (Except.ok.inj h).symm⟩
  · rintro ⟨s, hs, hle, rfl⟩
    exact writeValue_of_denotes t maxDepth s room id indent position hs hle

/-- A document with a value can be written exactly if its value has a shape that is not too high. -/
theorem write_eq_ok {maxDepth : Nat} {text : String} (hv : t.rootValue? = some id) :
    t.write maxDepth = .ok text ↔ ∃ s, Denotes t id s ∧ s.height ≤ maxDepth ∧
      text = String.ofList (s.written 0 .top) := by
  rw [write, hv]
  constructor
  · intro h
    obtain ⟨value, hvalue, h⟩ := bind_eq_ok h
    obtain ⟨s, hs, hle, rfl⟩ := writeValue_eq_ok.mp hvalue
    exact ⟨s, hs, hle, (Except.ok.inj h).symm⟩
  · rintro ⟨s, hs, hle, rfl⟩
    exact bind_ok (writeValue_eq_ok.mpr ⟨s, hs, hle, rfl⟩) _

end Tree

end TaggedYaml
