import TaggedYaml.Proofs.Except
import TaggedYaml.Proofs.Shape.Basic

/-!
# The value of a node is the value of its shape

`valueAt_of_denotes` for a node and `value_of_denotes` for a document, of shapes in which no value is
an alias.
-/

namespace TaggedYaml

namespace Tree

variable {t : Tree} {id : NodeId}

theorem node_eq_ok {n : Node} : t.node id = .ok n ↔ t.get? id = some n := by
  rw [node]
  cases t.get? id <;> simp

theorem aliased_eq_ok {r : NodeId} {name : String} :
    t.aliased id name = .ok r ↔ t.resolve? id = some r := by
  rw [aliased]
  cases t.resolve? id <;> simp

theorem keyText_of_denotes {k : Key} (h : DenotesKey t id k) : t.keyText id = .ok k.text := by
  cases k with
  | scalar f =>
    obtain ⟨n, hn, hk, rfl⟩ := h
    simp [keyText, node_eq_ok.mpr hn, bind, Except.bind, hk, pure, Except.pure, Key.text, Node.face]
  | «alias» name text =>
    obtain ⟨n, r, m, hn, hk, rfl, hr, hm, rfl⟩ := h
    simp [keyText, node_eq_ok.mpr hn, node_eq_ok.mpr hm, aliased_eq_ok.mpr hr, bind, Except.bind, hk,
      pure, Except.pure, Key.text]
  | other text =>
    obtain ⟨n, hn, hk, -, rfl⟩ := h
    simp [keyText, node_eq_ok.mpr hn, bind, Except.bind, hk, pure, Except.pure, Key.text]

theorem content_scalar {n : Node} (hn : t.get? id = some n) (hk : n.kind = .scalar) (fuel : Nat) :
    t.content (fuel + 1) id = .ok (.text n.value) := by
  simp [content, node_eq_ok.mpr hn, bind, Except.bind, hk, pure, Except.pure]

theorem content_collection {n : Node} (hn : t.get? id = some n)
    (hk : n.kind = .sequence ∨ n.kind = .mapping) (fuel : Nat) :
    t.content (fuel + 1) id = .ok (.collection n) := by
  rcases hk with hk | hk <;>
    simp [content, node_eq_ok.mpr hn, bind, Except.bind, hk, pure, Except.pure]

theorem valueAt_scalar {n : Node} (hn : t.get? id = some n) (hk : n.kind = .scalar)
    (maxDepth room : Nat) : t.valueAt maxDepth room id = .ok (.text n.value) := by
  rw [valueAt.eq_def]
  simp [contentSteps, content_scalar hn hk, bind, Except.bind, pure, Except.pure]

theorem valueAt_sequence {n : Node} (hn : t.get? id = some n) (hk : n.kind = .sequence)
    (maxDepth room : Nat) : t.valueAt maxDepth (room + 1) id =
      (n.children.toList.mapM fun c => t.valueAt maxDepth room c).map .list := by
  rw [valueAt.eq_def]
  simp only [contentSteps, content_collection hn (.inl hk), bind, Except.bind, hk, beq_self_eq_true,
    if_true]
  rfl

/-- Puts the entries of a mapping one by one. -/
def putAll (t : Tree) (maxDepth room : Nat) (into : List (String × Value))
    (pairs : List (NodeId × Option NodeId)) : Except Error (List (String × Value)) :=
  pairs.foldlM (fun entries (k, v) => do
    let value ←
      match v with
      | some v => t.valueAt maxDepth room v
      | none => pure (.text "")
    return Value.put (← t.keyText k) value entries) into

/-- The value of a node is that of its content. -/
theorem valueAt_of_content {c : Content} (hc : t.content contentSteps id = .ok c)
    (maxDepth room : Nat) : t.valueAt maxDepth room id =
      match c, room with
      | .text s, _ => .ok (.text s)
      | .nothing, _ => .ok (.map [])
      | .collection _, 0 => .error (.depthExceeded maxDepth)
      | .collection n, room + 1 =>
        if n.kind == .sequence then
          (n.children.toList.mapM fun c => t.valueAt maxDepth room c).map .list
        else (t.putAll maxDepth room [] (inPairs n.children.toList)).map .map := by
  rw [valueAt.eq_def]
  simp only [bind_ok hc]
  cases c with
  | text s => rfl
  | nothing => rfl
  | collection n =>
    cases room with
    | zero => rfl
    | succ room =>
      simp only
      split <;> rfl

theorem valueAt_mapping {n : Node} (hn : t.get? id = some n) (hk : n.kind = .mapping)
    (maxDepth room : Nat) : t.valueAt maxDepth (room + 1) id =
      (t.putAll maxDepth room [] (inPairs n.children.toList)).map .map := by
  have hne : (Kind.mapping == Kind.sequence) = false := rfl
  rw [valueAt.eq_def]
  simp only [contentSteps, content_collection hn (.inr hk), bind, Except.bind, hk, hne,
    Bool.false_eq_true, if_false]
  rfl

mutual

theorem valueAt_of_denotes (t : Tree) (maxDepth : Nat) :
    ∀ (s : Shape) (room : Nat) (id : NodeId), Denotes t id s → s.Direct → s.height ≤ room →
      t.valueAt maxDepth room id = .ok s.value
  | .scalar f, room, id, h, _, _ => by
    obtain ⟨n, hn, hk, rfl⟩ := h
    exact valueAt_scalar hn hk maxDepth room
  | .alias name, room, id, _, hd, _ => by
    rw [Shape.Direct] at hd
    exact hd.elim
  | .sequence f items, room, id, h, hd, hr => by
    obtain ⟨n, hn, hk, rfl, hitems⟩ := h
    rw [Shape.height] at hr
    obtain ⟨room, rfl⟩ : ∃ k, room = k + 1 := ⟨room - 1, by omega⟩
    rw [Shape.Direct] at hd
    have hvalues := mapM_of_forall₂
      (valueItems_of_denotes t maxDepth items room _ hitems hd (by omega))
    rw [valueAt_sequence hn hk, hvalues, Shape.value]
    rfl
  | .mapping f entries, room, id, h, hd, hr => by
    obtain ⟨n, hn, hk, rfl, hentries⟩ := h
    rw [Shape.height] at hr
    obtain ⟨room, rfl⟩ : ∃ k, room = k + 1 := ⟨room - 1, by omega⟩
    rw [Shape.Direct] at hd
    rw [valueAt_mapping hn hk, putAll_of_denotes t maxDepth entries room _ [] hentries hd (by omega),
      Shape.value]
    rfl

theorem valueItems_of_denotes (t : Tree) (maxDepth : Nat) :
    ∀ (items : List Shape) (room : Nat) (ids : List NodeId), DenotesItems t ids items →
      Shape.DirectItems items → Shape.heightItems items ≤ room →
      List.Forall₂ (fun id v => t.valueAt maxDepth room id = .ok v) ids (Shape.valueItems items)
  | [], room, ids, h, _, _ => by
    rw [DenotesItems] at h
    rw [h, Shape.valueItems]
    exact .nil
  | s :: rest, room, ids, h, hd, hr => by
    obtain ⟨id, ids, rfl, hs, hrest⟩ := h
    rw [Shape.DirectItems] at hd
    rw [Shape.heightItems] at hr
    rw [Shape.valueItems]
    exact .cons (valueAt_of_denotes t maxDepth s room id hs hd.1 (by omega))
      (valueItems_of_denotes t maxDepth rest room ids hrest hd.2 (by omega))

theorem putAll_of_denotes (t : Tree) (maxDepth : Nat) :
    ∀ (entries : List (Key × Shape)) (room : Nat) (pairs : List (NodeId × Option NodeId))
      (into : List (String × Value)), DenotesEntries t pairs entries → Shape.DirectEntries entries →
      Shape.heightEntries entries ≤ room →
      t.putAll maxDepth room into pairs = .ok (Shape.valueEntries into entries)
  | [], room, pairs, into, h, _, _ => by
    rw [DenotesEntries] at h
    rw [h, Shape.valueEntries]
    rfl
  | (k, s) :: rest, room, pairs, into, h, hd, hr => by
    obtain ⟨i, v, pairs, rfl, hk, hv, hnone, hrest⟩ := h
    rw [Shape.DirectEntries] at hd
    rw [Shape.heightEntries] at hr
    have ih := putAll_of_denotes t maxDepth rest room pairs (Value.put k.text s.value into) hrest hd.2
      (by omega)
    rw [Shape.valueEntries, ← ih, putAll, List.foldlM_cons]
    cases v with
    | none =>
      have hempty : s.value = .text "" := by
        rw [hnone rfl]
        rfl
      simp only [hempty, keyText_of_denotes hk]
      rfl
    | some v =>
      have hvalue := valueAt_of_denotes t maxDepth s room v (hv v rfl) hd.1 (by omega)
      simp only [hvalue, keyText_of_denotes hk]
      rfl

end

/-- What a node of a shape holds can be seen at once. -/
theorem content_of_denotes {s : Shape} (h : Denotes t id s) (hd : s.Direct) (fuel : Nat) :
    t.content (fuel + 1) id = t.content 1 id := by
  cases s with
  | scalar f =>
    obtain ⟨n, hn, hk, -⟩ := h
    rw [content_scalar hn hk, content_scalar hn hk]
  | «alias» name =>
    rw [Shape.Direct] at hd
    exact hd.elim
  | sequence f items =>
    obtain ⟨n, hn, hk, -⟩ := h
    rw [content_collection hn (.inl hk), content_collection hn (.inl hk)]
  | mapping f entries =>
    obtain ⟨n, hn, hk, -⟩ := h
    rw [content_collection hn (.inr hk), content_collection hn (.inr hk)]

theorem get?_root (t : Tree) : t.get? root = some t.rootNode :=
  Array.getElem?_eq_getElem t.size_pos

/-- The value of a document is that of the shape below it. -/
theorem value_of_denotes {s : Shape} {maxDepth : Nat} (hk : t.rootNode.kind = .document)
    (hv : t.rootValue? = some id) (h : Denotes t id s) (hd : s.Direct) (hr : s.height ≤ maxDepth) :
    t.value maxDepth = .ok s.value := by
  have hroot : t.content contentSteps root = t.content contentSteps id := by
    rw [rootValue?] at hv
    have hstep : t.content contentSteps root = t.content 3 id := by
      simp [contentSteps, content, node_eq_ok.mpr t.get?_root, bind, Except.bind, hk, hv]
    rw [hstep, contentSteps, content_of_denotes h hd 2, content_of_denotes h hd 3]
  rw [← valueAt_of_denotes t maxDepth s maxDepth id h hd hr, value, valueOf, valueAt.eq_def,
    valueAt.eq_def]
  simp only [hroot]

end Tree

end TaggedYaml
