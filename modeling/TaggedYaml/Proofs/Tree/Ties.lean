import TaggedYaml.Proofs.Shape.Events
import TaggedYaml.Proofs.Tree.Pieces

/-!
# Ties — the names of a shape in the order in which they are written

The pieces of a written value have the names of its shape, in their order (`ties_value`).  Where every
alias among them stands behind an anchor of its name (`Tied`), its anchor is known when the value is
read again.
-/

namespace TaggedYaml

/-- A name that is written: that of an anchor or that of an alias. -/
inductive Tie where
  | anchor (name : String)
  | alias (name : String)
deriving DecidableEq, Repr

namespace Tie

/-- The names of anchors behind some names, the last first. -/
def after (known : List String) : List Tie → List String
  | [] => known
  | .anchor name :: ties => after (name :: known) ties
  | .alias _ :: ties => after known ties

/-- Every alias has an anchor of its name before it. -/
def Tied (known : List String) : List Tie → Prop
  | [] => True
  | .anchor name :: ties => Tied (name :: known) ties
  | .alias name :: ties => name ∈ known ∧ Tied known ties

theorem after_append : ∀ (ties : List Tie) (known : List String) (later : List Tie),
    after known (ties ++ later) = after (after known ties) later
  | [], _, _ => rfl
  | .anchor name :: ties, known, later => after_append ties (name :: known) later
  | .alias _ :: ties, known, later => after_append ties known later

theorem tied_append : ∀ (ties : List Tie) (known : List String) (later : List Tie),
    Tied known (ties ++ later) ↔ Tied known ties ∧ Tied (after known ties) later
  | [], _, _ => by simp [Tied, after]
  | .anchor name :: ties, known, later => tied_append ties (name :: known) later
  | .alias name :: ties, known, later => by
    show name ∈ known ∧ Tied known (ties ++ later) ↔
      (name ∈ known ∧ Tied known ties) ∧ Tied (after known ties) later
    rw [tied_append ties known later, and_assoc]

end Tie

/-! ### The names of a shape -/

/-- The name of an anchor. -/
def Face.ties (f : Face) : List Tie := (f.anchor.map .anchor).toList

/-- The name that is written of a key; of a collection there is none. -/
def Key.ties : Key → List Tie
  | .scalar f => f.ties
  | .alias name _ => [.alias name]
  | .other _ => []

namespace Shape

mutual

/-- The names of a shape in the order of writing. -/
def ties : Shape → List Tie
  | .scalar f => f.ties
  | .alias name => [.alias name]
  | .sequence f items => f.ties ++ tiesItems items
  | .mapping f entries => f.ties ++ tiesEntries entries

def tiesItems : List Shape → List Tie
  | [] => []
  | s :: rest => ties s ++ tiesItems rest

def tiesEntries : List (Key × Shape) → List Tie
  | [] => []
  | (k, s) :: rest => k.ties ++ (ties s ++ tiesEntries rest)

end

/-! #### They are those of its anchors -/

theorem after_face (known : List Anchor) (f : Face) :
    Tie.after (known.map (·.name)) f.ties = (nameAnchor known f.anchor).map (·.name) := by
  rw [Face.ties]
  cases f.anchor with
  | none => rfl
  | some name => rfl

theorem after_key (known : List Anchor) (k : Key) :
    Tie.after (known.map (·.name)) k.ties = (keyAnchors known k).map (·.name) := by
  cases k with
  | scalar f => exact after_face known f
  | «alias» name text => rfl
  | other text => rfl

mutual

theorem after_ties : ∀ (s : Shape) (known : List Anchor),
    Tie.after (known.map (·.name)) s.ties = (s.anchors known).map (·.name)
  | .scalar f, known => after_face known f
  | .alias _, _ => rfl
  | .sequence f items, known => by
    rw [ties, Tie.after_append, after_face, after_tiesItems items]
    rfl
  | .mapping f entries, known => by
    rw [ties, Tie.after_append, after_face, after_tiesEntries entries]
    rfl

theorem after_tiesItems : ∀ (items : List Shape) (known : List Anchor),
    Tie.after (known.map (·.name)) (tiesItems items) = (anchorsItems known items).map (·.name)
  | [], _ => rfl
  | s :: rest, known => by
    rw [tiesItems, Tie.after_append, after_ties s, after_tiesItems rest]
    rfl

theorem after_tiesEntries : ∀ (entries : List (Key × Shape)) (known : List Anchor),
    Tie.after (known.map (·.name)) (tiesEntries entries) =
      (anchorsEntries known entries).map (·.name)
  | [], _ => rfl
  | (k, s) :: rest, known => by
    rw [tiesEntries, Tie.after_append, Tie.after_append, after_key, after_ties s,
      after_tiesEntries rest]
    rfl

end

end Shape

/-! ### The names among pieces -/

namespace Piece

/-- The name that a piece is. -/
def tie? : Piece → Option Tie
  | .text _ => none
  | .anchor _ name => some (.anchor name)
  | .alias _ name => some (.alias name)

/-- The names among pieces. -/
def ties (ps : List Piece) : List Tie := ps.filterMap tie?

@[simp] theorem ties_nil : ties [] = [] := rfl

@[simp] theorem ties_text (cs : List Char) (ps : List Piece) : ties (.text cs :: ps) = ties ps := rfl

@[simp] theorem ties_append (ps qs : List Piece) : ties (ps ++ qs) = ties ps ++ ties qs := by
  simp [ties]

@[simp] theorem ties_join (ps : List Piece) (cs : List Char) : ties (join ps cs) = ties ps := by
  unfold join
  split
  · rename_i h
    rw [List.isEmpty_iff.mp h]
    rfl
  · split
    · rfl
    · simp

@[simp] theorem ties_head (position : Position) (ps : List Piece) :
    ties (position.head ps) = ties ps := by
  cases ps with
  | nil => cases position <;> rfl
  | cons p ps =>
    have htext : ties (p :: ps ++ [.text ['\n']]) = ties (p :: ps) := by
      rw [ties_append, ties_text, ties_nil, List.append_nil]
    cases position with
    | top => exact htext
    | mapValue => exact htext
    | seqItem => exact htext

@[simp] theorem ties_padded (indent : Nat) : ∀ (onLine : Bool) (xs : List (List Piece)),
    ties (padded indent onLine xs) = ties xs.flatten
  | _, [] => rfl
  | onLine, x :: rest => by
    rw [padded, ties_text, ties_append, ties_padded indent false rest, List.flatten_cons, ties_append]

/-- Names are no empty text. -/
theorem ties_of_render_nil : ∀ {ps : List Piece}, render ps = [] → ties ps = []
  | [], _ => rfl
  | .text cs :: ps, h => by
    rw [render_cons] at h
    rw [ties_text]
    exact ties_of_render_nil (List.append_eq_nil_iff.mp h).2
  | .anchor _ _ :: _, h => absurd h (by simp [chars])
  | .alias _ _ :: _, h => absurd h (by simp [chars])

theorem ties_properties (n : Node) (id : NodeId) : ties (n.propertyPieces id) = n.face.ties := by
  have htag : ties (if n.hasOwnTag && n.kind != .alias then
      [.text ((if n.anchor.isSome then [' '] else []) ++ n.tag.toList)] else []) = [] := by
    split
    · rfl
    · rfl
  rw [Node.propertyPieces, ties_append, htag, List.append_nil, Face.ties]
  show _ = (n.anchor.map Tie.anchor).toList
  cases n.anchor with
  | none => rfl
  | some name => rfl

/-- Where every alias has an anchor before it, behind some pieces too. -/
theorem tied_of_anchors : ∀ (ps done : List Piece) {known : List String},
    (∀ id name, .anchor id name ∈ done → name ∈ known) →
    (∀ before a name behind, done ++ ps = before ++ .alias a name :: behind →
      ∃ id, .anchor id name ∈ before) → Tie.Tied known (ties ps)
  | [], _, _, _, _ => trivial
  | .text cs :: ps, done, known, hdone, h => by
    rw [ties_text]
    refine tied_of_anchors ps (done ++ [.text cs]) (fun id name hm => ?_) (by simpa using h)
    exact hdone id name (by simpa using hm)
  | .anchor i a :: ps, done, known, hdone, h => by
    show Tie.Tied (a :: known) (ties ps)
    refine tied_of_anchors ps (done ++ [.anchor i a]) (fun id name hm => ?_) (by simpa using h)
    rcases List.mem_append.mp hm with hm | hm
    · exact List.mem_cons_of_mem _ (hdone id name hm)
    · obtain ⟨-, rfl⟩ := Piece.anchor.inj (List.mem_singleton.mp hm)
      exact List.mem_cons_self
  | .alias i a :: ps, done, known, hdone, h => by
    obtain ⟨id, hid⟩ := h done i a ps rfl
    refine ⟨hdone id a hid, ?_⟩
    refine tied_of_anchors ps (done ++ [.alias i a]) (fun id name hm => ?_) (by simpa using h)
    exact hdone id name (by simpa using hm)

end Piece

/-! ### The names of a written value are those of its shape -/

namespace Tree

variable {t : Tree} {id : NodeId} {ps : List Piece} {maxDepth indent : Nat} {position : Position}

theorem ties_scalar (n : Node) (id : NodeId) (indent : Nat) (position : Position) :
    Piece.ties (scalarPieces n id indent position) = n.face.ties := by
  unfold scalarPieces
  split
  · simp [Piece.ties_properties]
  · have hline := Piece.ties_properties n id
    rw [← Piece.ties_join _ n.inlineText] at hline
    rw [Piece.ties_append, Piece.ties_text, Piece.ties_nil, List.append_nil, ← hline]
    split
    · rename_i h
      exact (Piece.ties_of_render_nil (List.isEmpty_iff.mp h)).symm
    · rfl

theorem ties_key {k : Key} (hd : DenotesKey t id k) (h : t.keyPieces id = .ok ps) :
    Piece.ties ps = k.ties := by
  unfold keyPieces at h
  cases k with
  | scalar f =>
    obtain ⟨n, hn, hk, rfl⟩ := hd
    rw [bind_ok (node_eq_ok.mpr hn)] at h
    simp only [hk] at h
    obtain rfl := Except.ok.inj h
    rw [Piece.ties_join, Piece.ties_properties]
    rfl
  | «alias» name text =>
    obtain ⟨n, r, m, hn, hk, rfl, -⟩ := hd
    rw [bind_ok (node_eq_ok.mpr hn)] at h
    simp only [hk] at h
    obtain ⟨r, -, h⟩ := bind_eq_ok h
    obtain rfl := Except.ok.inj h
    rfl
  | other text =>
    obtain ⟨n, hn, hna, hns, -⟩ := hd
    rw [bind_ok (node_eq_ok.mpr hn)] at h
    cases hk : n.kind with
    | «alias» => exact absurd hk hna
    | scalar => exact absurd hk hns
    | _ =>
      simp only [hk] at h
      obtain ⟨text, -, h⟩ := bind_eq_ok h
      obtain rfl := Except.ok.inj h
      rfl

/-- The names of a collection come before those of its members. -/
theorem ties_collection {α : Type} {f : α → Except Error (List Piece)} {members : List α}
    {cs : List Char} {inner : Nat} {onLine : Bool} {n : Node} {ties : List Tie}
    (hempty : n.children.isEmpty = true → ties = [])
    (hmembers : ∀ xs, members.mapM f = .ok xs → Piece.ties xs.flatten = ties)
    (h : (if n.children.isEmpty then
        .ok (.text position.gap :: Piece.join (n.propertyPieces id) cs ++ [.text ['\n']])
      else (members.mapM f).map fun xs =>
        position.head (n.propertyPieces id) ++ Piece.padded inner onLine xs) = .ok ps) :
    Piece.ties ps = n.face.ties ++ ties := by
  split at h
  · rename_i hn
    obtain rfl := Except.ok.inj h
    rw [hempty hn]
    simp [Piece.ties_properties]
  · obtain ⟨xs, hxs, rfl⟩ := map_eq_ok h
    rw [Piece.ties_append, Piece.ties_head, Piece.ties_padded, hmembers xs hxs, Piece.ties_properties]

mutual

/-- The pieces of a value have the names of its shape. -/
theorem ties_value : ∀ {s : Shape} {room : Nat} {id : NodeId} {indent : Nat} {position : Position}
    {ps : List Piece}, Denotes t id s →
    t.valuePieces maxDepth room id indent position = .ok ps → Piece.ties ps = s.ties
  | .scalar f, room, id, indent, position, ps, hd, h => by
    obtain ⟨n, hn, hk, rfl⟩ := hd
    rw [valuePieces_scalar hn hk] at h
    obtain rfl := Except.ok.inj h
    exact ties_scalar n id indent position
  | .alias name, room, id, indent, position, ps, hd, h => by
    obtain ⟨n, hn, hk, rfl, -⟩ := hd
    rw [valuePieces_alias hn hk] at h
    obtain ⟨r, -, h⟩ := bind_eq_ok h
    obtain rfl := Except.ok.inj h
    rfl
  | .sequence f items, 0, id, indent, position, ps, hd, h => by
    obtain ⟨n, hn, hk, -, -⟩ := hd
    rw [valuePieces_zero hn (by rw [hk]; rfl)] at h
    cases h
  | .sequence f items, room + 1, id, indent, position, ps, hd, h => by
    obtain ⟨n, hn, hk, rfl, hitems⟩ := hd
    rw [valuePieces_sequence hn hk] at h
    refine ties_collection (fun he => ?_) (fun xs hxs => ties_items hitems hxs) h
    rw [Array.isEmpty_iff.mp he] at hitems
    cases items with
    | nil => rfl
    | cons s rest =>
      obtain ⟨c, ids, hids, -⟩ := hitems
      cases hids
  | .mapping f entries, 0, id, indent, position, ps, hd, h => by
    obtain ⟨n, hn, hk, -, -⟩ := hd
    rw [valuePieces_zero hn (by rw [hk]; rfl)] at h
    cases h
  | .mapping f entries, room + 1, id, indent, position, ps, hd, h => by
    obtain ⟨n, hn, hk, rfl, hentries⟩ := hd
    rw [valuePieces_mapping hn hk] at h
    refine ties_collection (fun he => ?_) (fun xs hxs => ties_entries hentries hxs) h
    rw [Array.isEmpty_iff.mp he] at hentries
    cases entries with
    | nil => rfl
    | cons e rest =>
      obtain ⟨i, v, pairs, hpairs, -⟩ := hentries
      cases hpairs

theorem ties_items : ∀ {items : List Shape} {room indent : Nat} {ids : List NodeId}
    {xs : List (List Piece)}, DenotesItems t ids items →
    ids.mapM (t.itemPieces maxDepth room indent) = .ok xs →
    Piece.ties xs.flatten = Shape.tiesItems items
  | [], room, indent, ids, xs, hd, h => by
    obtain rfl : ids = [] := hd
    cases h
    rfl
  | s :: rest, room, indent, ids, xs, hd, h => by
    obtain ⟨id, ids, rfl, hs, hrest⟩ := hd
    rw [List.mapM_cons] at h
    obtain ⟨x, hx, h⟩ := bind_eq_ok h
    obtain ⟨xs, hxs, h⟩ := bind_eq_ok h
    obtain rfl := Except.ok.inj h
    obtain ⟨ps, hps, hx⟩ := bind_eq_ok hx
    obtain rfl := Except.ok.inj hx
    rw [List.flatten_cons, Piece.ties_append, Piece.ties_text, ties_value hs hps,
      ties_items hrest hxs]
    rfl

theorem ties_entries : ∀ {entries : List (Key × Shape)} {room indent : Nat}
    {pairs : List (NodeId × Option NodeId)} {xs : List (List Piece)}, DenotesEntries t pairs entries →
    pairs.mapM (t.entryPieces maxDepth room indent) = .ok xs →
    Piece.ties xs.flatten = Shape.tiesEntries entries
  | [], room, indent, pairs, xs, hd, h => by
    obtain rfl : pairs = [] := hd
    cases h
    rfl
  | (k, s) :: rest, room, indent, pairs, xs, hd, h => by
    obtain ⟨i, v, pairs, rfl, hk, hv, hnone, hrest⟩ := hd
    rw [List.mapM_cons] at h
    obtain ⟨x, hx, h⟩ := bind_eq_ok h
    obtain ⟨xs, hxs, h⟩ := bind_eq_ok h
    obtain rfl := Except.ok.inj h
    obtain ⟨ks, hks, hx⟩ := bind_eq_ok hx
    have hvalue : ∃ ys, x = ks ++ .text [':'] :: ys ∧ Piece.ties ys = s.ties := by
      cases v with
      | none =>
        obtain rfl := hnone rfl
        exact ⟨_, (Except.ok.inj hx).symm, rfl⟩
      | some c =>
        obtain ⟨ys, hys, hx⟩ := bind_eq_ok hx
        exact ⟨ys, (Except.ok.inj hx).symm, ties_value (hv c rfl) hys⟩
    obtain ⟨ys, rfl, hys⟩ := hvalue
    rw [List.flatten_cons, Piece.ties_append, Piece.ties_append, Piece.ties_text, ties_key hk hks,
      hys, ties_entries hrest hxs, List.append_assoc]
    rfl

end

end Tree

end TaggedYaml
