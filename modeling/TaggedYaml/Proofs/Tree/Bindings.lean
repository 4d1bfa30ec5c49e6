import TaggedYaml.Proofs.Tree.Order
import TaggedYaml.Proofs.Tree.Pieces
import TaggedYaml.Proofs.Tree.Total

/-!
# Bindings — what the aliases of a written text mean

Names are written in the order of the nodes, each node once.  So an alias means in the text the node
that it leads to in the tree, exactly if that node is written with its anchor (`alias_write`).  A
collection that is a key is written as a text and a flattened node as a string: what is below them is
not written, and an alias of it is left without its anchor.
-/

namespace TaggedYaml

namespace Piece

/-- The node that a name is written for. -/
def node? : Piece → Option NodeId
  | .text _ => none
  | .anchor id _ => some id
  | .alias id _ => some id

/-- The nodes that names are written for, in the order of these. -/
def nodes (ps : List Piece) : List NodeId := ps.filterMap node?

/-- The node for which a name was written last as an anchor. -/
def lastAnchor (name : String) (ps : List Piece) : Option NodeId :=
  ps.reverse.findSome? fun
    | .anchor id other => if other = name then some id else none
    | _ => none

@[simp] theorem nodes_append (ps qs : List Piece) : nodes (ps ++ qs) = nodes ps ++ nodes qs := by
  simp [nodes]

@[simp] theorem nodes_text (cs : List Char) (ps : List Piece) : nodes (.text cs :: ps) = nodes ps := rfl

end Piece

namespace Tree

variable {t : Tree} {id : NodeId} {n : Node} {ps qs : List Piece} {lo mid hi : Nat}

/-- The nodes that are written with their names: the value of the document, members of sequences,
values of entries, and keys that are no collections. -/
inductive Shown (t : Tree) : NodeId → Prop where
  | value {id : NodeId} (h : t.rootValue? = some id) : Shown t id
  | item {p c : NodeId} {n : Node} (hp : Shown t p) (hn : t.get? p = some n) (hk : n.kind = .sequence)
      (hc : c ∈ n.children.toList) : Shown t c
  | key {p k : NodeId} {v : Option NodeId} {n m : Node} (hp : Shown t p) (hn : t.get? p = some n)
      (hk : n.kind = .mapping) (hc : (k, v) ∈ inPairs n.children.toList) (hm : t.get? k = some m)
      (hkey : m.kind = .scalar ∨ m.kind = .alias) : Shown t k
  | entry {p k v : NodeId} {n : Node} (hp : Shown t p) (hn : t.get? p = some n)
      (hk : n.kind = .mapping) (hc : (k, some v) ∈ inPairs n.children.toList) : Shown t v

/-- A name is that of its node, and this node is one that is written with its names. -/
def Tells (t : Tree) : Piece → Prop
  | .text _ => True
  | .anchor id name => t.Shown id ∧ ∃ n, t.get? id = some n ∧ n.anchor = some name
  | .alias id name => t.Shown id ∧ ∃ n, t.get? id = some n ∧ n.kind = .alias ∧ n.value = name

/-- Pieces with the names of some of the nodes between two numbers, in their order. -/
structure Covers (t : Tree) (lo hi : Nat) (ps : List Piece) : Prop where
  sorted : (Piece.nodes ps).Pairwise (· < ·)
  within : ∀ i : Nat, i ∈ Piece.nodes ps → lo ≤ i ∧ i < hi
  tells : ∀ p ∈ ps, t.Tells p

theorem Covers.nil (lo hi : Nat) : t.Covers lo hi [] :=
  ⟨.nil, fun i hi => by simp [Piece.nodes] at hi, fun p hp => by simp at hp⟩

theorem Covers.mono {lo' hi' : Nat} (h : t.Covers lo hi ps) (hlo : lo' ≤ lo) (hhi : hi ≤ hi') :
    t.Covers lo' hi' ps := by
  refine ⟨h.sorted, fun i hi => ?_, h.tells⟩
  obtain ⟨h1, h2⟩ := h.within i hi
  exact ⟨Nat.le_trans hlo h1, Nat.lt_of_lt_of_le h2 hhi⟩

theorem Covers.append (h : t.Covers lo mid ps) (h' : t.Covers mid hi qs) (hlo : lo ≤ mid)
    (hhi : mid ≤ hi) : t.Covers lo hi (ps ++ qs) := by
  refine ⟨?_, fun i hi' => ?_, fun p hp => ?_⟩
  · rw [Piece.nodes_append, List.pairwise_append]
    refine ⟨h.sorted, h'.sorted, fun i hi j hj => ?_⟩
    exact Nat.lt_of_lt_of_le (h.within i hi).2 (h'.within j hj).1
  · rw [Piece.nodes_append, List.mem_append] at hi'
    rcases hi' with hi' | hi'
    · obtain ⟨h1, h2⟩ := h.within i hi'
      exact ⟨h1, Nat.lt_of_lt_of_le h2 hhi⟩
    · obtain ⟨h1, h2⟩ := h'.within i hi'
      exact ⟨Nat.le_trans hlo h1, h2⟩
  · exact (List.mem_append.mp hp).elim (h.tells p) (h'.tells p)

/-- A text between names tells nothing. -/
theorem Covers.text (cs : List Char) (h : t.Covers lo hi ps) : t.Covers lo hi (.text cs :: ps) := by
  refine ⟨h.sorted, h.within, fun p hp => ?_⟩
  rcases List.mem_cons.mp hp with rfl | hp
  · trivial
  · exact h.tells p hp

theorem Covers.behind (h : t.Covers lo hi ps) (cs : List Char) :
    t.Covers lo hi (ps ++ [.text cs]) := by
  have hnodes : Piece.nodes (ps ++ [.text cs]) = Piece.nodes ps := by simp [Piece.nodes, Piece.node?]
  refine ⟨hnodes ▸ h.sorted, hnodes ▸ h.within, fun p hp => ?_⟩
  rcases List.mem_append.mp hp with hp | hp
  · exact h.tells p hp
  · obtain rfl := List.mem_singleton.mp hp
    trivial

/-! ### The names of one node -/

/-- The name of a node, which may stand between texts. -/
theorem covers_name {p : Piece} (hp : p.node? = some id) (ht : t.Tells p) :
    t.Covers id (id + 1) [p] := by
  have hnodes : Piece.nodes [p] = [id] := by simp [Piece.nodes, hp]
  refine ⟨hnodes ▸ List.pairwise_singleton _ _, fun i hi => ?_, fun q hq => ?_⟩
  · rw [hnodes, List.mem_singleton] at hi
    subst hi
    exact ⟨Nat.le_refl _, Nat.lt_succ_self _⟩
  · rw [List.mem_singleton] at hq
    exact hq ▸ ht

theorem covers_properties (hn : t.get? id = some n) (hs : t.Shown id) :
    t.Covers id (id + 1) (n.propertyPieces id) := by
  have htag (lo hi : Nat) : t.Covers lo hi (if n.hasOwnTag && n.kind != .alias then
      [.text ((if n.anchor.isSome then [' '] else []) ++ n.tag.toList)] else []) := by
    split
    · exact .text _ (.nil lo hi)
    · exact .nil lo hi
  rw [Node.propertyPieces]
  cases ha : n.anchor with
  | none =>
    rw [ha] at htag
    exact htag id (id + 1)
  | some name =>
    rw [ha] at htag
    have hname : t.Tells (.anchor id name) := ⟨hs, n, hn, ha⟩
    exact (covers_name rfl hname).append (htag (id + 1) (id + 1)) (Nat.le_succ id) (Nat.le_refl _)

theorem Covers.join (h : t.Covers lo hi ps) (cs : List Char) : t.Covers lo hi (Piece.join ps cs) := by
  unfold Piece.join
  split
  · exact .text cs (.nil lo hi)
  · split
    · exact h
    · exact h.behind _

theorem Covers.head (h : t.Covers lo hi ps) (position : Position) :
    t.Covers lo hi (position.head ps) := by
  unfold Position.head
  split
  · exact .nil lo hi
  · exact h.behind _
  · exact .text _ (.nil lo hi)
  · exact .text _ (.nil lo hi)
  · exact .text _ (h.behind _)

theorem covers_scalar (hn : t.get? id = some n) (hs : t.Shown id) (indent : Nat)
    (position : Position) : t.Covers id (id + 1) (scalarPieces n id indent position) := by
  have hproperties := covers_properties hn hs
  unfold scalarPieces
  split
  · exact .text _ ((hproperties.join _).behind _)
  · refine Covers.behind ?_ _
    split
    · exact .nil id (id + 1)
    · exact .text _ (hproperties.join _)

theorem covers_alias (hn : t.get? id = some n) (hk : n.kind = .alias) (hs : t.Shown id) :
    t.Covers id (id + 1) [.alias id n.value] := by
  have hname : t.Tells (.alias id n.value) := ⟨hs, n, hn, hk, rfl⟩
  exact covers_name rfl hname

/-- A key names no node but itself. -/
theorem covers_key (hn : t.get? id = some n)
    (hs : n.kind = .scalar ∨ n.kind = .alias → t.Shown id) (h : t.keyPieces id = .ok ps) :
    t.Covers id (id + 1) ps := by
  rw [keyPieces, bind_ok (node_eq_ok.mpr hn)] at h
  cases hk : n.kind with
  | «alias» =>
    simp only [hk] at h
    obtain ⟨r, -, h⟩ := bind_eq_ok h
    obtain rfl := Except.ok.inj h
    exact (covers_alias hn hk (hs (.inr hk))).behind [' ']
  | scalar =>
    simp only [hk] at h
    obtain rfl := Except.ok.inj h
    exact (covers_properties hn (hs (.inl hk))).join _
  | _ =>
    simp only [hk] at h
    obtain ⟨text, -, h⟩ := bind_eq_ok h
    obtain rfl := Except.ok.inj h
    exact .text _ (.nil _ _)

/-! ### The names below a node -/

theorem Covers.padded {xs : List (List Piece)} (h : t.Covers lo hi xs.flatten) (indent : Nat)
    (onLine : Bool) : t.Covers lo hi (Piece.padded indent onLine xs) := by
  have hsame : ∀ (onLine : Bool) (xs : List (List Piece)),
      Piece.nodes (Piece.padded indent onLine xs) = Piece.nodes xs.flatten ∧
        ∀ p ∈ Piece.padded indent onLine xs, p ∈ xs.flatten ∨ ∃ cs, p = .text cs := by
    intro onLine xs
    induction xs generalizing onLine with
    | nil => exact ⟨rfl, fun p hp => by simp [Piece.padded] at hp⟩
    | cons x rest ih =>
      obtain ⟨hnodes, hmem⟩ := ih false
      refine ⟨?_, fun p hp => ?_⟩
      · rw [Piece.padded, Piece.nodes_text, Piece.nodes_append, hnodes, List.flatten_cons,
          Piece.nodes_append]
      · rw [Piece.padded, List.mem_cons, List.mem_append] at hp
        rw [List.flatten_cons, List.mem_append]
        rcases hp with hp | hp | hp
        · exact .inr ⟨_, hp⟩
        · exact .inl (.inl hp)
        · exact (hmem p hp).imp_left .inr
  obtain ⟨hnodes, hmem⟩ := hsame onLine xs
  refine ⟨hnodes ▸ h.sorted, hnodes ▸ h.within, fun p hp => ?_⟩
  rcases hmem p hp with hp | ⟨cs, rfl⟩
  · exact h.tells p hp
  · trivial

theorem Spans.split {i k : Nat} {c : NodeId} {ids : List NodeId} (h : t.Spans i (c :: ids) k) :
    c = i ∧ ∃ j, t.Spans i [i] j ∧ t.Spans j ids k := by
  cases h with
  | cons hn hbelow hrest => exact ⟨rfl, _, .cons hn hbelow (.nil _), hrest⟩

theorem Spans.single {id : NodeId} {j : Nat} (h : t.Spans id [id] j) :
    ∃ n, t.get? id = some n ∧ t.Spans (id + 1) n.children.toList j ∧ id + 1 ≤ j := by
  cases h with
  | cons hn hbelow hrest =>
    cases hrest
    exact ⟨_, hn, hbelow, hbelow.le⟩

theorem covers_items {f : NodeId → Except Error (List Piece)} : ∀ {ids : List NodeId} {i k : Nat}
    {xs : List (List Piece)}, t.Spans i ids k →
    (∀ c j ps, c ∈ ids → t.Spans c [c] j → f c = .ok ps → t.Covers c j ps) →
    ids.mapM f = .ok xs → t.Covers i k xs.flatten
  | [], i, k, xs, h, _, hxs => by
    cases hxs
    exact .nil i k
  | c :: ids, i, k, xs, h, hf, hxs => by
    obtain ⟨rfl, j, hc, hrest⟩ := h.split
    rw [List.mapM_cons] at hxs
    obtain ⟨x, hx, hxs⟩ := bind_eq_ok hxs
    obtain ⟨xs', hxs', hxs⟩ := bind_eq_ok hxs
    obtain rfl := Except.ok.inj hxs
    have hfirst := hf c j x List.mem_cons_self hc hx
    have hlater := covers_items hrest (fun c j ps hc => hf c j ps (List.mem_cons_of_mem _ hc)) hxs'
    exact hfirst.append hlater hc.le hrest.le

theorem exists_of_entryPieces {maxDepth room indent : Nat} {key : NodeId} {v : Option NodeId}
    (h : t.entryPieces maxDepth room indent (key, v) = .ok ps) : ∃ xs ys, t.keyPieces key = .ok xs ∧
      (∀ c ∈ v, t.valuePieces maxDepth room c indent .mapValue = .ok ys) ∧
      (v = none → ys = [.text ['\n']]) ∧ ps = xs ++ .text [':'] :: ys := by
  obtain ⟨xs, hxs, h⟩ := bind_eq_ok h
  cases v with
  | none => exact ⟨xs, _, hxs, by simp, fun _ => rfl, (Except.ok.inj h).symm⟩
  | some c =>
    obtain ⟨ys, hys, h⟩ := bind_eq_ok h
    exact ⟨xs, ys, hxs, by simpa using hys, by simp, (Except.ok.inj h).symm⟩

/-- A key comes before its value. -/
theorem covers_entry {maxDepth room indent : Nat} {key : NodeId} {v : Option NodeId} {j k : Nat}
    (hkey : t.Spans key [key] j) (hle : j ≤ k)
    (hshown : ∀ n, t.get? key = some n → n.kind = .scalar ∨ n.kind = .alias → t.Shown key)
    (hvalue : ∀ c ∈ v, ∀ ps, t.valuePieces maxDepth room c indent .mapValue = .ok ps →
      t.Covers j k ps)
    (h : t.entryPieces maxDepth room indent (key, v) = .ok ps) : t.Covers key k ps := by
  obtain ⟨xs, ys, hxs, hys, hnone, rfl⟩ := exists_of_entryPieces h
  obtain ⟨n, hn, -, hlt⟩ := hkey.single
  have hfirst : t.Covers key j xs := (covers_key hn (hshown n hn) hxs).mono (Nat.le_refl _) hlt
  have hlater : t.Covers j k ys := by
    cases v with
    | none =>
      rw [hnone rfl]
      exact .text _ (.nil j k)
    | some c => exact hvalue c rfl ys (hys c rfl)
  exact hfirst.append (.text _ hlater) hkey.le hle

/-- Keys and values one after another. -/
theorem covers_entries {maxDepth room indent : Nat} : ∀ {ids : List NodeId} {i k : Nat}
    {xs : List (List Piece)}, t.Spans i ids k →
    (∀ p ∈ inPairs ids, ∀ n, t.get? p.1 = some n → n.kind = .scalar ∨ n.kind = .alias →
      t.Shown p.1) →
    (∀ p ∈ inPairs ids, ∀ v ∈ p.2, ∀ j ps, t.Spans v [v] j →
      t.valuePieces maxDepth room v indent .mapValue = .ok ps → t.Covers v j ps) →
    (inPairs ids).mapM (t.entryPieces maxDepth room indent) = .ok xs → t.Covers i k xs.flatten
  | [], i, k, xs, h, _, _, hxs => by
    cases hxs
    exact .nil i k
  | [key], i, k, xs, h, hkeys, _, hxs => by
    obtain ⟨rfl, j, hkey, hrest⟩ := h.split
    rw [inPairs, List.mapM_cons] at hxs
    obtain ⟨x, hx, hxs⟩ := bind_eq_ok hxs
    obtain rfl := Except.ok.inj hxs
    show t.Covers key k [x].flatten
    rw [List.flatten_singleton]
    refine covers_entry hkey hrest.le (hkeys (key, none) List.mem_cons_self) ?_ hx
    intro c hc
    cases hc
  | key :: value :: ids, i, k, xs, h, hkeys, hvalues, hxs => by
    obtain ⟨rfl, j, hkey, hrest⟩ := h.split
    obtain ⟨rfl, j', hvalue, hrest⟩ := hrest.split
    rw [inPairs] at hxs hkeys hvalues
    rw [List.mapM_cons] at hxs
    obtain ⟨x, hx, hxs⟩ := bind_eq_ok hxs
    obtain ⟨xs', hxs', hxs⟩ := bind_eq_ok hxs
    obtain rfl := Except.ok.inj hxs
    rw [List.forall_mem_cons] at hkeys hvalues
    have hfirst : t.Covers key j' x := by
      refine covers_entry hkey hvalue.le hkeys.1 (fun c hc ps hps => ?_) hx
      cases hc
      exact hvalues.1 value rfl j' ps hvalue hps
    have hlater := covers_entries hrest hkeys.2 hvalues.2 hxs'
    exact hfirst.append hlater (Nat.le_trans hkey.le hvalue.le) hrest.le

theorem covers_leaf {maxDepth room indent : Nat} {position : Position} (hn : t.get? id = some n)
    (hk : n.kind.isCollection = false) (hs : t.Shown id)
    (h : t.valuePieces maxDepth room id indent position = .ok ps) : t.Covers id (id + 1) ps := by
  cases hk' : n.kind with
  | document =>
    rw [valuePieces_document hn hk'] at h
    cases h
  | scalar =>
    rw [valuePieces_scalar hn hk'] at h
    obtain rfl := Except.ok.inj h
    exact covers_scalar hn hs indent position
  | «alias» =>
    rw [valuePieces_alias hn hk'] at h
    obtain ⟨r, -, h⟩ := bind_eq_ok h
    obtain rfl := Except.ok.inj h
    exact .text _ ((covers_alias hn hk' hs).behind _)
  | mapping => simp [hk', Kind.isCollection] at hk
  | sequence => simp [hk', Kind.isCollection] at hk

/-- The names of a collection come before those of its members. -/
theorem covers_collection {α : Type} {f : α → Except Error (List Piece)} {members : List α}
    {j : Nat} {position : Position} {cs : List Char} {inner : Nat} {onLine : Bool}
    (hn : t.get? id = some n) (hs : t.Shown id) (hlt : id + 1 ≤ j)
    (hmembers : ∀ xs, members.mapM f = .ok xs → t.Covers (id + 1) j xs.flatten)
    (h : (if n.children.isEmpty then
        .ok (.text position.gap :: Piece.join (n.propertyPieces id) cs ++ [.text ['\n']])
      else (members.mapM f).map fun xs =>
        position.head (n.propertyPieces id) ++ Piece.padded inner onLine xs) = .ok ps) :
    t.Covers id j ps := by
  have hproperties := covers_properties hn hs
  split at h
  · obtain rfl := Except.ok.inj h
    exact (Covers.text _ ((hproperties.join cs).behind _)).mono (Nat.le_refl _) hlt
  · obtain ⟨xs, hxs, h⟩ := map_eq_ok h
    subst h
    exact (hproperties.head position).append ((hmembers xs hxs).padded inner onLine)
      (Nat.le_succ id) hlt

/-- The names of a value are those of its node and of nodes below it. -/
theorem covers_value (t : Tree) (maxDepth : Nat) : ∀ (room : Nat) (id : NodeId) (j indent : Nat)
    (position : Position) (ps : List Piece), t.Spans id [id] j → t.Shown id →
    t.valuePieces maxDepth room id indent position = .ok ps → t.Covers id j ps := by
  intro room
  induction room with
  | zero =>
    intro id j indent position ps hspan hs h
    obtain ⟨n, hn, -, hlt⟩ := hspan.single
    by_cases hk : n.kind.isCollection = true
    · rw [valuePieces_zero hn hk] at h
      cases h
    · exact (covers_leaf hn (by simpa using hk) hs h).mono (Nat.le_refl _) hlt
  | succ room ih =>
    intro id j indent position ps hspan hs h
    obtain ⟨n, hn, hbelow, hlt⟩ := hspan.single
    cases hk : n.kind with
    | sequence =>
      rw [valuePieces_sequence hn hk] at h
      refine covers_collection hn hs hlt (fun xs hxs => covers_items hbelow ?_ hxs) h
      intro c j ps hc hspan hps
      obtain ⟨ys, hys, hps⟩ := bind_eq_ok hps
      obtain rfl := Except.ok.inj hps
      exact .text _ (ih c j _ _ ys hspan (.item hs hn hk hc) hys)
    | mapping =>
      rw [valuePieces_mapping hn hk] at h
      refine covers_collection hn hs hlt (fun xs hxs => covers_entries hbelow ?_ ?_ hxs) h
      · intro p hp m hm hkey
        exact .key hs hn hk hp hm hkey
      · intro p hp v hv j ps hspan hps
        obtain ⟨key, value⟩ := p
        cases hv
        exact ih v j _ _ ps hspan (.entry hs hn hk hp) hps
    | _ => exact (covers_leaf hn (by rw [hk]; rfl) hs h).mono (Nat.le_refl _) hlt

/-! ### All that is shown is written -/

variable {maxDepth room : Nat}

/-- The pieces of a node, as a value or as a key, are among others. -/
def Among (t : Tree) (maxDepth : Nat) (ps : List Piece) (id : NodeId) : Prop :=
  (∃ room indent position qs, t.valuePieces maxDepth room id indent position = .ok qs ∧ qs ⊆ ps) ∨
    ∃ n qs, t.get? id = some n ∧ (n.kind = .scalar ∨ n.kind = .alias) ∧ t.keyPieces id = .ok qs ∧
      qs ⊆ ps

theorem subset_padded {xs : List (List Piece)} {x : List Piece} (hx : x ∈ xs) (indent : Nat) :
    ∀ onLine, x ⊆ Piece.padded indent onLine xs := by
  induction xs with
  | nil => simp at hx
  | cons y rest ih =>
    intro onLine p hp
    rw [Piece.padded, List.mem_cons, List.mem_append]
    rcases List.mem_cons.mp hx with rfl | hx
    · exact .inr (.inl hp)
    · exact .inr (.inr (ih hx false hp))

/-- The pieces of the members of a collection are among those of the collection. -/
theorem Among.members {α : Type} {f : Nat → Nat → α → Except Error (List Piece)}
    {members : List α} (h : t.Among maxDepth ps id) (hn : t.get? id = some n)
    (hk : n.kind.isCollection = true) (hempty : n.children.isEmpty = true → members = [])
    (heq : ∀ room indent position, ∃ cs, t.valuePieces maxDepth (room + 1) id indent position =
      if n.children.isEmpty then
        .ok (.text position.gap :: Piece.join (n.propertyPieces id) cs ++ [.text ['\n']])
      else
        let (indent, onLine, _) := position.open indent n.properties
        (members.mapM (f room indent)).map fun xs =>
          position.head (n.propertyPieces id) ++ Piece.padded indent onLine xs) :
    ∀ a ∈ members, ∃ room indent qs, f room indent a = .ok qs ∧ qs ⊆ ps := by
  intro a ha
  rcases h with ⟨room, indent, position, qs, hqs, hsub⟩ | ⟨m, qs, hm, hkey, -⟩
  · cases room with
    | zero =>
      rw [valuePieces_zero hn hk] at hqs
      cases hqs
    | succ room =>
      obtain ⟨cs, hcs⟩ := heq room indent position
      rw [hcs] at hqs
      split at hqs
      · rw [hempty ‹_›] at ha
        simp at ha
      · obtain ⟨xs, hxs, rfl⟩ := map_eq_ok hqs
        obtain ⟨x, hx, hfx⟩ := exists_of_mapM hxs a ha
        refine ⟨room, _, x, hfx, fun p hp => hsub ?_⟩
        exact List.mem_append_right _ (subset_padded hx _ _ hp)
  · obtain rfl := Option.some.inj (hn.symm.trans hm)
    rcases hkey with hkey | hkey <;> rw [hkey] at hk <;> cases hk

theorem Among.item (h : t.Among maxDepth ps id) (hn : t.get? id = some n) (hk : n.kind = .sequence)
    {c : NodeId} (hc : c ∈ n.children.toList) : t.Among maxDepth ps c := by
  have hempty : n.children.isEmpty = true → n.children.toList = [] := by simp
  obtain ⟨room, indent, qs, hqs, hsub⟩ := h.members (f := t.itemPieces maxDepth) hn (by rw [hk]; rfl)
    hempty (fun room indent position => ⟨_, valuePieces_sequence hn hk⟩) c hc
  obtain ⟨ys, hys, hqs⟩ := bind_eq_ok hqs
  obtain rfl := Except.ok.inj hqs
  exact .inl ⟨room, indent, _, ys, hys, fun p hp => hsub (List.mem_cons_of_mem _ hp)⟩

/-- The pieces of the key and of the value of an entry are among those of the mapping. -/
theorem Among.entry (h : t.Among maxDepth ps id) (hn : t.get? id = some n) (hk : n.kind = .mapping)
    {key : NodeId} {v : Option NodeId} (hc : (key, v) ∈ inPairs n.children.toList) :
    (∃ qs, t.keyPieces key = .ok qs ∧ qs ⊆ ps) ∧ ∀ c ∈ v, t.Among maxDepth ps c := by
  have hempty : n.children.isEmpty = true → inPairs n.children.toList = [] := by
    intro hempty
    have hnil : n.children = #[] := by simpa using hempty
    rw [hnil]
    rfl
  obtain ⟨room, indent, qs, hqs, hsub⟩ := h.members (f := t.entryPieces maxDepth) hn
    (by rw [hk]; rfl) hempty (fun room indent position => ⟨_, valuePieces_mapping hn hk⟩) (key, v) hc
  obtain ⟨xs, ys, hxs, hys, -, rfl⟩ := exists_of_entryPieces hqs
  refine ⟨⟨xs, hxs, fun p hp => hsub (List.mem_append_left _ hp)⟩, fun c hcv => ?_⟩
  refine .inl ⟨room, indent, _, ys, hys c hcv, fun p hp => hsub ?_⟩
  exact List.mem_append_right _ (List.mem_cons_of_mem _ hp)

theorem among_of_shown (hw : t.writePieces maxDepth = .ok ps) (hs : t.Shown id) :
    t.Among maxDepth ps id := by
  induction hs with
  | value h =>
    rw [writePieces, h] at hw
    exact .inl ⟨maxDepth, 0, .top, ps, hw, fun p hp => hp⟩
  | item hp hn hk hc ih => exact ih.item hn hk hc
  | key hp hn hk hc hm hkey ih =>
    obtain ⟨⟨qs, hqs, hsub⟩, -⟩ := ih.entry hn hk hc
    exact .inr ⟨_, qs, hm, hkey, hqs, hsub⟩
  | entry hp hn hk hc ih => exact (ih.entry hn hk hc).2 _ rfl

theorem subset_join (cs : List Char) : ps ⊆ Piece.join ps cs := by
  intro p hp
  unfold Piece.join
  split
  · rename_i hempty
    rw [List.isEmpty_iff.mp hempty] at hp
    simp at hp
  · split
    · exact hp
    · exact List.mem_append_left _ hp

theorem subset_head (position : Position) : ps ⊆ position.head ps := by
  intro p hp
  have hne : ps.isEmpty = false := by
    cases ps with
    | nil => simp at hp
    | cons q rest => rfl
  unfold Position.head
  rw [hne]
  cases position <;> simp [hp]

theorem subset_scalar {name : String} (ha : n.anchor = some name) (indent : Nat)
    (position : Position) : n.propertyPieces id ⊆ scalarPieces n id indent position := by
  intro p hp
  unfold scalarPieces
  split
  · exact List.mem_cons_of_mem _ (List.mem_append_left _ (subset_join _ hp))
  · have hline : Piece.render (Piece.join (n.propertyPieces id) n.inlineText) ≠ [] := by
      have hne : (n.propertyPieces id).isEmpty = false := by simp [Node.propertyPieces, ha]
      rw [Piece.join, hne]
      simp only [Bool.false_eq_true, if_false]
      split <;> simp [Node.propertyPieces, ha, Piece.chars]
    have hempty : (Piece.render (Piece.join (n.propertyPieces id) n.inlineText)).isEmpty = false := by
      simpa using hline
    refine List.mem_append_left _ ?_
    rw [hempty]
    exact List.mem_cons_of_mem _ (subset_join _ hp)

/-- A collection is written with its properties, whether it is empty or not. -/
theorem subset_collection {α : Type} {f : α → Except Error (List Piece)} {members : List α}
    {position : Position} {cs : List Char} {inner : Nat} {onLine : Bool}
    (h : (if n.children.isEmpty then
        .ok (.text position.gap :: Piece.join (n.propertyPieces id) cs ++ [.text ['\n']])
      else (members.mapM f).map fun xs =>
        position.head (n.propertyPieces id) ++ Piece.padded inner onLine xs) = .ok ps) :
    n.propertyPieces id ⊆ ps := by
  intro p hp
  split at h
  · obtain rfl := Except.ok.inj h
    exact List.mem_cons_of_mem _ (List.mem_append_left _ (subset_join cs hp))
  · obtain ⟨xs, -, rfl⟩ := map_eq_ok h
    exact List.mem_append_left _ (subset_head position hp)

/-- A node that is no alias is written with its anchor. -/
theorem Among.anchor {name : String} (h : t.Among maxDepth ps id) (hn : t.get? id = some n)
    (hk : n.kind ≠ .alias) (ha : n.anchor = some name) : .anchor id name ∈ ps := by
  have hmem : .anchor id name ∈ n.propertyPieces id := by simp [Node.propertyPieces, ha]
  rcases h with ⟨room, indent, position, qs, hqs, hsub⟩ | ⟨m, qs, hm, hkey, hqs, hsub⟩
  · refine hsub ?_
    cases hk' : n.kind with
    | document =>
      rw [valuePieces_document hn hk'] at hqs
      cases hqs
    | «alias» => exact absurd hk' hk
    | scalar =>
      rw [valuePieces_scalar hn hk'] at hqs
      obtain rfl := Except.ok.inj hqs
      exact subset_scalar ha indent position hmem
    | sequence =>
      cases room with
      | zero =>
        rw [valuePieces_zero hn (by rw [hk']; rfl)] at hqs
        cases hqs
      | succ room =>
        rw [valuePieces_sequence hn hk'] at hqs
        exact subset_collection hqs hmem
    | mapping =>
      cases room with
      | zero =>
        rw [valuePieces_zero hn (by rw [hk']; rfl)] at hqs
        cases hqs
      | succ room =>
        rw [valuePieces_mapping hn hk'] at hqs
        exact subset_collection hqs hmem
  · refine hsub ?_
    obtain rfl := Option.some.inj (hn.symm.trans hm)
    have hk' : n.kind = .scalar := hkey.resolve_right hk
    rw [keyPieces, bind_ok (node_eq_ok.mpr hn)] at hqs
    simp only [hk'] at hqs
    obtain rfl := Except.ok.inj hqs
    exact subset_join _ hmem

/-! ### What aliases mean -/

theorem Latest.flattens {name : String} {before r : Nat} (h : t.Latest name before r) {t' : Tree}
    (hf : t.Flattens t') : t'.Latest name before r := by
  obtain ⟨m, hm, hk, ha⟩ := h.node
  obtain ⟨m', hm', hmf⟩ := hf.of_get? hm
  refine ⟨h.lt, ⟨m', hm', ?_, hmf.anchor.trans ha⟩, fun k n' hrk hk hn' => ?_⟩
  · rcases hmf.eq_or_scalar with rfl | hs
    · exact hk
    · rw [hs]
      decide
  · obtain ⟨n, hn, hnf⟩ := hf.node k n' hn'
    rw [hnf.anchor]
    exact h.last k n hrk hk hn

end Tree

namespace Piece

variable {ps before behind : List Piece} {name : String} {r : NodeId}

theorem mem_of_lastAnchor (h : lastAnchor name ps = some r) : .anchor r name ∈ ps := by
  obtain ⟨p, hp, hr⟩ := List.exists_of_findSome?_eq_some h
  rw [List.mem_reverse] at hp
  cases p with
  | anchor id other =>
    simp only [Option.ite_none_right_eq_some, Option.some.injEq] at hr
    obtain ⟨rfl, rfl⟩ := hr
    exact hp
  | _ => cases hr

/-- An anchor is the last of its name if none of this name comes behind it. -/
theorem lastAnchor_of_last (h : ∀ id, .anchor id name ∉ behind) :
    lastAnchor name (before ++ .anchor r name :: behind) = some r := by
  have hbehind : behind.reverse.findSome? (fun
      | .anchor id other => if other = name then some id else none
      | _ => none) = none := by
    rw [List.findSome?_eq_none_iff]
    intro p hp
    rw [List.mem_reverse] at hp
    cases p with
    | anchor id other =>
      by_cases hother : other = name
      · subst hother
        exact absurd hp (h id)
      · simp [hother]
    | _ => rfl
  rw [lastAnchor, List.reverse_append, List.reverse_cons, List.findSome?_append,
    List.findSome?_append, hbehind]
  simp

end Piece

namespace Tree

variable {t : Tree} {ps before behind : List Piece} {name : String} {lo hi a r : Nat}

/-- What is written with its name and comes before a node in the tree is written before it. -/
theorem Covers.mem_before (hc : t.Covers lo hi (before ++ .alias a name :: behind)) {other : String}
    (hr : .anchor r other ∈ before ++ .alias a name :: behind) (hlt : r < a) :
    .anchor r other ∈ before := by
  refine (List.mem_append.mp hr).resolve_right fun h => ?_
  have hmem : r ∈ Piece.nodes behind := by
    refine List.mem_filterMap.mpr ⟨.anchor r other, ?_, rfl⟩
    simpa using h
  have hsorted := hc.sorted
  rw [Piece.nodes_append, List.pairwise_append] at hsorted
  have hlt' : a < r := List.rel_of_pairwise_cons (l := Piece.nodes behind) hsorted.2.1 hmem
  omega

/-- The last anchor before an alias is the last node of its name, if this node is written at all. -/
theorem lastAnchor_iff (hc : t.Covers lo hi (before ++ .alias a name :: behind))
    (hl : t.Latest name a r) :
    Piece.lastAnchor name before = some r ↔ .anchor r name ∈ before ++ .alias a name :: behind := by
  constructor
  · intro h
    exact List.mem_append_left _ (Piece.mem_of_lastAnchor h)
  · intro h
    obtain ⟨l, m, rfl⟩ := List.append_of_mem (hc.mem_before h hl.lt)
    have hsorted := hc.sorted
    rw [Piece.nodes_append, List.pairwise_append] at hsorted
    obtain ⟨hbefore, -, hacross⟩ := hsorted
    refine Piece.lastAnchor_of_last fun k hk => ?_
    have hkm : k ∈ Piece.nodes m := List.mem_filterMap.mpr ⟨_, hk, rfl⟩
    rw [Piece.nodes_append] at hbefore hacross
    have hrm : Piece.nodes (.anchor r name :: m) = r :: Piece.nodes m := rfl
    have haa : Piece.nodes (.alias a name :: behind) = a :: Piece.nodes behind := rfl
    rw [hrm] at hbefore hacross
    rw [haa] at hacross
    have hrk : r < k := List.rel_of_pairwise_cons (List.pairwise_append.mp hbefore).2.1 hkm
    have hka : k < a := hacross k (by simp [hkm]) a List.mem_cons_self
    obtain ⟨-, n, hn, ha⟩ := hc.tells (.anchor k name) (by simp [hk])
    exact hl.last k n hrk hka hn ha

/-- The value of a text, flattened or not, is all there is below the document. -/
theorem spans_rootValue {maxDepth : Nat} {text : String} {p : Tree} {v : NodeId}
    (hread : read maxDepth text = .ok p) (hflat : p.Flattens t) (hv : t.rootValue? = some v) :
    v = 1 ∧ t.Spans v [v] t.size := by
  obtain ⟨hlength, hspans⟩ := spans_read hread
  obtain ⟨n, hn, hnf⟩ := hflat.node root t.rootNode t.get?_root
  obtain rfl := Option.some.inj (p.get?_root.symm.trans hn)
  rw [← hnf.children] at hlength hspans
  have hsingle : t.rootNode.children.toList = [v] := by
    rw [rootValue?] at hv
    obtain ⟨hlt, hv⟩ := Array.getElem?_eq_some_iff.mp hv
    obtain ⟨w, hw⟩ := Array.size_eq_one_iff.mp (Nat.le_antisymm hlength hlt)
    simp [hw] at hv ⊢
    exact hv
  rw [hsingle] at hspans
  have hspans' := hspans.flattens hflat
  obtain ⟨rfl, -⟩ := hspans'.split
  rw [hflat.size]
  exact ⟨rfl, hspans'⟩

theorem covers_write {maxDepth room : Nat} {text : String} {p : Tree}
    (hread : read maxDepth text = .ok p) (hflat : p.Flattens t) (hps : t.writePieces room = .ok ps) :
    t.Covers 1 t.size ps := by
  rw [writePieces] at hps
  cases hv : t.rootValue? with
  | none =>
    rw [hv] at hps
    obtain rfl := Except.ok.inj hps
    exact .nil _ _
  | some v =>
    rw [hv] at hps
    obtain ⟨rfl, hspans⟩ := spans_rootValue hread hflat hv
    exact covers_value t room room _ _ 0 .top ps hspans (.value hv) hps

/-- An alias of a text, flattened or not, leads to the last node of its name before it. -/
theorem latest_of_flattens {maxDepth : Nat} {text : String} {p : Tree}
    {n : Node} (hread : read maxDepth text = .ok p) (hflat : p.Flattens t) (hn : t.get? a = some n)
    (hk : n.kind = .alias) : ∃ r, t.resolve? a = some r ∧ t.Latest n.value a r := by
  obtain ⟨r, m, hr, -, -, -, htarget⟩ := ((closed_read hread).flattens hflat).resolve? hn hk
  obtain ⟨n', hn', hnf⟩ := hflat.node a n hn
  obtain rfl := hnf.eq (by rw [hk]; decide)
  obtain ⟨r', hr', hlatest⟩ := latest_of_read hread hn' hk
  obtain rfl := Option.some.inj (htarget.symm.trans hr')
  exact ⟨r, hr, hlatest.flattens hflat⟩

/-- An alias in what is written of a text, flattened or not: the last anchor of its name before it is
that of the node that it leads to, exactly if this node is written with its names. -/
theorem lastAnchor_write {maxDepth room : Nat} {text : String} {p : Tree}
    (hread : read maxDepth text = .ok p) (hflat : p.Flattens t)
    (hps : t.writePieces room = .ok (before ++ .alias a name :: behind)) :
    ∃ r, t.resolve? a = some r ∧ (Piece.lastAnchor name before = some r ↔ t.Shown r) := by
  have hcovers := covers_write hread hflat hps
  obtain ⟨-, n, hn, hk, hname⟩ := hcovers.tells (.alias a name) (by simp)
  obtain ⟨r, hr, hlatest⟩ := latest_of_flattens hread hflat hn hk
  rw [hname] at hlatest
  refine ⟨r, hr, (lastAnchor_iff hcovers hlatest).trans ⟨fun h => ?_, fun h => ?_⟩⟩
  · exact (hcovers.tells _ h).1
  · obtain ⟨m, hm, hmk, ha⟩ := hlatest.node
    exact (among_of_shown hps h).anchor hm hmk ha

/-- What is written of a text, flattened or not: an alias means in it the node that it leads to
exactly if this node is written with its names. -/
theorem alias_write {maxDepth room : Nat} {text y : String} {p : Tree}
    (hread : read maxDepth text = .ok p)
    (ht : t = p ∨ ∃ isExtension, t = (p.flatten isExtension).tree) (hwrite : t.write room = .ok y) :
    ∃ ps, t.writePieces room = .ok ps ∧ String.ofList (Piece.render ps) = y ∧
      ∀ before a name behind, ps = before ++ .alias a name :: behind →
        ∃ r, t.resolve? a = some r ∧ (Piece.lastAnchor name before = some r ↔ t.Shown r) := by
  have hflat : p.Flattens t := by
    rcases ht with rfl | ⟨isExtension, rfl⟩
    · exact .refl t
    · exact flattens_flatten p isExtension
  rw [← render_writePieces] at hwrite
  obtain ⟨ps, hps, hrender⟩ := map_eq_ok hwrite
  refine ⟨ps, hps, hrender, fun before a name behind heq => ?_⟩
  exact lastAnchor_write hread hflat (heq ▸ hps)

/-- An item and an alias of it. -/
theorem alias_write_item : ∃ t before, read 128 "- &a x\n- *a\n" = .ok t ∧
    t.write 128 = .ok "- &a x\n- *a\n" ∧
    t.writePieces 128 = .ok (before ++ .alias 3 "a" :: [.text ['\n']]) ∧
    t.resolve? 3 = some 2 ∧ Piece.lastAnchor "a" before = some 2 := by
  have hread : read 128 "- &a x\n- *a\n" = .ok ⟨#[{ kind := .document, children := #[1] },
      { kind := .sequence, children := #[2, 3] },
      { kind := .scalar, value := "x", anchor := some "a", mark := ⟨5, 1, 5⟩ },
      { kind := .alias, value := "a", target := some 2, mark := ⟨9, 2, 2⟩ }], by decide⟩ := by
    decide +kernel
  have hwrite : write (⟨#[{ kind := .document, children := #[1] },
      { kind := .sequence, children := #[2, 3] },
      { kind := .scalar, value := "x", anchor := some "a", mark := ⟨5, 1, 5⟩ },
      { kind := .alias, value := "a", target := some 2, mark := ⟨9, 2, 2⟩ }], by decide⟩ : Tree) 128 =
      .ok "- &a x\n- *a\n" := by
    decide +kernel
  obtain ⟨ps, hps, -, hmeans⟩ := alias_write hread (.inl rfl) hwrite
  have hpieces : ps = [.text [], .text ['-'], .text [' '], .anchor 2 "a", .text [' ', 'x'],
      .text ['\n'], .text [], .text ['-'], .text [' ']] ++ .alias 3 "a" :: [.text ['\n']] :=
    Except.ok.inj (hps.symm.trans (by decide +kernel))
  obtain ⟨r, hr, hiff⟩ := hmeans _ 3 "a" _ hpieces
  obtain rfl : 2 = r := Option.some.inj (Eq.trans (by decide +kernel) hr)
  refine ⟨_, _, hread, hwrite, hpieces ▸ hps, hr, hiff.mpr ?_⟩
  exact .item (.value rfl) rfl rfl List.mem_cons_self

/-- A sequence that is a key is written as a text: the alias of it is left without an anchor, and the
written text is not one that can be read. -/
theorem alias_write_key : ∃ t before, read 128 "? &a [x]\n: *a\n" = .ok t ∧
    t.write 128 = .ok "'': *a\n" ∧
    t.writePieces 128 = .ok (before ++ .alias 4 "a" :: [.text ['\n']]) ∧
    t.resolve? 4 = some 2 ∧ Piece.lastAnchor "a" before = none ∧
    read 128 "'': *a\n" = .error (.malformed ⟨⟨4, 1, 4⟩, .unknownAnchor⟩) := by
  refine ⟨⟨#[{ kind := .document, children := #[1] }, { kind := .mapping, children := #[2, 4] },
      { kind := .sequence, anchor := some "a", children := #[3], mark := ⟨5, 1, 5⟩ },
      { kind := .scalar, value := "x", mark := ⟨6, 1, 6⟩ },
      { kind := .alias, value := "a", target := some 2, mark := ⟨11, 2, 2⟩ }], by decide⟩,
    [.text [], .text ['\'', '\''], .text [':'], .text [' ']], ?_, ?_, ?_, ?_, ?_, ?_⟩ <;> decide +kernel

end Tree

end TaggedYaml
