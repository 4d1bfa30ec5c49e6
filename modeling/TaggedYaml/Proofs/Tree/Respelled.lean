import TaggedYaml.Proofs.Shape.Unquoted
import TaggedYaml.Proofs.Tree.Gathered
import TaggedYaml.Proofs.Tree.Mirrors
import TaggedYaml.Proofs.Tree.Reformat

/-!
# Respelled — a call without quotes is spelled out again

Without its quotes a call is read as a node with the tag, and flattening spells it out again
(`Respells.says_call`).  So what is read of a tree that is written without the quotes of its calls mirrors
the tree (`exists_mirrors`).
-/

namespace TaggedYaml

/-! ### Calls are spelled out again -/

theorem itemsText_eq (as : List (List Char)) : itemsText as = [',', ' '].intercalate as := by
  have hrest : ∀ (a : List Char) (rest : List (List Char)),
      [',', ' '].intercalate (a :: rest) = a ++ rest.flatMap (',' :: ' ' :: ·) := by
    intro a rest
    induction rest generalizing a with
    | nil => simp
    | cons b rest ih =>
      rw [List.intercalate_cons_cons, ih b]
      simp
  cases as with
  | nil => rfl
  | cons a rest => exact (hrest a rest).symm

/-- A node with the tag of a call spells out the call, if its children say the items. -/
theorem Call.spelledOut {c : Call} {n : Node} {arguments : List String} (htag : n.tag = c.tag)
    (hvalue : n.value = String.ofList c.own)
    (harguments : match c with
      | .word _ _ => arguments = []
      | .list _ first rest => arguments = (first :: rest).map String.ofList) :
    n.spelledOut arguments = String.ofList c.text := by
  rw [Node.spelledOut, htag, hvalue, ← String.toList_inj, String.toList_ofList]
  cases c with
  | word suffix text =>
    rw [harguments]
    cases text with
    | nil => simp [tag, own, Call.text, body, joinProperties, Call.suffix]
    | cons x r => simp [tag, own, Call.text, body, joinProperties, Call.suffix]
  | list suffix first rest =>
    rw [harguments]
    simp [tag, own, Call.text, body, joinProperties, Call.suffix, itemsText_eq,
      String.toList_intercalate]

namespace Tree

variable {isExtension : String → Bool} {t r u : Tree} {x y id : NodeId} {n m : Node} {f : Face}

/-! ### Collections and aliases of texts -/

/-- Collections have no text of their own, and aliases no names. -/
structure Terse (t : Tree) : Prop where
  value : ∀ id n, t.get? id = some n → n.kind = .sequence ∨ n.kind = .mapping → n.value = ""
  anchor : ∀ id n, t.get? id = some n → n.kind = .alias → n.anchor = none

theorem terse_read {maxDepth : Nat} {text : String} (h : read maxDepth text = .ok t) : t.Terse := by
  refine ⟨fun id n hn hk => ?_, fun id n hn hk => ?_⟩
  · rcases event_of_read h hn with hb | ⟨⟨mark, e⟩, bound, he⟩
    · exact congrArg Node.value hb
    · have hkind : n.bare.kind = .sequence ∨ n.bare.kind = .mapping := hk
      cases e with
      | openSequence tag anchor => exact (congrArg Node.value (Option.some.inj he)).symm
      | openMapping tag anchor => exact (congrArg Node.value (Option.some.inj he)).symm
      | closeSequence => cases he
      | closeMapping => cases he
      | _ =>
        rw [← Option.some.inj he] at hkind
        rcases hkind with hkind | hkind <;> cases hkind
  · cases ha : n.anchor with
    | none => rfl
    | some name => exact absurd hk (kind_of_anchor h hn ha)

theorem Terse.flattens (h : t.Terse) (hf : t.Flattens u) : u.Terse := by
  refine ⟨fun id n hn hk => ?_, fun id n hn hk => ?_⟩
  · obtain ⟨m, hm, hnf⟩ := hf.node id n hn
    obtain rfl := hnf.eq (by rcases hk with hk | hk <;> rw [hk] <;> decide)
    exact h.value id n hm hk
  · obtain ⟨m, hm, hnf⟩ := hf.node id n hn
    obtain rfl := hnf.eq (by rw [hk]; decide)
    exact h.anchor id n hm hk

/-! ### What is read of a call, and what is spelled out of it -/

/-- A tree that was read and what it is after flattening, node by node. -/
structure Respells (isExtension : String → Bool) (r u : Tree) : Prop where
  node : ∀ id, u.get? id = (r.get? id).map (r.flattened isExtension)
  regular : r.Regular
  terse : r.Terse
  plain : isExtension "" = false

namespace Respells

variable (h : Respells isExtension r u)
include h

theorem get?_of_extension (hm : r.get? y = some m) (htag : isExtension m.tag = true) :
    u.get? y = some (m.flatten (r.arguments m)) := by
  rw [h.node, hm, Option.map_some, flattened_of_extension htag]

theorem get?_of_not (hm : r.get? y = some m) (htag : isExtension m.tag = false) :
    u.get? y = some m := by
  rw [h.node, hm, Option.map_some, flattened_of_not htag]

theorem quiet_of_leaf (hm : r.get? y = some m) (hk : m.kind = .scalar ∨ m.kind = .alias) :
    u.Quiet m := by
  rw [Quiet, h.regular.leaf y m hm hk]
  exact nofun

/-- A tag that is written is no extension tag, if the tag of the node is none. -/
theorem writtenTag (htag : isExtension f.tag = false) : isExtension f.writtenTag = false :=
  tag_written (P := fun tag => isExtension tag = false) (n := f.node) h.plain htag

/-- A scalar without an extension tag stays what it is. -/
theorem says_scalar (hb : r.Bears y (.scalar f)) (htag : isExtension f.tag = false) :
    u.Says y f.text f.anchor := by
  obtain ⟨m, hm, hk, rfl⟩ := hb
  exact ⟨m, h.get?_of_not hm htag, hk, rfl, rfl, h.quiet_of_leaf hm (.inl hk)⟩

/-- The items of a call are texts without names. -/
theorem says_items : ∀ {as : List (List Char)} {ids : List NodeId},
    r.BearsItems ids (as.map Call.item) →
    (ids.filterMap fun c => (r.get? c).map (·.value)) = as.map String.ofList ∧
      ∀ c ∈ ids, ∃ k, u.get? c = some k ∧ k.anchor = none ∧ k.children = #[]
  | [], ids, hb => by
    obtain rfl : ids = [] := hb
    exact ⟨rfl, nofun⟩
  | a :: as, ids, hb => by
    obtain ⟨c, ids, rfl, ⟨k, hk, hkind, hface⟩, hrest⟩ := hb
    obtain ⟨htexts, hquiet⟩ := says_items hrest
    have hvalue : k.value = String.ofList a := congrArg Face.text hface
    have htag : k.tag = "" := congrArg Face.tag hface
    refine ⟨?_, List.forall_mem_cons.mpr ⟨⟨k, ?_, ?_, ?_⟩, hquiet⟩⟩
    · rw [List.filterMap_cons, hk, Option.map_some, hvalue, htexts]
      rfl
    · exact h.get?_of_not hk (by rw [htag]; exact h.plain)
    · exact congrArg Face.anchor hface
    · exact h.regular.leaf c k hk (.inl hkind)

/-- What is read of a call is spelled out again. -/
theorem says_call {c : Call} {anchor : Option String} (hc : c.Legible isExtension)
    (hb : r.Bears y (c.shape anchor)) : u.Says y (String.ofList c.text) anchor := by
  cases c with
  | word suffix text =>
    obtain ⟨m, hm, hk, hface⟩ := hb
    have htag : m.tag = (Call.word suffix text).tag := congrArg Face.tag hface
    have hchildren : m.children = #[] := h.regular.leaf y m hm (.inl hk)
    have hquiet : u.Quiet m := h.quiet_of_leaf hm (.inl hk)
    refine ⟨_, h.get?_of_extension hm (htag ▸ hc.extension), rfl, ?_, congrArg Face.anchor hface,
      hquiet⟩
    refine Call.spelledOut htag (congrArg Face.text hface) ?_
    rw [arguments, hchildren]
    rfl
  | list suffix first rest =>
    obtain ⟨m, hm, -, hface, hitems⟩ := hb
    have htag : m.tag = (Call.list suffix first rest).tag := congrArg Face.tag hface
    obtain ⟨htexts, hquiet⟩ := h.says_items hitems
    refine ⟨_, h.get?_of_extension hm (htag ▸ hc.extension), rfl, ?_, congrArg Face.anchor hface,
      hquiet⟩
    exact Call.spelledOut htag (congrArg Face.text hface) htexts

/-- A scalar that is written without the quotes of a call says what it said. -/
theorem says_bare (hb : r.Bears y (f.bareReread isExtension)) (htag : isExtension f.tag = false) :
    u.Says y f.text f.anchor := by
  rw [Face.bareReread] at hb
  cases hc : f.call? isExtension with
  | none =>
    rw [hc] at hb
    exact h.says_scalar (f := f.reread) hb (h.writtenTag htag)
  | some c =>
    rw [hc] at hb
    obtain ⟨-, hlegible, htext⟩ := Face.of_call? hc
    have hsays := h.says_call hlegible hb
    rwa [htext, String.ofList_toList] at hsays

/-- An alias stays what it is. -/
theorem alias_bears (hb : r.Bears y (.alias n.value)) :
    ∃ m, u.get? y = some m ∧ m.kind = .alias ∧ m.value = n.value ∧ m.anchor = none ∧ u.Quiet m := by
  obtain ⟨m, hm, hk, hvalue⟩ := hb
  have htag : m.tag = "" := h.regular.untagged y m hm (.inr hk)
  exact ⟨m, h.get?_of_not hm (htag ▸ h.plain), hk, hvalue, h.terse.anchor y m hm hk,
    h.quiet_of_leaf hm (.inr hk)⟩

end Respells

/-! ### What is read of a written tree mirrors it -/

/-- A tree that is flattened where it is written. -/
structure Settled (isExtension : String → Bool) (t : Tree) : Prop where
  terse : t.Terse
  tags : ∀ id n, t.Shown id → t.get? id = some n → isExtension n.tag = false

theorem mirrors_scalar (hn : t.get? x = some n) (hk : n.kind = .scalar)
    (hs : u.Says y n.value n.anchor) : Mirrors t u x y [(x, y)] := by
  obtain ⟨m, hm, hkind, hvalue, hanchor, hquiet⟩ := hs
  exact .leaf hn hm ⟨hkind.trans hk.symm, hvalue, hanchor⟩ (.inl hk) hquiet

section Mirrors

variable (hr : Respells isExtension r u) (ht : Settled isExtension t)

section

include hr ht

theorem mirrors_alias (hn : t.get? x = some n) (hk : n.kind = .alias)
    (hb : r.Bears y (.alias n.value)) : Mirrors t u x y [(x, y)] := by
  obtain ⟨m, hm, hkind, hvalue, hanchor, hquiet⟩ := hr.alias_bears hb
  have hname : m.anchor = n.anchor := hanchor.trans (ht.terse.anchor x n hn hk).symm
  exact .leaf hn hm ⟨hkind.trans hk.symm, hvalue, hname⟩ (.inr hk) hquiet

/-- A collection stays what it is. -/
theorem resembles_collection {k : Kind} (hs : t.Shown x) (hn : t.get? x = some n) (hk : n.kind = k)
    (hcollection : k = .sequence ∨ k = .mapping) (hm : r.get? y = some m) (hkind : m.kind = k)
    (hface : m.face = n.face.head) : u.get? y = some m ∧ n.Resembles m := by
  have htag : m.tag = n.face.writtenTag := congrArg Face.tag hface
  refine ⟨hr.get?_of_not hm ?_, hkind.trans hk.symm, ?_, congrArg Face.anchor hface⟩
  · rw [htag]
    exact hr.writtenTag (f := n.face) (ht.tags x n hs hn)
  · rw [ht.terse.value x n hn (hk ▸ hcollection)]
    exact congrArg Face.text hface

theorem exists_mirrors_key {k k' : NodeId} {key : Key} {v v' : Option NodeId}
    {es es' : List (NodeId × Option NodeId)} {qs rs : List (NodeId × NodeId)}
    (hs : ∀ n, t.get? k = some n → n.kind = .scalar ∨ n.kind = .alias → t.Shown k)
    (hd : t.DenotesKey k key) (hb : r.BearsKey k' key.reread) (hvalue : MirrorsValue t u v v' qs)
    (hrest : MirrorsEntries t u es es' rs) :
    ∃ ps, MirrorsEntries t u ((k, v) :: es) ((k', v') :: es') ps := by
  cases key with
  | scalar f =>
    obtain ⟨n, hn, hk, rfl⟩ := hd
    have htag : isExtension n.tag = false := ht.tags k n (hs n hn (.inl hk)) hn
    have hsays : u.Says k' n.value n.anchor :=
      hr.says_scalar (f := n.face.rereadKey) hb (hr.writtenTag (f := n.face) htag)
    exact ⟨_, .leaf hn (.inl hk) (mirrors_scalar hn hk hsays) hvalue hrest⟩
  | «alias» name text =>
    obtain ⟨n, -, -, hn, hk, rfl, -⟩ := hd
    exact ⟨_, .leaf hn (.inr hk) (mirrors_alias hr ht hn hk hb) hvalue hrest⟩
  | other text =>
    obtain ⟨n, hn, ha, hk, rfl⟩ := hd
    have hsays : u.Says k' n.value none :=
      hr.says_scalar (f := Face.plainly n.value (stringStyle n.value.toList)) hb hr.plain
    exact ⟨_, .text hn hk ha hsays hvalue hrest⟩

end

mutual

/-- What is read of a tree that is written without the quotes of its calls mirrors the tree. -/
theorem exists_mirrors (hr : Respells isExtension r u) (ht : Settled isExtension t) :
    ∀ {s : Shape} {x y : NodeId}, t.Shown x → t.Denotes x s →
      r.Bears y (s.rereadIn (Face.bareReread isExtension)) → ∃ ps, Mirrors t u x y ps
  | .scalar f, x, y, hs, hd, hb => by
    obtain ⟨n, hn, hk, rfl⟩ := hd
    have hsays : u.Says y n.value n.anchor := hr.says_bare (f := n.face) hb (ht.tags x n hs hn)
    exact ⟨_, mirrors_scalar hn hk hsays⟩
  | .alias name, x, y, hs, hd, hb => by
    obtain ⟨n, hn, hk, rfl, -⟩ := hd
    exact ⟨_, mirrors_alias hr ht hn hk hb⟩
  | .sequence f items, x, y, hs, hd, hb => by
    obtain ⟨n, hn, hk, rfl, hitems⟩ := hd
    obtain ⟨m, hm, hkind, hface, hbears⟩ := hb
    obtain ⟨hm', hsame⟩ := resembles_collection hr ht hs hn hk (.inl rfl) hm hkind hface
    obtain ⟨ps, hps⟩ := exists_mirrorsItems hr ht (fun c hc => .item hs hn hk hc) hitems hbears
    exact ⟨_, .sequence hn hm' hsame hk hps⟩
  | .mapping f entries, x, y, hs, hd, hb => by
    obtain ⟨n, hn, hk, rfl, hentries⟩ := hd
    obtain ⟨m, hm, hkind, hface, hbears⟩ := hb
    obtain ⟨hm', hsame⟩ := resembles_collection hr ht hs hn hk (.inr rfl) hm hkind hface
    obtain ⟨ps, hps⟩ := exists_mirrorsEntries hr ht
      (fun k v c hc hc' hkey => .key hs hn hk hc hc' hkey) (fun k v hc => .entry hs hn hk hc)
      hentries hbears
    exact ⟨_, .mapping hn hm' hsame hk hps⟩

theorem exists_mirrorsItems (hr : Respells isExtension r u) (ht : Settled isExtension t) :
    ∀ {items : List Shape} {xs ys : List NodeId}, (∀ c ∈ xs, t.Shown c) →
      t.DenotesItems xs items →
      r.BearsItems ys (Shape.rereadItemsIn (Face.bareReread isExtension) items) →
      ∃ ps, MirrorsItems t u xs ys ps
  | [], xs, ys, _, hd, hb => by
    obtain rfl : xs = [] := hd
    obtain rfl : ys = [] := hb
    exact ⟨_, .nil⟩
  | s :: rest, xs, ys, hs, hd, hb => by
    obtain ⟨x, xs, rfl, hd, hdenotes⟩ := hd
    obtain ⟨y, ys, rfl, hb, hbears⟩ := hb
    rw [List.forall_mem_cons] at hs
    obtain ⟨ps, hps⟩ := exists_mirrors hr ht hs.1 hd hb
    obtain ⟨qs, hqs⟩ := exists_mirrorsItems hr ht hs.2 hdenotes hbears
    exact ⟨_, .cons hps hqs⟩

theorem exists_mirrorsEntries (hr : Respells isExtension r u) (ht : Settled isExtension t) :
    ∀ {entries : List (Key × Shape)} {es es' : List (NodeId × Option NodeId)},
      (∀ k v n, (k, v) ∈ es → t.get? k = some n → n.kind = .scalar ∨ n.kind = .alias →
        t.Shown k) →
      (∀ k v, (k, some v) ∈ es → t.Shown v) → t.DenotesEntries es entries →
      r.BearsEntries es' (Shape.rereadEntriesIn (Face.bareReread isExtension) entries) →
      ∃ ps, MirrorsEntries t u es es' ps
  | [], es, es', _, _, hd, hb => by
    obtain rfl : es = [] := hd
    obtain rfl : es' = [] := hb
    exact ⟨_, .nil⟩
  | (k, s) :: rest, es, es', hkeys, hvalues, hd, hb => by
    obtain ⟨i, v, es, rfl, hkey, hv, hnone, hdenotes⟩ := hd
    obtain ⟨i', v', es', rfl, hkey', hv', hbears⟩ := hb
    obtain ⟨rs, hrs⟩ := exists_mirrorsEntries hr ht
      (fun k v n hc => hkeys k v n (List.mem_cons_of_mem _ hc))
      (fun k v hc => hvalues k v (List.mem_cons_of_mem _ hc)) hdenotes hbears
    obtain ⟨qs, hqs⟩ : ∃ qs, MirrorsValue t u v (some v') qs := by
      cases v with
      | none =>
        rw [hnone rfl] at hv'
        exact ⟨_, .none (hr.says_bare (f := {}) hv' hr.plain)⟩
      | some v =>
        obtain ⟨qs, hqs⟩ := exists_mirrors hr ht (hvalues i v List.mem_cons_self) (hv v rfl) hv'
        exact ⟨qs, .some hqs⟩
    exact exists_mirrors_key hr ht (fun n => hkeys i v n List.mem_cons_self) hkey hkey' hqs hrs

end

end Mirrors

end Tree

end TaggedYaml
