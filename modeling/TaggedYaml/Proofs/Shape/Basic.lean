import Mathlib.Data.List.Forall2
import TaggedYaml.Tree.Write
import TaggedYaml.Value.OfTree

/-!
# Shape — what a tree says below one of its nodes

A `Shape` is a document without numbers: a scalar, an alias, a sequence of shapes, or a mapping from
keys to shapes.  `Denotes` says that a node of a tree has a shape, which is unique; writing a node
and its value depend on its shape alone.
-/

namespace TaggedYaml

/-- What a node says besides its kind and its members. -/
structure Face where
  tag : String := ""
  text : String := ""
  anchor : Option String := none
  style : Style := .plain
deriving DecidableEq, Repr

/-- What a node says besides its kind and its members. -/
def Node.face (n : Node) : Face := ⟨n.tag, n.value, n.anchor, n.style⟩

/-- A key.  A collection as a key counts by its own text, an alias also by the text of what it stands
for. -/
inductive Key where
  | scalar (f : Face)
  | alias (name text : String)
  | other (text : String)
deriving DecidableEq, Repr

/-- A node and all that is below it. -/
inductive Shape where
  | scalar (f : Face)
  | alias (name : String)
  | sequence (f : Face) (items : List Shape)
  | mapping (f : Face) (entries : List (Key × Shape))

/-- The text that a key puts into the value of its mapping. -/
def Key.text : Key → String
  | .scalar f => f.text
  | .alias _ text => text
  | .other text => text

namespace Shape

/-- The kind of the nodes that have the shape. -/
def kind : Shape → Kind
  | .scalar _ => .scalar
  | .alias _ => .alias
  | .sequence _ _ => .sequence
  | .mapping _ _ => .mapping

/-- The scalar of which nothing is written. -/
def empty : Shape := .scalar {}

mutual

/-- How far collections nest. -/
def height : Shape → Nat
  | .scalar _ => 0
  | .alias _ => 0
  | .sequence _ items => heightItems items + 1
  | .mapping _ entries => heightEntries entries + 1

def heightItems : List Shape → Nat
  | [] => 0
  | s :: rest => max (height s) (heightItems rest)

def heightEntries : List (Key × Shape) → Nat
  | [] => 0
  | (_, s) :: rest => max (height s) (heightEntries rest)

end

mutual

/-- No value in a shape is an alias. -/
def Direct : Shape → Prop
  | .scalar _ => True
  | .alias _ => False
  | .sequence _ items => DirectItems items
  | .mapping _ entries => DirectEntries entries

def DirectItems : List Shape → Prop
  | [] => True
  | s :: rest => Direct s ∧ DirectItems rest

def DirectEntries : List (Key × Shape) → Prop
  | [] => True
  | (_, s) :: rest => Direct s ∧ DirectEntries rest

end

mutual

/-- The value of a shape whose values are no aliases. -/
def value : Shape → Value
  | .scalar f => .text f.text
  | .alias _ => .text ""
  | .sequence _ items => .list (valueItems items)
  | .mapping _ entries => .map (valueEntries [] entries)

def valueItems : List Shape → List Value
  | [] => []
  | s :: rest => value s :: valueItems rest

/-- Puts entries into a map. -/
def valueEntries (into : List (String × Value)) : List (Key × Shape) → List (String × Value)
  | [] => into
  | (k, s) :: rest => valueEntries (Value.put k.text (value s) into) rest

end

end Shape

namespace Tree

variable {t : Tree}

/-- A node is a key. -/
def DenotesKey (t : Tree) (id : NodeId) : Key → Prop
  | .scalar f => ∃ n, t.get? id = some n ∧ n.kind = .scalar ∧ n.face = f
  | .alias name text => ∃ n r m, t.get? id = some n ∧ n.kind = .alias ∧ n.value = name ∧
      t.resolve? id = some r ∧ t.get? r = some m ∧ m.value = text
  | .other text => ∃ n, t.get? id = some n ∧ n.kind ≠ .alias ∧ n.kind ≠ .scalar ∧ n.value = text

mutual

/-- A node has a shape. -/
def Denotes (t : Tree) (id : NodeId) : Shape → Prop
  | .scalar f => ∃ n, t.get? id = some n ∧ n.kind = .scalar ∧ n.face = f
  | .alias name => ∃ n, t.get? id = some n ∧ n.kind = .alias ∧ n.value = name ∧
      (t.resolve? id).isSome
  | .sequence f items => ∃ n, t.get? id = some n ∧ n.kind = .sequence ∧ n.face = f ∧
      DenotesItems t n.children.toList items
  | .mapping f entries => ∃ n, t.get? id = some n ∧ n.kind = .mapping ∧ n.face = f ∧
      DenotesEntries t (inPairs n.children.toList) entries

def DenotesItems (t : Tree) : List NodeId → List Shape → Prop
  | ids, [] => ids = []
  | ids, s :: rest => ∃ id ids', ids = id :: ids' ∧ Denotes t id s ∧ DenotesItems t ids' rest

/-- A key without a value stands for one with an empty value. -/
def DenotesEntries (t : Tree) : List (NodeId × Option NodeId) → List (Key × Shape) → Prop
  | pairs, [] => pairs = []
  | pairs, (k, s) :: rest => ∃ i v pairs', pairs = (i, v) :: pairs' ∧ DenotesKey t i k ∧
      (∀ id ∈ v, Denotes t id s) ∧ (v = none → s = .empty) ∧ DenotesEntries t pairs' rest

end

/-! ### A node has one shape -/

variable {id : NodeId}

theorem denotesKey_unique {k k' : Key} (h : t.DenotesKey id k) (h' : t.DenotesKey id k') : k = k' := by
  cases k with
  | scalar f =>
    obtain ⟨n, hn, hk, rfl⟩ := h
    cases k' with
    | scalar f' =>
      obtain ⟨m, hm, -, rfl⟩ := h'
      rw [Option.some.inj (hn.symm.trans hm)]
    | «alias» name' text' =>
      obtain ⟨m, r, x, hm, ha, -⟩ := h'
      rw [Option.some.inj (hn.symm.trans hm), ha] at hk
      cases hk
    | other text' =>
      obtain ⟨m, hm, -, hs, -⟩ := h'
      exact absurd (Option.some.inj (hn.symm.trans hm) ▸ hk) hs
  | «alias» name text =>
    obtain ⟨n, r, x, hn, hk, rfl, hr, hx, rfl⟩ := h
    cases k' with
    | scalar f' =>
      obtain ⟨m, hm, hs, -⟩ := h'
      rw [Option.some.inj (hn.symm.trans hm), hs] at hk
      cases hk
    | «alias» name' text' =>
      obtain ⟨m, r', y, hm, -, rfl, hr', hy, rfl⟩ := h'
      obtain rfl := Option.some.inj (hr.symm.trans hr')
      rw [Option.some.inj (hn.symm.trans hm), Option.some.inj (hx.symm.trans hy)]
    | other text' =>
      obtain ⟨m, hm, ha, -⟩ := h'
      exact absurd (Option.some.inj (hn.symm.trans hm) ▸ hk) ha
  | other text =>
    obtain ⟨n, hn, ha, hs, rfl⟩ := h
    cases k' with
    | scalar f' =>
      obtain ⟨m, hm, hk, -⟩ := h'
      exact absurd (Option.some.inj (hm.symm.trans hn) ▸ hk) hs
    | «alias» name' text' =>
      obtain ⟨m, r, x, hm, hk, -⟩ := h'
      exact absurd (Option.some.inj (hm.symm.trans hn) ▸ hk) ha
    | other text' =>
      obtain ⟨m, hm, -, -, rfl⟩ := h'
      rw [Option.some.inj (hn.symm.trans hm)]

theorem kind_of_denotes {s : Shape} {n : Node} (h : t.Denotes id s) (hn : t.get? id = some n) :
    n.kind = s.kind := by
  cases s <;> obtain ⟨m, hm, hk, -⟩ := h <;> exact Option.some.inj (hn.symm.trans hm) ▸ hk

mutual

theorem denotes_unique : ∀ {s s' : Shape} {id : NodeId}, t.Denotes id s → t.Denotes id s' → s = s'
  | .scalar f, s', id, ⟨n, hn, hk, hf⟩, h' => by
    cases s' with
    | scalar f' =>
      obtain ⟨m, hm, -, rfl⟩ := h'
      rw [← hf, Option.some.inj (hn.symm.trans hm)]
    | _ => cases hk.symm.trans (kind_of_denotes h' hn)
  | .alias name, s', id, ⟨n, hn, hk, hname, _⟩, h' => by
    cases s' with
    | «alias» name' =>
      obtain ⟨m, hm, -, rfl, -⟩ := h'
      rw [← hname, Option.some.inj (hn.symm.trans hm)]
    | _ => cases hk.symm.trans (kind_of_denotes h' hn)
  | .sequence f items, s', id, ⟨n, hn, hk, hf, hitems⟩, h' => by
    cases s' with
    | sequence f' items' =>
      obtain ⟨m, hm, -, rfl, hitems'⟩ := h'
      obtain rfl := Option.some.inj (hn.symm.trans hm)
      rw [← hf, denotesItems_unique hitems hitems']
    | _ => cases hk.symm.trans (kind_of_denotes h' hn)
  | .mapping f entries, s', id, ⟨n, hn, hk, hf, hentries⟩, h' => by
    cases s' with
    | mapping f' entries' =>
      obtain ⟨m, hm, -, rfl, hentries'⟩ := h'
      obtain rfl := Option.some.inj (hn.symm.trans hm)
      rw [← hf, denotesEntries_unique hentries hentries']
    | _ => cases hk.symm.trans (kind_of_denotes h' hn)

theorem denotesItems_unique : ∀ {items items' : List Shape} {ids : List NodeId},
    t.DenotesItems ids items → t.DenotesItems ids items' → items = items'
  | [], [], _, _, _ => rfl
  | [], _ :: _, _, h, h' => by
    obtain ⟨id, ids, hids, -⟩ := h'
    cases hids.symm.trans h
  | _ :: _, [], _, h, h' => by
    obtain ⟨id, ids, hids, -⟩ := h
    cases hids.symm.trans h'
  | s :: rest, s' :: rest', _, h, h' => by
    obtain ⟨id, ids, rfl, hs, hrest⟩ := h
    obtain ⟨id', ids', hids, hs', hrest'⟩ := h'
    obtain ⟨rfl, rfl⟩ := List.cons_eq_cons.mp hids
    rw [denotes_unique hs hs', denotesItems_unique hrest hrest']

theorem denotesEntries_unique : ∀ {entries entries' : List (Key × Shape)}
    {pairs : List (NodeId × Option NodeId)},
    t.DenotesEntries pairs entries → t.DenotesEntries pairs entries' → entries = entries'
  | [], [], _, _, _ => rfl
  | [], (_, _) :: _, _, h, h' => by
    obtain ⟨i, v, pairs, hpairs, -⟩ := h'
    cases hpairs.symm.trans h
  | (_, _) :: _, [], _, h, h' => by
    obtain ⟨i, v, pairs, hpairs, -⟩ := h
    cases hpairs.symm.trans h'
  | (k, s) :: rest, (k', s') :: rest', _, h, h' => by
    obtain ⟨i, v, pairs, rfl, hk, hv, hnone, hrest⟩ := h
    obtain ⟨i', v', pairs', hpairs, hk', hv', hnone', hrest'⟩ := h'
    obtain ⟨hhead, rfl⟩ := List.cons_eq_cons.mp hpairs
    obtain ⟨rfl, rfl⟩ := Prod.mk.inj hhead
    have hshape : s = s' := by
      cases v with
      | none => rw [hnone rfl, hnone' rfl]
      | some id => exact denotes_unique (hv id rfl) (hv' id rfl)
    rw [denotesKey_unique hk hk', hshape, denotesEntries_unique hrest hrest']

end

end Tree

end TaggedYaml
