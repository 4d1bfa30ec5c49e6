import Mathlib.Logic.Relation
import TaggedYaml.Proofs.Tree.Below
import TaggedYaml.Proofs.Tree.Contents

/-!
# Calls — the value of a tree as a recursion

`valueStep` says what the value of a node at some depth is, given the values of others, and `Calls`
which others these are.  Only collections lead deeper, and no deeper than the ceiling; at one depth
an alias, the document, its value and what that stands for follow each other at most once, if the
tree is not `Endless` (`Calls.rank_lt`).  So the recursion comes to an end from every node, it has one
solution, and this is `Tree.value`.
-/

namespace TaggedYaml

open Relation (TransGen)

namespace Tree

variable {t : Tree} {maxDepth depth : Nat} {id c r : NodeId} {n : Node}

/-- The value of a node inside some collections, where the values of other nodes are known. -/
def valueStep (t : Tree) (maxDepth : Nat) (value : NodeId → Nat → Except Error Value)
    (id : NodeId) (depth : Nat) : Except Error Value := do
  let n ← t.node id
  if n.kind.isCollection && decide (maxDepth ≤ depth) then throw (.depthExceeded maxDepth)
  match n.kind with
  | .scalar => return .text n.value
  | .mapping =>
    let entries ← (inPairs n.children.toList).foldlM
      (fun entries (k, v) => do
        let value ←
          match v with
          | some v => value v (depth + 1)
          | none => pure (.text "")
        return Value.put (← t.keyText k) value entries) []
    return .map entries
  | .sequence => return .list (← n.children.toList.mapM fun c => value c (depth + 1))
  | .document =>
    if id != root then throw .nestedDocument
    match n.children[0]? with
    | some c => value c depth
    | none => return .map []
  | .alias => value (← t.aliased id n.value) depth

/-- The value of a node at a depth asks for that of another node at some depth. -/
inductive Calls (t : Tree) (maxDepth : Nat) : NodeId × Nat → NodeId × Nat → Prop where
  | item {id : NodeId} {depth : Nat} {n : Node} {c : NodeId} (hn : t.get? id = some n)
      (hk : n.kind = .sequence) (hd : depth < maxDepth) (hc : c ∈ n.children.toList) :
      Calls t maxDepth (id, depth) (c, depth + 1)
  | entry {id : NodeId} {depth : Nat} {n : Node} {k v : NodeId} (hn : t.get? id = some n)
      (hk : n.kind = .mapping) (hd : depth < maxDepth) (hc : (k, some v) ∈ inPairs n.children.toList) :
      Calls t maxDepth (id, depth) (v, depth + 1)
  | value {depth : Nat} {c : NodeId} (hk : t.rootNode.kind = .document) (hc : t.rootValue? = some c) :
      Calls t maxDepth (root, depth) (c, depth)
  | target {id : NodeId} {depth : Nat} {n : Node} {r : NodeId} (hn : t.get? id = some n)
      (hk : n.kind = .alias) (hr : t.resolve? id = some r) : Calls t maxDepth (id, depth) (r, depth)

/-! ### One step -/

section Steps

variable {value : NodeId → Nat → Except Error Value}

theorem valueStep_foreign (hn : t.get? id = none) :
    t.valueStep maxDepth value id depth = .error (.foreignNode id) := by
  rw [valueStep, node, hn]
  rfl

theorem valueStep_scalar (hn : t.get? id = some n) (hk : n.kind = .scalar) :
    t.valueStep maxDepth value id depth = .ok (.text n.value) := by
  rw [valueStep, bind_ok (node_eq_ok.mpr hn), hk]
  rfl

theorem valueStep_alias (hn : t.get? id = some n) (hk : n.kind = .alias) :
    t.valueStep maxDepth value id depth = (t.aliased id n.value).bind fun r => value r depth := by
  rw [valueStep, bind_ok (node_eq_ok.mpr hn), hk]
  rfl

theorem valueStep_nested (hn : t.get? id = some n) (hk : n.kind = .document) (hne : id ≠ root) :
    t.valueStep maxDepth value id depth = .error .nestedDocument := by
  have hb : (id != root) = true := by simpa using hne
  rw [valueStep, bind_ok (node_eq_ok.mpr hn), hk]
  simp only [hb, if_true]
  rfl

theorem valueStep_document (hk : t.rootNode.kind = .document) :
    t.valueStep maxDepth value root depth =
      t.rootValue?.elim (.ok (.map [])) fun c => value c depth := by
  rw [valueStep, bind_ok (node_eq_ok.mpr t.get?_root), hk, rootValue?]
  simp only [bne_self_eq_false, Bool.false_eq_true, if_false]
  cases t.rootNode.children[0]? <;> rfl

theorem valueStep_deep (hn : t.get? id = some n) (hk : n.kind.isCollection = true)
    (hd : maxDepth ≤ depth) :
    t.valueStep maxDepth value id depth = .error (.depthExceeded maxDepth) := by
  rw [valueStep, bind_ok (node_eq_ok.mpr hn)]
  simp only [hk, hd, decide_true, Bool.and_self, if_true]
  rfl

theorem valueStep_sequence (hn : t.get? id = some n) (hk : n.kind = .sequence)
    (hd : depth < maxDepth) : t.valueStep maxDepth value id depth =
      (n.children.toList.mapM fun c => value c (depth + 1)).map .list := by
  have hb : decide (maxDepth ≤ depth) = false := by simpa using hd
  rw [valueStep, bind_ok (node_eq_ok.mpr hn), hk]
  simp only [hb, Bool.and_false, Bool.false_eq_true, if_false]
  rfl

/-- Puts an entry of a mapping, where the values of nodes are known. -/
def putStep (t : Tree) (value : NodeId → Except Error Value) (entries : List (String × Value))
    (entry : NodeId × Option NodeId) : Except Error (List (String × Value)) := do
  let value ←
    match entry.2 with
    | some v => value v
    | none => pure (.text "")
  return Value.put (← t.keyText entry.1) value entries

theorem putStep_none (value : NodeId → Except Error Value) (entries : List (String × Value))
    (k : NodeId) : t.putStep value entries (k, none) =
      (t.keyText k).map fun text => Value.put text (.text "") entries := rfl

theorem putStep_some (value : NodeId → Except Error Value) (entries : List (String × Value))
    (k v : NodeId) : t.putStep value entries (k, some v) =
      value v >>= fun value => (t.keyText k).map fun text => Value.put text value entries := rfl

theorem valueStep_mapping (hn : t.get? id = some n) (hk : n.kind = .mapping)
    (hd : depth < maxDepth) : t.valueStep maxDepth value id depth =
      ((inPairs n.children.toList).foldlM (t.putStep fun v => value v (depth + 1)) []).map .map := by
  have hb : decide (maxDepth ≤ depth) = false := by simpa using hd
  rw [valueStep, bind_ok (node_eq_ok.mpr hn), hk]
  simp only [hb, Bool.and_false, Bool.false_eq_true, if_false]
  rfl

end Steps

/-- The values of nodes at a depth, with the room that is left there, solve the recursion. -/
theorem valueAt_eq_valueStep (t : Tree) (maxDepth : Nat) (id : NodeId) (depth : Nat) :
    t.valueAt maxDepth (maxDepth - depth) id =
      t.valueStep maxDepth (fun c d => t.valueAt maxDepth (maxDepth - d) c) id depth := by
  cases hn : t.get? id with
  | none => rw [valueStep_foreign hn, valueAt_foreign hn]
  | some n =>
    by_cases hdeep : n.kind.isCollection = true ∧ maxDepth ≤ depth
    · obtain ⟨hk, hd⟩ := hdeep
      rw [valueStep_deep hn hk hd, Nat.sub_eq_zero_of_le hd, valueAt_zero hn hk]
    · rw [not_and, Nat.not_le] at hdeep
      cases hk : n.kind with
      | scalar => rw [valueStep_scalar hn hk, valueAt_scalar hn hk]
      | «alias» => rw [valueStep_alias hn hk, valueAt_alias hn hk]
      | document =>
        by_cases hroot : id = root
        · subst hroot
          obtain rfl := Option.some.inj (t.get?_root.symm.trans hn)
          rw [valueStep_document hk, valueAt_document hk]
        · rw [valueStep_nested hn hk hroot, valueAt_nested hn hk hroot]
      | sequence =>
        have hd : depth < maxDepth := hdeep (by rw [hk]; rfl)
        have hroom : maxDepth - depth = (maxDepth - (depth + 1)) + 1 := by omega
        rw [valueStep_sequence hn hk hd, hroom, valueAt_sequence hn hk]
      | mapping =>
        have hd : depth < maxDepth := hdeep (by rw [hk]; rfl)
        have hroom : maxDepth - depth = (maxDepth - (depth + 1)) + 1 := by omega
        rw [valueStep_mapping hn hk hd, hroom, valueAt_mapping hn hk]
        rfl

/-- A step asks for nothing but what it calls. -/
theorem valueStep_congr {f g : NodeId → Nat → Except Error Value}
    (h : ∀ c d, t.Calls maxDepth (id, depth) (c, d) → f c d = g c d) :
    t.valueStep maxDepth f id depth = t.valueStep maxDepth g id depth := by
  cases hn : t.get? id with
  | none => rw [valueStep_foreign hn, valueStep_foreign hn]
  | some n =>
    by_cases hdeep : n.kind.isCollection = true ∧ maxDepth ≤ depth
    · rw [valueStep_deep hn hdeep.1 hdeep.2, valueStep_deep hn hdeep.1 hdeep.2]
    · rw [not_and, Nat.not_le] at hdeep
      cases hk : n.kind with
      | scalar => rw [valueStep_scalar hn hk, valueStep_scalar hn hk]
      | «alias» =>
        rw [valueStep_alias hn hk, valueStep_alias hn hk]
        cases hr : t.resolve? id with
        | none =>
          rw [aliased_of_none hr]
          rfl
        | some r =>
          rw [aliased_eq_ok.mpr hr]
          exact h r depth (.target hn hk hr)
      | document =>
        by_cases hroot : id = root
        · subst hroot
          obtain rfl := Option.some.inj (t.get?_root.symm.trans hn)
          rw [valueStep_document hk, valueStep_document hk]
          cases hv : t.rootValue? with
          | none => rfl
          | some c => exact h c depth (.value hk hv)
        · rw [valueStep_nested hn hk hroot, valueStep_nested hn hk hroot]
      | sequence =>
        have hd : depth < maxDepth := hdeep (by rw [hk]; rfl)
        rw [valueStep_sequence hn hk hd, valueStep_sequence hn hk hd]
        congr 1
        refine mapM_congr ?_
        intro c hc
        exact h c (depth + 1) (.item hn hk hd hc)
      | mapping =>
        have hd : depth < maxDepth := hdeep (by rw [hk]; rfl)
        rw [valueStep_mapping hn hk hd, valueStep_mapping hn hk hd]
        congr 1
        refine foldlM_congr ?_
        rintro ⟨k, v⟩ hkv entries
        cases v with
        | none => rfl
        | some v =>
          rw [putStep_some, putStep_some, h v (depth + 1) (.entry hn hk hd hkv)]

/-! ### The recursion ends -/

/-- How many calls may follow at one depth. -/
def callRank (t : Tree) (id : NodeId) : Nat :=
  -- An alias of the document, the document, its value, and what this value stands for.
  if id = root then 2
  else if t.resolve? id = some root then 3
  else if t.resolve? id = some id then 0
  else 1

theorem callRank_root : t.callRank root = 2 := if_pos rfl

theorem callRank_resolved (hr : t.resolve? id = some r) (hne : r ≠ root) : t.callRank r = 0 := by
  obtain ⟨m, hm, hma⟩ := exists_of_follow hr
  have hself : t.resolve? r = some r := resolve?_of_ne_alias hm hma
  have hroot : t.resolve? r ≠ some root := by
    rw [hself]
    exact fun h => hne (Option.some.inj h)
  rw [callRank, if_neg hne, if_neg hroot, if_pos hself]

/-- At one depth the rank becomes less with every call. -/
theorem Calls.rank_lt (hend : ¬ t.Endless) {d : Nat} (h : t.Calls maxDepth (id, depth) (c, d)) :
    (d = depth ∧ t.callRank c < t.callRank id) ∨ (d = depth + 1 ∧ depth < maxDepth) := by
  cases h with
  | item _ _ hd _ => exact .inr ⟨rfl, hd⟩
  | entry _ _ hd _ => exact .inr ⟨rfl, hd⟩
  | value hk hc =>
    have hresolve : t.resolve? c ≠ some root := fun hr => hend ⟨hk, c, hc, hr⟩
    have hroot : t.resolve? root = some root :=
      resolve?_of_ne_alias t.get?_root (by rw [hk]; exact nofun)
    have hne : c ≠ root := by
      rintro rfl
      exact hresolve hroot
    refine .inl ⟨rfl, ?_⟩
    rw [callRank_root, callRank, if_neg hne, if_neg hresolve]
    split <;> omega
  | @target _ _ n r hn hk hr =>
    refine .inl ⟨rfl, ?_⟩
    obtain ⟨m, hm, hma⟩ := exists_of_follow hr
    have hne : c ≠ id := by
      rintro rfl
      obtain rfl := Option.some.inj (hn.symm.trans hm)
      exact hma hk
    by_cases hc : c = root
    · subst hc
      rw [callRank_root, callRank, if_neg (Ne.symm hne), if_pos hr]
      omega
    · rw [callRank_resolved hr hc, callRank]
      have hself : t.resolve? id ≠ some id := by
        rw [hr]
        exact fun h => hne (Option.some.inj h)
      rw [if_neg hself]
      split
      · omega
      · split <;> omega

/-- Calls come to an end, from whichever node. -/
theorem calls_wellFounded (hend : ¬ t.Endless) (maxDepth : Nat) :
    WellFounded fun q p => t.Calls maxDepth p q := by
  refine Subrelation.wf (r := InvImage (· < ·)
    fun p : NodeId × Nat => 4 * (maxDepth - p.2) + t.callRank p.1) ?_ (InvImage.wf _ Nat.lt_wfRel.wf)
  rintro ⟨c, d⟩ ⟨id, depth⟩ h
  have hrank : t.callRank c ≤ 3 := by
    rw [callRank]
    split <;> [omega; split <;> [omega; split <;> omega]]
  rcases h.rank_lt hend with ⟨rfl, hlt⟩ | ⟨rfl, hlt⟩
  · change 4 * (maxDepth - d) + t.callRank c < 4 * (maxDepth - d) + t.callRank id
    omega
  · change 4 * (maxDepth - (depth + 1)) + t.callRank c < 4 * (maxDepth - depth) + t.callRank id
    omega

/-- A node is called for again only inside more collections, and not inside too many. -/
theorem Calls.deeper (hend : ¬ t.Endless) {p q : NodeId × Nat}
    (h : TransGen (t.Calls maxDepth) p q) :
    (q.2 = p.2 ∧ t.callRank q.1 < t.callRank p.1) ∨ (p.2 < q.2 ∧ q.2 ≤ maxDepth) := by
  induction h with
  | @single q h =>
    obtain ⟨id, depth⟩ := p
    obtain ⟨c, d⟩ := q
    rcases h.rank_lt hend with ⟨rfl, hlt⟩ | ⟨rfl, hlt⟩
    · exact .inl ⟨rfl, hlt⟩
    · exact .inr ⟨Nat.lt_succ_self depth, hlt⟩
  | @tail q q' _ h ih =>
    obtain ⟨id, depth⟩ := q
    obtain ⟨c, d⟩ := q'
    simp only at ih ⊢
    rcases h.rank_lt hend with ⟨rfl, hlt⟩ | ⟨rfl, hlt⟩
    · omega
    · omega

/-- A function that solves the recursion gives the values. -/
theorem eq_valueAt_of_step (hend : ¬ t.Endless) {f : NodeId → Nat → Except Error Value}
    (hf : ∀ id d, f id d = t.valueStep maxDepth f id d) (p : NodeId × Nat) :
    f p.1 p.2 = t.valueAt maxDepth (maxDepth - p.2) p.1 := by
  -- Both sides make the same step, which asks for nothing but calls.
  induction p using (calls_wellFounded hend maxDepth).induction with
  | _ p ih =>
    obtain ⟨id, depth⟩ := p
    rw [hf, valueAt_eq_valueStep]
    refine valueStep_congr ?_
    intro c d h
    exact ih (c, d) h

/-- Where the value of the document leads back to it, the recursion goes round. -/
theorem Endless.not_acc (hend : t.Endless) (maxDepth : Nat) :
    ¬ Acc (fun q p => t.Calls maxDepth p q) (root, 0) := by
  have hround : Relation.TransGen (fun q p => t.Calls maxDepth p q) (root, 0) (root, 0) := by
    obtain ⟨hk, c, hv, hr⟩ := hend
    rcases alias_or_root hr with ⟨n, hn, ha⟩ | rfl
    · exact .head (.target hn ha hr) (.single (.value hk hv))
    · exact .single (.value hk hv)
  intro hacc
  have hacc := hacc.transGen
  generalize (root, 0) = p at hround hacc
  induction hacc with
  | intro p _ ih => exact ih p hround hround

/-! ### The outcome -/

/-- Why a document has no value. -/
inductive Refusal (t : Tree) (maxDepth : Nat) : Error → Prop where
  | deep : Refusal t maxDepth (.depthExceeded maxDepth)
  | nested : Refusal t maxDepth .nestedDocument
  | unresolved {id : NodeId} {n : Node} (hn : t.get? id = some n) (hk : n.kind = .alias)
      (hr : t.resolve? id = none) : Refusal t maxDepth (.unresolvedAlias n.value)

theorem refusal_of_aliased {e : Error} (hn : t.get? id = some n) (hk : n.kind = .alias)
    (he : t.aliased id n.value = .error e) : t.Refusal maxDepth e := by
  cases hr : t.resolve? id with
  | none =>
    rw [aliased_of_none hr] at he
    obtain rfl := Except.error.inj he
    exact .unresolved hn hk hr
  | some r =>
    rw [aliased_eq_ok.mpr hr] at he
    cases he

theorem refusal_of_keyText {e : Error} (hn : t.get? id = some n) (he : t.keyText id = .error e) :
    t.Refusal maxDepth e := by
  rw [keyText, bind_ok (node_eq_ok.mpr hn)] at he
  split at he
  · rename_i hb
    rcases bind_eq_error he with he | ⟨r, hr, he⟩
    · exact refusal_of_aliased hn (by simpa using hb) he
    · obtain ⟨m, hm, -⟩ := exists_of_follow (aliased_eq_ok.mp hr)
      rw [bind_ok (node_eq_ok.mpr hm)] at he
      cases he
  · cases he

theorem child_of_rootValue (hv : t.rootValue? = some c) : t.Child root c :=
  child_of_mem t.get?_root (Array.mem_toList_iff.mpr (Array.mem_of_getElem? hv))

theorem Calls.lt_size (hin : t.Inside) {d : Nat} (h : t.Calls maxDepth (id, depth) (c, d)) :
    c < t.size := by
  cases h with
  | item hn _ _ hc => exact hin id c (child_of_mem hn hc)
  | entry hn _ _ hc => exact hin id c (child_of_mem hn ((mem_inPairs hc).2 c rfl))
  | value _ hc => exact hin root c (child_of_rootValue hc)
  | target _ _ hr =>
    obtain ⟨m, hm, -⟩ := exists_of_follow hr
    exact Tree.lt_size hm

/-- A step fails for a reason of its own, or because of a call. -/
theorem refusal_of_step (hin : t.Inside) {f : NodeId → Nat → Except Error Value} {e : Error}
    (hid : id < t.size) (h : ∀ c d, t.Calls maxDepth (id, depth) (c, d) → ∀ e, f c d = .error e →
      t.Refusal maxDepth e) (he : t.valueStep maxDepth f id depth = .error e) :
    t.Refusal maxDepth e := by
  obtain ⟨n, hn⟩ := exists_get? hid
  by_cases hdeep : n.kind.isCollection = true ∧ maxDepth ≤ depth
  · rw [valueStep_deep hn hdeep.1 hdeep.2] at he
    obtain rfl := Except.error.inj he
    exact .deep
  · rw [not_and, Nat.not_le] at hdeep
    cases hk : n.kind with
    | scalar =>
      rw [valueStep_scalar hn hk] at he
      cases he
    | «alias» =>
      rw [valueStep_alias hn hk] at he
      rcases bind_eq_error he with he | ⟨r, hr, he⟩
      · exact refusal_of_aliased hn hk he
      · exact h r depth (.target hn hk (aliased_eq_ok.mp hr)) e he
    | document =>
      by_cases hroot : id = root
      · subst hroot
        obtain rfl := Option.some.inj (t.get?_root.symm.trans hn)
        rw [valueStep_document hk] at he
        cases hv : t.rootValue? with
        | none =>
          rw [hv] at he
          cases he
        | some c =>
          rw [hv] at he
          exact h c depth (.value hk hv) e he
      · rw [valueStep_nested hn hk hroot] at he
        obtain rfl := Except.error.inj he
        exact .nested
    | sequence =>
      have hd : depth < maxDepth := hdeep (by rw [hk]; rfl)
      rw [valueStep_sequence hn hk hd] at he
      obtain ⟨c, hc, he⟩ := exists_of_mapM_error (map_eq_error he)
      exact h c (depth + 1) (.item hn hk hd hc) e he
    | mapping =>
      have hd : depth < maxDepth := hdeep (by rw [hk]; rfl)
      rw [valueStep_mapping hn hk hd] at he
      obtain ⟨⟨k, v⟩, hkv, entries, he⟩ := exists_of_foldlM_error (map_eq_error he)
      obtain ⟨m, hm⟩ := hin.get? (child_of_mem hn (mem_inPairs hkv).1)
      cases v with
      | none =>
        rw [putStep_none] at he
        exact refusal_of_keyText hm (map_eq_error he)
      | some c =>
        rw [putStep_some] at he
        rcases bind_eq_error he with he | ⟨value, -, he⟩
        · exact h c (depth + 1) (.entry hn hk hd hkv) e he
        · exact refusal_of_keyText hm (map_eq_error he)

theorem refusal_of_valueAt (hin : t.Inside) (hend : ¬ t.Endless) (p : NodeId × Nat)
    (hp : p.1 < t.size) {e : Error} (he : t.valueAt maxDepth (maxDepth - p.2) p.1 = .error e) :
    t.Refusal maxDepth e := by
  induction p using (calls_wellFounded hend maxDepth).induction generalizing e with
  | _ p ih =>
    obtain ⟨id, depth⟩ := p
    rw [valueAt_eq_valueStep] at he
    refine refusal_of_step hin hp ?_ he
    intro c d h e he
    exact ih (c, d) h (h.lt_size hin) he

/-- Unless the value of the document leads back to the document, its value is found, or there is
none, at every ceiling and wherever the aliases lead: no node is called for again but inside of more
collections, the recursion ends from every node, and what it gives is the value. -/
theorem value_total (hin : t.Inside) (hend : ¬ t.Endless) (maxDepth : Nat) :
    WellFounded (fun q p => t.Calls maxDepth p q) ∧
      (∀ id d d', TransGen (t.Calls maxDepth) (id, d) (id, d') → d < d' ∧ d' ≤ maxDepth) ∧
      (∃! f : NodeId → Nat → Except Error Value, ∀ id d, f id d = t.valueStep maxDepth f id d) ∧
      (∀ f : NodeId → Nat → Except Error Value, (∀ id d, f id d = t.valueStep maxDepth f id d) →
        f root 0 = t.value maxDepth) ∧
      ((∃ v, t.value maxDepth = .ok v) ∨ ∃ e, t.value maxDepth = .error e ∧ t.Refusal maxDepth e) := by
  refine ⟨calls_wellFounded hend maxDepth, ?_, ?_, ?_, ?_⟩
  · intro id d d' h
    rcases Calls.deeper hend h with ⟨-, hlt⟩ | hdeeper
    · exact absurd hlt (Nat.lt_irrefl _)
    · exact hdeeper
  · refine ⟨fun id d => t.valueAt maxDepth (maxDepth - d) id, valueAt_eq_valueStep t maxDepth, ?_⟩
    intro f hf
    funext id d
    exact eq_valueAt_of_step hend hf (id, d)
  · intro f hf
    exact eq_valueAt_of_step hend hf (root, 0)
  · cases hv : t.value maxDepth with
    | ok v => exact .inl ⟨v, rfl⟩
    | error e => exact .inr ⟨e, rfl, refusal_of_valueAt hin hend (root, 0) t.size_pos hv⟩

/-- An alias inside of a sequence may lead to the document. -/
theorem value_total_round :
    let t : Tree := ⟨#[{ kind := .document, children := #[1] }, { kind := .sequence, children := #[2] },
      { kind := .alias, value := "a", target := some 0 }], by decide⟩
    t.Inside ∧ ¬ t.Endless ∧ WellFounded (fun q p => t.Calls 3 p q) ∧
      t.value 3 = .error (.depthExceeded 3) := by
  intro t
  have hchildren : ∀ p < t.size, ∀ c ∈ t.members p, c < t.size := by decide
  have hin : t.Inside := fun p c h => hchildren p h.lt_size c h
  have hend : ¬ t.Endless := by
    rintro ⟨-, c, hv, hr⟩
    obtain rfl : 1 = c := Option.some.inj hv
    revert hr
    decide
  obtain ⟨hwf, -⟩ := value_total hin hend 3
  exact ⟨hin, hend, hwf, verdict_eq_error.mp (by decide +kernel)⟩

/-- Where the only child of the document is an alias of the document, the recursion does not end. -/
theorem endless_alias :
    let t : Tree := ⟨#[{ kind := .document, children := #[1] },
      { kind := .alias, value := "a", target := some 0 }], by decide⟩
    t.Inside ∧ ∀ maxDepth, ¬ Acc (fun q p => t.Calls maxDepth p q) (root, 0) ∧
      t.value maxDepth = .error .endless := by
  intro t
  have hchildren : ∀ p < t.size, ∀ c ∈ t.members p, c < t.size := by decide
  have hend : t.Endless := ⟨rfl, 1, rfl, by decide⟩
  refine ⟨fun p c h => hchildren p h.lt_size c h, ?_⟩
  intro maxDepth
  exact ⟨hend.not_acc maxDepth, valueAt_of_content_error (hend.content 4).1⟩

end Tree

end TaggedYaml
