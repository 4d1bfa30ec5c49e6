import TaggedYaml.Proofs.Shape.Pairs
import TaggedYaml.Proofs.Tree.Transparent

/-!
# Entries — the value of a mapping

A mapping is read entry by entry, and keys that are written differently may have one text.  Its value has
each text once, where it first comes, with the value that comes last (`Value.keys_ofPairs`,
`Value.mem_ofPairs`).  Every entry is read, also one whose value is replaced later, so the mapping fails
where its first entry does (`Tree.valueAt_entries`).
-/

namespace TaggedYaml

namespace Tree

variable {t : Tree} {maxDepth room : Nat} {id k : NodeId} {n : Node} {e : Error} {text : String}

/-! ### Keys -/

/-- The text of a key: that of the node which an alias stands for, or its own, whatever its kind. -/
inductive KeySays (t : Tree) (k : NodeId) : String → Prop where
  | own {n : Node} : t.get? k = some n → n.kind ≠ .alias → KeySays t k n.value
  | alias {n m : Node} {r : NodeId} : t.get? k = some n → n.kind = .alias → t.resolve? k = some r →
    t.get? r = some m → KeySays t k m.value

/-- A key has no text: it is an alias that stands for no node, or not even a node. -/
inductive KeyFails (t : Tree) (k : NodeId) : Error → Prop where
  | foreign : t.get? k = none → KeyFails t k (.foreignNode k)
  | unresolved {n : Node} : t.get? k = some n → n.kind = .alias → t.resolve? k = none →
    KeyFails t k (.unresolvedAlias n.value)

theorem keyText_eq_ok : t.keyText k = .ok text ↔ t.KeySays k text := by
  constructor
  · intro h
    cases hn : t.get? k with
    | none =>
      rw [keyText_foreign hn] at h
      cases h
    | some n =>
      by_cases hk : n.kind = .alias
      · rw [keyText_alias hn hk] at h
        obtain ⟨r, hr, h⟩ := bind_eq_ok h
        obtain ⟨m, hm, rfl⟩ := map_eq_ok h
        exact .alias hn hk (aliased_eq_ok.mp hr) (node_eq_ok.mp hm)
      · rw [keyText_direct hn hk] at h
        obtain rfl := Except.ok.inj h
        exact .own hn hk
  · rintro (⟨hn, hk⟩ | ⟨hn, hk, hr, hm⟩)
    · exact keyText_direct hn hk
    · rw [keyText_alias hn hk, aliased_eq_ok.mpr hr, Except.bind, node_eq_ok.mpr hm]
      rfl

theorem keyText_eq_error : t.keyText k = .error e ↔ t.KeyFails k e := by
  constructor
  · intro h
    cases hn : t.get? k with
    | none =>
      rw [keyText_foreign hn] at h
      obtain rfl := Except.error.inj h
      exact .foreign hn
    | some n =>
      by_cases hk : n.kind = .alias
      · cases hr : t.resolve? k with
        | none =>
          rw [keyText_alias hn hk, aliased_of_none hr] at h
          obtain rfl := Except.error.inj h
          exact .unresolved hn hk hr
        | some r =>
          obtain ⟨m, hm, -⟩ := exists_of_follow hr
          rw [keyText_eq_ok.mpr (.alias hn hk hr hm)] at h
          cases h
      · rw [keyText_direct hn hk] at h
        cases h
  · rintro (hn | ⟨hn, hk, hr⟩)
    · exact keyText_foreign hn
    · rw [keyText_alias hn hk, aliased_of_none hr]
      rfl

/-! ### Entries -/

/-- The value of an entry; it is an empty text if the key has none. -/
def entryValue (t : Tree) (maxDepth room : Nat) : Option NodeId → Except Error Value
  | some v => t.valueAt maxDepth room v
  | none => .ok (.text "")

/-- What an entry puts into the map. -/
def EntrySays (t : Tree) (maxDepth room : Nat) (entry : NodeId × Option NodeId)
    (e : String × Value) : Prop :=
  t.KeySays entry.1 e.1 ∧ t.entryValue maxDepth room entry.2 = .ok e.2

/-- An entry fails with the error of its value, or else with that of its key. -/
def EntryFails (t : Tree) (maxDepth room : Nat) (entry : NodeId × Option NodeId) (e : Error) : Prop :=
  t.entryValue maxDepth room entry.2 = .error e ∨
    (∃ v, t.entryValue maxDepth room entry.2 = .ok v) ∧ t.KeyFails entry.1 e

/-- Reads an entry, the value first. -/
def readEntry (t : Tree) (maxDepth room : Nat) (entry : NodeId × Option NodeId) :
    Except Error (String × Value) := do
  let value ← t.entryValue maxDepth room entry.2
  return (← t.keyText entry.1, value)

theorem readEntry_eq_ok {entry : NodeId × Option NodeId} {x : String × Value} :
    t.readEntry maxDepth room entry = .ok x ↔ t.EntrySays maxDepth room entry x := by
  rw [EntrySays, ← keyText_eq_ok]
  constructor
  · intro h
    obtain ⟨value, hvalue, h⟩ := bind_eq_ok h
    obtain ⟨text, htext, h⟩ := bind_eq_ok h
    obtain rfl := Except.ok.inj h
    exact ⟨htext, hvalue⟩
  · rintro ⟨htext, hvalue⟩
    rw [readEntry, bind_ok hvalue, bind_ok htext]
    rfl

theorem readEntry_eq_error {entry : NodeId × Option NodeId} :
    t.readEntry maxDepth room entry = .error e ↔ t.EntryFails maxDepth room entry e := by
  rw [EntryFails, ← keyText_eq_error]
  constructor
  · intro h
    rcases bind_eq_error h with h | ⟨value, hvalue, h⟩
    · exact .inl h
    · rcases bind_eq_error h with h | ⟨text, -, h⟩
      · exact .inr ⟨⟨value, hvalue⟩, h⟩
      · cases h
  · rintro (h | ⟨⟨value, hvalue⟩, h⟩)
    · rw [readEntry, h]
      rfl
    · rw [readEntry, bind_ok hvalue, h]
      rfl

/-- Entries are put into the map as they are read. -/
theorem putAll_eq (maxDepth room : Nat) : ∀ (pairs : List (NodeId × Option NodeId))
    (into : List (String × Value)), t.putAll maxDepth room into pairs =
      (pairs.mapM (t.readEntry maxDepth room)).map fun entries =>
        entries.foldl (fun m e => Value.put e.1 e.2 m) into
  | [], into => rfl
  | (k, v) :: pairs, into => by
    have hstep : t.putAll maxDepth room into ((k, v) :: pairs) =
        t.readEntry maxDepth room (k, v) >>= fun e =>
          t.putAll maxDepth room (Value.put e.1 e.2 into) pairs := by
      rw [putAll, List.foldlM_cons, readEntry]
      cases v with
      | none =>
        cases h : t.keyText k <;> simp [entryValue, h, bind, Except.bind, pure, Except.pure, putAll]
      | some v =>
        cases hv : t.valueAt maxDepth room v with
        | error e => simp [entryValue, hv, bind, Except.bind]
        | ok value =>
          cases h : t.keyText k <;>
            simp [entryValue, hv, h, bind, Except.bind, pure, Except.pure, putAll]
    rw [hstep, List.mapM_cons]
    cases t.readEntry maxDepth room (k, v) with
    | error e => rfl
    | ok x =>
      rw [bind_ok rfl, bind_ok rfl, putAll_eq maxDepth room pairs]
      cases pairs.mapM (t.readEntry maxDepth room) <;> rfl

theorem valueAt_eq_ofPairs (hn : t.get? id = some n) (hk : n.kind = .mapping) (maxDepth room : Nat) :
    t.valueAt maxDepth (room + 1) id =
      ((inPairs n.children.toList).mapM (t.readEntry maxDepth room)).map fun entries =>
        .map (Value.ofPairs entries) := by
  rw [valueAt_mapping hn hk, putAll_eq]
  cases (inPairs n.children.toList).mapM (t.readEntry maxDepth room) <;> rfl

/-- The value of a mapping has distinct keys.  They are the texts of its keys, in the order in which they
first come, and each has the value that comes last with it.  There is no value exactly if some value or
some key has none, be it in an entry that is replaced later, and the error is that of the first entry that
fails: of its value, or else of its key. -/
theorem valueAt_entries (hn : t.get? id = some n) (hk : n.kind = .mapping) (maxDepth room : Nat) :
    (∀ v, t.valueAt maxDepth (room + 1) id = .ok v → ∃ entries m, v = .map m ∧
      List.Forall₂ (t.EntrySays maxDepth room) (inPairs n.children.toList) entries ∧
      (m.map (·.1)).Nodup ∧ m.map (·.1) = (entries.map (·.1)).eraseDups ∧
      ∀ key value, (key, value) ∈ m ↔ Value.IsLast entries key value) ∧
    (∀ e, t.valueAt maxDepth (room + 1) id = .error e ↔ ∃ before entry behind,
      inPairs n.children.toList = before ++ entry :: behind ∧
      (∀ other ∈ before, ∃ x, t.EntrySays maxDepth room other x) ∧
      t.EntryFails maxDepth room entry e) ∧
    ((∃ e, t.valueAt maxDepth (room + 1) id = .error e) ↔ ∃ entry ∈ inPairs n.children.toList,
      ∃ e, t.entryValue maxDepth room entry.2 = .error e ∨ t.KeyFails entry.1 e) := by
  have hvalue := valueAt_eq_ofPairs (t := t) hn hk maxDepth room
  have herror (e : Error) : t.valueAt maxDepth (room + 1) id = .error e ↔
      (inPairs n.children.toList).mapM (t.readEntry maxDepth room) = .error e := by
    rw [hvalue]
    cases (inPairs n.children.toList).mapM (t.readEntry maxDepth room) <;> simp [Except.map]
  refine ⟨fun v hv => ?_, fun e => ?_, ?_⟩
  · rw [hvalue] at hv
    obtain ⟨entries, hentries, rfl⟩ := map_eq_ok hv
    refine ⟨entries, Value.ofPairs entries, rfl, ?_, Value.nodup_ofPairs entries,
      Value.keys_ofPairs entries, fun key value => Value.mem_ofPairs⟩
    exact (forall₂_of_mapM hentries).imp fun _ _ h => readEntry_eq_ok.mp h
  · rw [herror, mapM_eq_error]
    simp only [readEntry_eq_ok, readEntry_eq_error]
  · simp only [herror]
    constructor
    · rintro ⟨e, he⟩
      obtain ⟨entry, hentry, he⟩ := exists_of_mapM_error he
      rcases readEntry_eq_error.mp he with h | ⟨-, h⟩
      · exact ⟨entry, hentry, e, .inl h⟩
      · exact ⟨entry, hentry, e, .inr h⟩
    · rintro ⟨entry, hentry, e, he⟩
      cases hall : (inPairs n.children.toList).mapM (t.readEntry maxDepth room) with
      | error e' => exact ⟨e', rfl⟩
      | ok entries =>
        obtain ⟨x, -, hx⟩ := exists_of_mapM hall entry hentry
        obtain ⟨hkey, hval⟩ := readEntry_eq_ok.mp hx
        rcases he with he | he
        · rw [hval] at he
          cases he
        · rw [← keyText_eq_error, keyText_eq_ok.mpr hkey] at he
          cases he

/-- Two keys of one text, one of them an alias, and a last key without a value.  In the second mapping the
value of the first key would be replaced later, and yet there is no map. -/
theorem valueAt_entries_collide : ∃ (t : Tree) (n n' : Node),
    t.get? 1 = some n ∧ n.kind = .mapping ∧ t.get? 9 = some n' ∧ n'.kind = .mapping ∧
    t.valueAt 128 2 1 = .ok (.map [("a", .text "3"), ("b", .text "")]) ∧
    (∃ entries, List.Forall₂ (t.EntrySays 128 1) (inPairs n.children.toList) entries ∧
      Value.IsLast entries "a" (.text "3") ∧ Value.IsLast entries "b" (.text "")) ∧
    t.valueAt 128 2 9 = .error (.unresolvedAlias "ghost") := by
  obtain ⟨t, ht⟩ : ∃ t : Tree, t = ⟨#[{ kind := .document, children := #[1] },
      { kind := .mapping, children := #[2, 3, 4, 5, 6, 7, 8] },
      { kind := .scalar, value := "a", anchor := some "x" }, { kind := .scalar, value := "1" },
      { kind := .scalar, value := "b" }, { kind := .scalar, value := "2" },
      { kind := .alias, value := "x", target := some 2 }, { kind := .scalar, value := "3" },
      { kind := .scalar, value := "b", style := .double },
      { kind := .mapping, children := #[10, 11, 12, 13] },
      { kind := .scalar, value := "a" }, { kind := .alias, value := "ghost" },
      { kind := .scalar, value := "a" }, { kind := .scalar, value := "5" }], by decide⟩ := ⟨_, rfl⟩
  obtain ⟨n, hn, hk⟩ : ∃ n, t.get? 1 = some n ∧ n.kind = .mapping := by
    subst ht
    exact ⟨_, rfl, rfl⟩
  obtain ⟨n', hn', hk', hpairs⟩ : ∃ n, t.get? 9 = some n ∧ n.kind = .mapping ∧
      inPairs n.children.toList = [(10, some 11), (12, some 13)] := by
    subst ht
    exact ⟨_, rfl, rfl, rfl⟩
  have hvalue : t.valueAt 128 2 1 = .ok (.map [("a", .text "3"), ("b", .text "")]) := by
    subst ht
    cbv
  have hghost : t.entryValue 128 1 (some 11) = .error (.unresolvedAlias "ghost") := by
    subst ht
    cbv
  clear ht
  refine ⟨t, n, n', hn, hk, hn', hk', hvalue, ?_, ?_⟩
  · obtain ⟨entries, m, hm, hentries, -, -, hlast⟩ := (valueAt_entries hn hk 128 1).1 _ hvalue
    obtain rfl := Value.map.inj hm
    exact ⟨entries, hentries, (hlast _ _).mp (by simp), (hlast _ _).mp (by simp)⟩
  · exact ((valueAt_entries hn' hk' 128 1).2.1 _).mpr
      ⟨[], (10, some 11), [(12, some 13)], hpairs, by simp, .inl hghost⟩

end Tree

end TaggedYaml
