import TaggedYaml.Proofs.Json.Words
import TaggedYaml.Proofs.Shape.Value

/-!
# Plain data as shapes

The value of a document has distinct keys and nests no deeper than it may (`value_ok`).  Such data is
the value of a shape of strings between double quotes (`value_ofValue`).
-/

namespace TaggedYaml

namespace Value

mutual

/-- The keys of each map are distinct. -/
def Distinct : Value → Prop
  | text _ => True
  | list items => DistinctItems items
  | map entries => (entries.map (·.1)).Nodup ∧ DistinctEntries entries

def DistinctItems : List Value → Prop
  | [] => True
  | v :: rest => Distinct v ∧ DistinctItems rest

def DistinctEntries : List (String × Value) → Prop
  | [] => True
  | (_, v) :: rest => Distinct v ∧ DistinctEntries rest

end

variable {key : String} {value : Value} {entries : List (String × Value)}

theorem nodup_put (h : (entries.map (·.1)).Nodup) : ((put key value entries).map (·.1)).Nodup := by
  by_cases hk : key ∈ entries.map (·.1)
  · rwa [keys_put_of_mem hk]
  · rw [keys_put_of_not_mem hk]
    rw [List.nodup_append]
    refine ⟨h, by simp, fun a ha b hb => ?_⟩
    rintro rfl
    rw [List.mem_singleton] at hb
    exact hk (hb ▸ ha)

theorem distinctEntries_put (hv : Distinct value) (h : DistinctEntries entries) :
    DistinctEntries (put key value entries) := by
  induction entries with
  | nil => exact ⟨hv, trivial⟩
  | cons e rest ih =>
    obtain ⟨k, v⟩ := e
    rw [DistinctEntries] at h
    rw [put]
    split
    · exact ⟨hv, h.2⟩
    · exact ⟨h.1, ih h.2⟩

theorem entriesHeight_put {m : Nat} (hv : height value ≤ m) (h : entriesHeight entries ≤ m) :
    entriesHeight (put key value entries) ≤ m := by
  induction entries with
  | nil => simpa [put, entriesHeight] using hv
  | cons e rest ih =>
    obtain ⟨k, v⟩ := e
    rw [entriesHeight] at h
    rw [put]
    split
    · rw [entriesHeight]
      omega
    · have := ih (by omega)
      rw [entriesHeight]
      omega

/-- Putting entries with new keys one by one adds them at the end. -/
theorem put_of_not_mem (h : key ∉ entries.map (·.1)) :
    put key value entries = entries ++ [(key, value)] := by
  induction entries with
  | nil => rfl
  | cons e rest ih =>
    obtain ⟨k, v⟩ := e
    simp only [List.map_cons, List.mem_cons, not_or] at h
    have hne : (k == key) = false := by simpa using Ne.symm h.1
    rw [put, hne, ih h.2]
    rfl

end Value

/-! ### The value of a node -/

namespace Tree

variable {t : Tree} {maxDepth : Nat}

/-- Only a document without a value has no content. -/
theorem eq_of_content_nothing : ∀ {fuel : Nat} {id : NodeId}, t.content fuel id = .ok .nothing →
    t.rootNode.kind = .document ∧ t.rootValue? = none
  | 0, id, h => by simp [content] at h
  | fuel + 1, id, h => by
    rw [content] at h
    obtain ⟨n, hn, h⟩ := bind_eq_ok h
    rw [node_eq_ok] at hn
    split at h
    · simp [pure, Except.pure] at h
    · simp [pure, Except.pure] at h
    · simp [pure, Except.pure] at h
    · obtain ⟨r, -, h⟩ := bind_eq_ok h
      exact eq_of_content_nothing h
    · rename_i hk
      by_cases hid : id = root
      · have hroot : t.rootNode = n := by
          rw [hid, get?, root, Array.getElem?_eq_getElem t.size_pos] at hn
          exact Option.some.inj hn
        simp only [hid, bne_self_eq_false, Bool.false_eq_true, if_false] at h
        rw [rootValue?, hroot]
        cases hc : n.children[0]? with
        | none => exact ⟨hk, rfl⟩
        | some c =>
          simp only [hc] at h
          obtain ⟨h1, h2⟩ := eq_of_content_nothing h
          rw [rootValue?, hroot, hc] at h2
          cases h2
      · simp [hid, bind, Except.bind, throw, throwThe, MonadExceptOf.throw] at h

/-- Every value that there is room for has distinct keys and nests no deeper than there is room. -/
def Fits (t : Tree) (maxDepth room : Nat) : Prop :=
  ∀ (id : NodeId) (v : Value), t.valueAt maxDepth room id = .ok v → v.Distinct ∧ v.height ≤ room

theorem Fits.items {room : Nat} (ih : Fits t maxDepth room) {ids : List NodeId} {vs : List Value}
    (h : List.Forall₂ (fun id v => t.valueAt maxDepth room id = .ok v) ids vs) :
    Value.DistinctItems vs ∧ Value.itemsHeight vs ≤ room := by
  induction h with
  | nil => exact ⟨trivial, Nat.zero_le _⟩
  | cons hv _ ihs =>
    obtain ⟨h1, h2⟩ := ih _ _ hv
    rw [Value.itemsHeight]
    exact ⟨⟨h1, ihs.1⟩, by omega⟩

theorem Fits.entries {room : Nat} (ih : Fits t maxDepth room) :
    ∀ {pairs : List (NodeId × Option NodeId)} {into entries : List (String × Value)},
      t.putAll maxDepth room into pairs = .ok entries → (into.map (·.1)).Nodup →
      Value.DistinctEntries into → Value.entriesHeight into ≤ room →
      (entries.map (·.1)).Nodup ∧ Value.DistinctEntries entries ∧ Value.entriesHeight entries ≤ room
  | [], into, entries, h, h1, h2, h3 => by
    obtain rfl : into = entries := by simpa [putAll, pure, Except.pure] using h
    exact ⟨h1, h2, h3⟩
  | (k, v) :: pairs, into, entries, h, h1, h2, h3 => by
    rw [putAll, List.foldlM_cons] at h
    obtain ⟨next, hnext, hrest⟩ := bind_eq_ok h
    obtain ⟨key, value, rfl, hfits⟩ : ∃ key value, next = Value.put key value into ∧
        value.Distinct ∧ value.height ≤ room := by
      cases v with
      | none =>
        obtain ⟨value, hvalue, hn⟩ := bind_eq_ok hnext
        obtain ⟨key, -, hn⟩ := bind_eq_ok hn
        obtain rfl : Value.text "" = value := by simpa [pure, Except.pure] using hvalue
        exact ⟨key, .text "", by simpa [pure, Except.pure] using hn.symm, trivial, Nat.zero_le _⟩
      | some v =>
        obtain ⟨value, hvalue, hn⟩ := bind_eq_ok hnext
        obtain ⟨key, -, hn⟩ := bind_eq_ok hn
        exact ⟨key, value, by simpa [pure, Except.pure] using hn.symm, ih v value hvalue⟩
    exact Fits.entries ih hrest (Value.nodup_put h1) (Value.distinctEntries_put hfits.1 h2)
      (Value.entriesHeight_put hfits.2 h3)

theorem fits (h : ¬(t.rootNode.kind = .document ∧ t.rootValue? = none)) (maxDepth : Nat) :
    ∀ room : Nat, Fits t maxDepth room := by
  intro room
  induction room with
  | zero =>
    intro id v hv
    rw [valueAt.eq_def] at hv
    obtain ⟨c, hc, hv⟩ := bind_eq_ok hv
    cases c with
    | text s =>
      obtain rfl : Value.text s = v := by simpa [pure, Except.pure] using hv
      exact ⟨trivial, Nat.zero_le _⟩
    | collection n => simp [throw, throwThe, MonadExceptOf.throw] at hv
    | nothing => exact absurd (eq_of_content_nothing hc) h
  | succ room ih =>
    intro id v hv
    rw [valueAt.eq_def] at hv
    obtain ⟨c, hc, hv⟩ := bind_eq_ok hv
    cases c with
    | text s =>
      obtain rfl : Value.text s = v := by simpa [pure, Except.pure] using hv
      exact ⟨trivial, Nat.zero_le _⟩
    | collection n =>
      simp only at hv
      split at hv
      · obtain ⟨vs, hvs, hv⟩ := bind_eq_ok hv
        obtain rfl : Value.list vs = v := by simpa [pure, Except.pure] using hv
        obtain ⟨h1, h2⟩ := Fits.items ih (forall₂_of_mapM hvs)
        rw [Value.Distinct, Value.height]
        exact ⟨h1, by omega⟩
      · obtain ⟨entries, hes, hv⟩ := bind_eq_ok hv
        obtain rfl : Value.map entries = v := by simpa [pure, Except.pure] using hv
        obtain ⟨h1, h2, h3⟩ := Fits.entries ih hes List.nodup_nil trivial (Nat.zero_le _)
        rw [Value.Distinct, Value.height]
        exact ⟨⟨h1, h2⟩, by omega⟩
    | nothing => exact absurd (eq_of_content_nothing hc) h

/-- The value of a document has distinct keys, and it nests no deeper than it may, but for the empty
map of a document without a value. -/
theorem value_ok {v : Value} (h : t.value maxDepth = .ok v) :
    v.Distinct ∧ (v.height ≤ maxDepth ∨ v = .map []) := by
  by_cases hroot : t.rootNode.kind = .document ∧ t.rootValue? = none
  · have hn : t.node root = .ok t.rootNode := by
      rw [node_eq_ok, get?, root, Array.getElem?_eq_getElem t.size_pos]
      rfl
    have hc : t.content contentSteps root = .ok .nothing := by
      have hv := hroot.2
      rw [rootValue?] at hv
      simp [contentSteps, content, hn, hroot.1, hv, bind, Except.bind, pure, Except.pure]
    rw [value, valueOf, valueAt.eq_def] at h
    obtain rfl : Value.map [] = v := by simpa [hc, bind, Except.bind, pure, Except.pure] using h
    exact ⟨⟨List.nodup_nil, trivial⟩, .inr rfl⟩
  · obtain ⟨h1, h2⟩ := fits hroot maxDepth maxDepth root v h
    exact ⟨h1, .inl h2⟩

end Tree

/-! ### The shape of plain data -/

namespace Shape

mutual

/-- Plain data as strings between double quotes. -/
def ofValue : Value → Shape
  | .text s => .scalar { text := s, style := .double }
  | .list items => .sequence {} (ofItems items)
  | .map entries => .mapping {} (ofEntries entries)

def ofItems : List Value → List Shape
  | [] => []
  | v :: rest => ofValue v :: ofItems rest

def ofEntries : List (String × Value) → List (Key × Shape)
  | [] => []
  | (k, v) :: rest => (.scalar { text := k, style := .double }, ofValue v) :: ofEntries rest

end

mutual

theorem height_ofValue : ∀ v : Value, (ofValue v).height = v.height
  | .text _ => rfl
  | .list items => by rw [ofValue, height, Value.height, heightItems_ofItems items]
  | .map entries => by rw [ofValue, height, Value.height, heightEntries_ofEntries entries]

theorem heightItems_ofItems : ∀ items : List Value, heightItems (ofItems items) = Value.itemsHeight items
  | [] => rfl
  | v :: rest => by
    rw [ofItems, heightItems, Value.itemsHeight, height_ofValue v, heightItems_ofItems rest]

theorem heightEntries_ofEntries : ∀ entries : List (String × Value),
    heightEntries (ofEntries entries) = Value.entriesHeight entries
  | [] => rfl
  | (k, v) :: rest => by
    rw [ofEntries, heightEntries, Value.entriesHeight, height_ofValue v,
      heightEntries_ofEntries rest]

end

mutual

theorem direct_ofValue : ∀ v : Value, (ofValue v).Direct
  | .text _ => trivial
  | .list items => directItems_ofItems items
  | .map entries => directEntries_ofEntries entries

theorem directItems_ofItems : ∀ items : List Value, DirectItems (ofItems items)
  | [] => trivial
  | v :: rest => ⟨direct_ofValue v, directItems_ofItems rest⟩

theorem directEntries_ofEntries : ∀ entries : List (String × Value), DirectEntries (ofEntries entries)
  | [] => trivial
  | (_, v) :: rest => ⟨direct_ofValue v, directEntries_ofEntries rest⟩

end

mutual

/-- The shape of plain data has this data as its value. -/
theorem value_ofValue : ∀ v : Value, v.Distinct → (ofValue v).value = v
  | .text _, _ => rfl
  | .list items, h => by
    rw [ofValue, value, valueItems_ofItems items h]
  | .map entries, h => by
    have hnew : ∀ k ∈ entries.map (·.1), k ∉ ([] : List (String × Value)).map (·.1) := by simp
    rw [ofValue, value, valueEntries_ofEntries entries [] h.1 hnew h.2]
    rfl

theorem valueItems_ofItems : ∀ items : List Value, Value.DistinctItems items →
    valueItems (ofItems items) = items
  | [], _ => rfl
  | v :: rest, h => by
    rw [ofItems, valueItems, value_ofValue v h.1, valueItems_ofItems rest h.2]

theorem valueEntries_ofEntries : ∀ (entries into : List (String × Value)),
    (entries.map (·.1)).Nodup → (∀ k ∈ entries.map (·.1), k ∉ into.map (·.1)) →
    Value.DistinctEntries entries → valueEntries into (ofEntries entries) = into ++ entries
  | [], into, _, _, _ => (List.append_nil into).symm
  | (k, v) :: rest, into, hn, hi, hd => by
    rw [List.map_cons, List.nodup_cons] at hn
    rw [List.map_cons, List.forall_mem_cons] at hi
    have hput : Value.put k v into = into ++ [(k, v)] := Value.put_of_not_mem hi.1
    have hnew : ∀ key ∈ rest.map (·.1), key ∉ (into ++ [(k, v)]).map (·.1) := by
      intro key hkey
      rw [List.map_append, List.mem_append, not_or]
      refine ⟨hi.2 key hkey, fun hm => hn.1 ?_⟩
      obtain rfl : key = k := by simpa using hm
      exact hkey
    rw [ofEntries, valueEntries, Key.text, value_ofValue v hd.1, hput,
      valueEntries_ofEntries rest _ hn.2 hnew hd.2, List.append_assoc]
    rfl

end

end Shape

end TaggedYaml
