import Mathlib.Data.List.Nodup
import TaggedYaml.Proofs.Json.Records
import TaggedYaml.Proofs.Shape.Pairs

/-!
# Unordered — records from data that has been a document

On the way through a document, entries with one key are put together, and then the maps are sorted
(`Value.tidy`).  A record whose fields can be read in any order is the same on both sides, if no field
comes twice (`Record.ofValue_tidy`): what is put together are entries that nobody asks for.
-/

namespace TaggedYaml

/-! ### Data that has been a document -/

namespace Value

variable {entries : List (String × Value)}

/-- Plain data as it comes out of a document: with distinct keys, and these in order. -/
def tidy (v : Value) : Value := (Shape.ofValue v).value.sortKeys

theorem put_map (g : Value → Value) (key : String) (value : Value) (entries : List (String × Value)) :
    put key (g value) (entries.map fun e => (e.1, g e.2)) =
      (put key value entries).map fun e => (e.1, g e.2) := by
  induction entries with
  | nil => rfl
  | cons e rest ih =>
    by_cases hk : e.1 = key
    · simp [put, hk]
    · simp [put, hk, ih]

theorem ofPairs_map (g : Value → Value) (entries : List (String × Value)) :
    ofPairs (entries.map fun e => (e.1, g e.2)) = (ofPairs entries).map fun e => (e.1, g e.2) := by
  induction entries using List.reverseRecOn with
  | nil => rfl
  | append_singleton entries e ih =>
    rw [List.map_append, List.map_singleton, ofPairs_concat, ofPairs_concat, ih, put_map]

theorem valueEntries_ofEntries : ∀ (entries into : List (String × Value)),
    Shape.valueEntries into (Shape.ofEntries entries) =
      (entries.map fun e => (e.1, (Shape.ofValue e.2).value)).foldl (fun m e => put e.1 e.2 m) into
  | [], _ => rfl
  | (k, v) :: rest, into => by
    rw [Shape.ofEntries, Shape.valueEntries, valueEntries_ofEntries rest]
    rfl

theorem valueItems_ofItems (items : List Value) :
    Shape.valueItems (Shape.ofItems items) = items.map fun v => (Shape.ofValue v).value := by
  induction items with
  | nil => rfl
  | cons v rest ih => rw [Shape.ofItems, Shape.valueItems, ih, List.map_cons]

theorem sortItems_eq (items : List Value) : sortItems items = items.map sortKeys := by
  induction items with
  | nil => rfl
  | cons v rest ih => rw [sortItems, ih, List.map_cons]

theorem sortEntries_eq (entries : List (String × Value)) :
    sortEntries entries = entries.map fun e => (e.1, e.2.sortKeys) := by
  induction entries with
  | nil => rfl
  | cons e rest ih => rw [sortEntries, ih, List.map_cons]

theorem tidy_text (s : String) : tidy (.text s) = .text s := rfl

theorem tidy_list (items : List Value) : tidy (.list items) = .list (items.map tidy) := by
  rw [tidy, Shape.ofValue, Shape.value, valueItems_ofItems, sortKeys, sortItems_eq, List.map_map]
  rfl

theorem tidy_map (entries : List (String × Value)) : ∃ m, tidy (.map entries) = .map m ∧
    m.Perm (ofPairs (entries.map fun e => (e.1, e.2.tidy))) := by
  refine ⟨_, rfl, (List.mergeSort_perm _ _).trans ?_⟩
  rw [valueEntries_ofEntries, sortEntries_eq]
  refine .of_eq (Eq.trans (ofPairs_map sortKeys _).symm ?_)
  rw [List.map_map]
  rfl

theorem keys_filter (p : String → Bool) (entries : List (String × Value)) :
    (entries.filter fun e => p e.1).map (·.1) = (entries.map (·.1)).filter p :=
  List.filter_map.symm

/-- Of entries whose keys are distinct none is lost. -/
theorem filter_ofPairs {p : String → Bool} (h : ((entries.map (·.1)).filter p).Nodup) :
    ((ofPairs entries).filter fun e => p e.1).Perm (entries.filter fun e => p e.1) := by
  have hnodup : (ofPairs entries).Nodup :=
    List.Nodup.of_map _ (nodup_ofPairs entries)
  have hnodup' : (entries.filter fun e => p e.1).Nodup := by
    rw [← keys_filter] at h
    exact List.Nodup.of_map _ h
  rw [List.perm_ext_iff_of_nodup (hnodup.filter _) hnodup']
  rintro ⟨key, value⟩
  rw [List.mem_filter, List.mem_filter, mem_ofPairs]
  refine and_congr_left fun hp => ⟨?_, fun hmem => ?_⟩
  · rintro ⟨before, behind, rfl, -⟩
    simp
  · obtain ⟨before, behind, rfl⟩ := List.append_of_mem hmem
    refine ⟨before, behind, rfl, fun hlater => ?_⟩
    rw [List.map_append, List.map_cons, List.filter_append, List.filter_cons_of_pos hp] at h
    exact (List.nodup_cons.mp (List.nodup_append.mp h).2.1).1 (List.mem_filter.mpr ⟨hlater, hp⟩)

end Value

namespace Json.Record

variable {σ : Type} {d : Record σ} {entries entries' : List (String × Value)}

/-- The value of a field is the same in data that has been a document. -/
def Settled (d : Record σ) (key : String) (v : Value) : Prop :=
  ∀ f, d.fields.find? (·.name == key) = some f →
    ∀ x, (f.ofValue x v.tidy).toOption = (f.ofValue x v).toOption

/-- Entries that are no fields are passed. -/
theorem ofEntries_filter : ∀ (entries : List (String × Value)) (x : σ),
    d.ofEntries x (entries.filter fun e => d.knows e.1) = d.ofEntries x entries
  | [], _ => rfl
  | (k, v) :: rest, x => by
    cases hfind : d.fields.find? (·.name == k) with
    | none =>
      have hk : d.knows k = false := by rw [knows, hfind]; rfl
      rw [List.filter_cons_of_neg (by simp [hk]), ofEntries_filter rest, ofEntries]
      simp only [hfind]
    | some f =>
      have hk : d.knows k = true := by rw [knows, hfind]; rfl
      have hfilter : ((k, v) :: rest).filter (fun e => d.knows e.1) =
          (k, v) :: rest.filter fun e => d.knows e.1 := List.filter_cons_of_pos hk
      rw [hfilter, ofEntries, ofEntries]
      simp only [hfind, ofEntries_filter rest]

/-- Two entries that are fields can change places. -/
theorem ofEntries_swap (hapart : d.Apart) {a b : String × Value} (hne : a.1 ≠ b.1) (x : σ) :
    (d.ofEntries x (a :: b :: entries)).toOption = (d.ofEntries x (b :: a :: entries)).toOption := by
  obtain ⟨k, v⟩ := a
  obtain ⟨l, w⟩ := b
  simp only [ofEntries]
  cases hk : d.fields.find? (·.name == k) with
  | none => cases hl : d.fields.find? (·.name == l) <;> rfl
  | some f =>
    cases hl : d.fields.find? (·.name == l) with
    | none => rfl
    | some g =>
      obtain ⟨hf, hfk⟩ := field_of_find hk
      obtain ⟨hg, hgl⟩ := field_of_find hl
      have h := (hapart.fields hf hg (by rw [hfk, hgl]; exact hne)).swap x v w
      show (f.ofValue x v >>= fun x => g.ofValue x w >>= fun x => d.ofEntries x entries).toOption =
        (g.ofValue x w >>= fun x => f.ofValue x v >>= fun x => d.ofEntries x entries).toOption
      rw [← bind_assoc, ← bind_assoc, toOption_bind _ fun x => d.ofEntries x entries,
        toOption_bind _ fun x => d.ofEntries x entries, h]

/-- Entries with distinct keys can be read in any order. -/
theorem ofEntries_perm (hapart : d.Apart) (h : entries.Perm entries') :
    (entries.map (·.1)).Nodup → ∀ x,
      (d.ofEntries x entries).toOption = (d.ofEntries x entries').toOption := by
  induction h with
  | nil => exact fun _ _ => rfl
  | @cons e entries entries' _ ih =>
    intro hnodup x
    obtain ⟨k, v⟩ := e
    rw [List.map_cons, List.nodup_cons] at hnodup
    simp only [ofEntries]
    cases d.fields.find? (·.name == k) with
    | none => exact ih hnodup.2 x
    | some f =>
      simp only [toOption_bind]
      exact congrArg _ (funext fun x => ih hnodup.2 x)
  | swap a b entries =>
    intro hnodup x
    have hne : b.1 ≠ a.1 := fun heq => (List.nodup_cons.mp hnodup).1 (by simp [heq])
    exact ofEntries_swap hapart hne x
  | trans h _ ih ih' =>
    intro hnodup x
    exact (ih hnodup x).trans (ih' ((h.map _).nodup_iff.mp hnodup) x)

theorem ofEntries_settled : ∀ {entries : List (String × Value)}, (∀ e ∈ entries, d.Settled e.1 e.2) →
    ∀ x, (d.ofEntries x (entries.map fun e => (e.1, e.2.tidy))).toOption =
      (d.ofEntries x entries).toOption
  | [], _, _ => rfl
  | (k, v) :: rest, h, x => by
    rw [List.forall_mem_cons] at h
    rw [List.map_cons, ofEntries, ofEntries]
    cases hfind : d.fields.find? (·.name == k) with
    | none => exact ofEntries_settled h.2 x
    | some f =>
      simp only [toOption_bind, h.1 f hfind x]
      exact congrArg _ (funext fun x => ofEntries_settled h.2 x)

/-- A record is the same in data that has been a document, if no field of it comes twice. -/
theorem ofValue_tidy (hapart : d.Apart) (honce : d.Once entries)
    (hsettled : ∀ e ∈ entries, d.Settled e.1 e.2) (blank : σ) :
    (d.ofValue blank (Value.tidy (.map entries))).toOption =
      (d.ofValue blank (.map entries)).toOption := by
  obtain ⟨m, hm, hperm⟩ := Value.tidy_map entries
  have hkeys : (entries.map fun e => (e.1, e.2.tidy)).map (·.1) = entries.map (·.1) := by
    rw [List.map_map]
    rfl
  have hknown : ((m.filter fun e => d.knows e.1)).Perm
      ((entries.map fun e => (e.1, e.2.tidy)).filter fun e => d.knows e.1) :=
    (hperm.filter _).trans (Value.filter_ofPairs (by rw [hkeys]; exact honce))
  have hnodup : ((m.filter fun e => d.knows e.1).map (·.1)).Nodup := by
    rw [(hknown.map _).nodup_iff, Value.keys_filter, hkeys]
    exact honce
  have hentries : (d.ofEntries blank m).toOption = (d.ofEntries blank entries).toOption := by
    rw [← ofEntries_filter m, ofEntries_perm hapart hknown hnodup, ofEntries_filter,
      ofEntries_settled hsettled]
  rw [hm, ofValue, ofValue]
  simp only [toOption_bind, hentries]

end Json.Record

end TaggedYaml
