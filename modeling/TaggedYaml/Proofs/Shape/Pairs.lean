import Mathlib.Data.List.Induction
import TaggedYaml.Proofs.Shape.OfValue

/-!
# Pairs — maps that are made of entries

Entries that are put into a map one after the other leave each key once, where it first comes
(`Value.keys_ofPairs`), with the value that comes last (`Value.mem_ofPairs`).
-/

namespace TaggedYaml

namespace Value

variable {key : String} {value : Value}

/-- The map that entries make, one put after the other. -/
def ofPairs (entries : List (String × Value)) : List (String × Value) :=
  entries.foldl (fun m e => put e.1 e.2 m) []

/-- The last of the entries with a key. -/
def IsLast (entries : List (String × Value)) (key : String) (value : Value) : Prop :=
  ∃ before behind, entries = before ++ (key, value) :: behind ∧ key ∉ behind.map (·.1)

theorem ofPairs_concat (entries : List (String × Value)) (e : String × Value) :
    ofPairs (entries ++ [e]) = put e.1 e.2 (ofPairs entries) := by
  rw [ofPairs, List.foldl_append]
  rfl

/-- Keys stand where they first come. -/
theorem keys_ofPairs (entries : List (String × Value)) :
    (ofPairs entries).map (·.1) = (entries.map (·.1)).eraseDups := by
  induction entries using List.reverseRecOn with
  | nil => rfl
  | append_singleton entries e ih =>
    rw [ofPairs_concat, List.map_append, List.eraseDups_append]
    by_cases hk : e.1 ∈ entries.map (·.1)
    · have hmem : e.1 ∈ (ofPairs entries).map (·.1) := by
        rw [ih]
        exact List.mem_eraseDups.mpr hk
      have hgone : ([e].map (·.1)).removeAll (entries.map (·.1)) = [] := by
        simp [List.removeAll, hk]
      rw [keys_put_of_mem hmem, ih, hgone, List.eraseDups_nil, List.append_nil]
    · have hmem : e.1 ∉ (ofPairs entries).map (·.1) := by
        rw [ih]
        exact fun h => hk (List.mem_eraseDups.mp h)
      have hnew : ([e].map (·.1)).removeAll (entries.map (·.1)) = [e.1] := by
        simp [List.removeAll, hk]
      rw [keys_put_of_not_mem hmem, ih, hnew]
      rfl

theorem nodup_ofPairs (entries : List (String × Value)) : ((ofPairs entries).map (·.1)).Nodup := by
  induction entries using List.reverseRecOn with
  | nil => exact List.nodup_nil
  | append_singleton entries e ih =>
    rw [ofPairs_concat]
    exact nodup_put ih

/-- The value of a key is the last one. -/
theorem lookup_ofPairs (entries : List (String × Value)) (key : String) :
    (ofPairs entries).lookup key = entries.reverse.lookup key := by
  induction entries using List.reverseRecOn with
  | nil => rfl
  | append_singleton entries e ih =>
    obtain ⟨k, v⟩ := e
    rw [ofPairs_concat, List.reverse_append]
    by_cases hk : key = k
    · subst hk
      rw [lookup_put_self]
      exact List.lookup_cons_self.symm
    · rw [lookup_put_of_ne hk, ih]
      have hne : (key == k) = false := by simpa using hk
      simp [List.lookup_cons, hne]

theorem lookup_eq_some_of_nodup : ∀ {m : List (String × Value)}, (m.map (·.1)).Nodup →
    (m.lookup key = some value ↔ (key, value) ∈ m)
  | [], _ => by simp
  | (k, v) :: m, h => by
    rw [List.map_cons, List.nodup_cons] at h
    rw [List.mem_cons, Prod.mk.injEq]
    by_cases hk : key = k
    · subst hk
      have hnot : (key, value) ∉ m := fun hm => h.1 (List.mem_map_of_mem (f := (·.1)) hm)
      rw [List.lookup_cons_self]
      simp [hnot, eq_comm]
    · have hne : (key == k) = false := by simpa using hk
      simp only [List.lookup_cons, hne, hk, false_and, false_or]
      exact lookup_eq_some_of_nodup h.2

theorem lookup_reverse_eq_some {entries : List (String × Value)} :
    entries.reverse.lookup key = some value ↔ IsLast entries key value := by
  rw [List.lookup_eq_some_iff]
  constructor
  · rintro ⟨behind, before, heq, hbehind⟩
    refine ⟨before.reverse, behind.reverse, ?_, ?_⟩
    · rw [← List.reverse_reverse entries, heq]
      simp
    · intro hmem
      obtain ⟨e, he, rfl⟩ := List.mem_map.mp hmem
      exact absurd (hbehind e (List.mem_reverse.mp he)) (by simp)
  · rintro ⟨before, behind, rfl, hbehind⟩
    refine ⟨behind.reverse, before.reverse, by simp, fun e he => ?_⟩
    rw [bne_iff_ne]
    rintro rfl
    exact hbehind (List.mem_map_of_mem (List.mem_reverse.mp he))

/-- The entries of the map are the last ones of their keys. -/
theorem mem_ofPairs {entries : List (String × Value)} :
    (key, value) ∈ ofPairs entries ↔ IsLast entries key value := by
  rw [← lookup_eq_some_of_nodup (nodup_ofPairs entries), lookup_ofPairs, lookup_reverse_eq_some]

end Value

end TaggedYaml
