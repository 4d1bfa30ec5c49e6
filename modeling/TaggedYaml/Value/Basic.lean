/-!
# Value — a document as plain data

Texts, lists and maps.  The entries of a map keep the order in which their keys first came, and its
keys are distinct.
-/

namespace TaggedYaml

/-- Plain data. -/
inductive Value where
  | text (s : String)
  | list (items : List Value)
  | map (entries : List (String × Value))
deriving Repr

namespace Value

/-- The text, if it is one. -/
def text? : Value → Option String
  | text s => some s
  | _ => none

/-- The items, if it is a list. -/
def list? : Value → Option (List Value)
  | list items => some items
  | _ => none

/-- The entries, if it is a map. -/
def map? : Value → Option (List (String × Value))
  | map entries => some entries
  | _ => none

/-- The value of a key, if it is a map with this key. -/
def get? (v : Value) (key : String) : Option Value := v.map?.bind (·.lookup key)

/-- Puts an entry into a map: in the place of the one with its key, or else at the end. -/
def put (key : String) (value : Value) : List (String × Value) → List (String × Value)
  | [] => [(key, value)]
  | (k, v) :: rest => if k == key then (k, value) :: rest else (k, v) :: put key value rest

mutual

/-- Equality without regard to the order of entries. -/
def same : Value → Value → Bool
  | text a, text b => a == b
  | list as, list bs => sameItems as bs
  | map as, map bs => as.length == bs.length && sameEntries as bs
  | _, _ => false

def sameItems : List Value → List Value → Bool
  | [], [] => true
  | a :: as, b :: bs => same a b && sameItems as bs
  | _, _ => false

/-- All entries are entries of the other list. -/
def sameEntries : List (String × Value) → List (String × Value) → Bool
  | [], _ => true
  | (k, a) :: as, bs =>
    (match bs.lookup k with
      | some b => same a b
      | none => false) && sameEntries as bs

end

mutual

/-- The entries of all maps in the order of their keys. -/
def sortKeys : Value → Value
  | text s => text s
  | list items => list (sortItems items)
  | map entries => map ((sortEntries entries).mergeSort fun a b => a.1 ≤ b.1)

def sortItems : List Value → List Value
  | [] => []
  | v :: rest => sortKeys v :: sortItems rest

def sortEntries : List (String × Value) → List (String × Value)
  | [] => []
  | (k, v) :: rest => (k, sortKeys v) :: sortEntries rest

end

/-! ### Entries -/

theorem lookup_put_self (key : String) (value : Value) (entries : List (String × Value)) :
    (put key value entries).lookup key = some value := by
  induction entries with
  | nil => simp [put]
  | cons e rest ih =>
    obtain ⟨k, v⟩ := e
    by_cases h : k = key
    · simp [put, h]
    · have hk : (key == k) = false := by simpa using Ne.symm h
      simp [put, h, List.lookup_cons, hk, ih]

theorem lookup_put_of_ne {key other : String} (h : other ≠ key) (value : Value)
    (entries : List (String × Value)) :
    (put key value entries).lookup other = entries.lookup other := by
  have ho : (other == key) = false := by simpa using h
  induction entries with
  | nil => simp [put, List.lookup_cons, ho]
  | cons e rest ih =>
    obtain ⟨k, v⟩ := e
    by_cases hk : k = key
    · subst hk
      simp [put, List.lookup_cons, ho]
    · simp [put, hk, List.lookup_cons, ih]

theorem keys_put_of_mem {key : String} {entries : List (String × Value)}
    (h : key ∈ entries.map (·.1)) (value : Value) :
    (put key value entries).map (·.1) = entries.map (·.1) := by
  induction entries with
  | nil => simp at h
  | cons e rest ih =>
    obtain ⟨k, v⟩ := e
    by_cases hk : k = key
    · simp [put, hk]
    · have : key ∈ rest.map (·.1) := by
        simpa [Ne.symm hk] using h
      simp [put, hk, ih this]

theorem keys_put_of_not_mem {key : String} {entries : List (String × Value)}
    (h : key ∉ entries.map (·.1)) (value : Value) :
    (put key value entries).map (·.1) = entries.map (·.1) ++ [key] := by
  induction entries with
  | nil => simp [put]
  | cons e rest ih =>
    obtain ⟨k, v⟩ := e
    have hk : k ≠ key := by rintro rfl; simp at h
    have : key ∉ rest.map (·.1) := by
      intro hm
      exact h (by simp only [List.map_cons, List.mem_cons]; exact Or.inr hm)
    simp [put, hk, ih this]

end Value

end TaggedYaml
