import TaggedYaml.Proofs.Pattern.Strip

/-!
# Erase — which quotes a line loses

Two characters of a line are erased, or none: the first quote before an exclamation mark and the last
quote of all, if it stands behind that one (`withoutPair`).  Whether they are the same kind of quote does
not matter, nor does what stands between them.  `strip_lines` says this of the lines of any text.
-/

namespace TaggedYaml

/-! ### Places of a line -/

/-- A quote stands at a place. -/
def quoteAt (cs : List Char) (j : Nat) : Bool := cs[j]?.any isQuote

/-- A quote stands at a place, directly before an exclamation mark. -/
def opensAt (cs : List Char) (i : Nat) : Bool := quoteAt cs i && cs[i + 1]? == some '!'

/-- The first quote that stands directly before an exclamation mark. -/
def firstOpening? (line : List Char) : Option Nat := (List.range line.length).find? (opensAt line)

/-- The last quote. -/
def lastQuoteAt? (line : List Char) : Option Nat :=
  (List.range line.length).reverse.find? (quoteAt line)

/-- A line without the first quote before an exclamation mark and without its last quote, if that one
stands behind. -/
def withoutPair (line : List Char) : List Char :=
  match firstOpening? line, lastQuoteAt? line with
  | some i, some j => if i < j then (line.eraseIdx j).eraseIdx i else line
  | _, _ => line

variable {c : Char} {rest line : List Char}

theorem firstOpening?_cons (c : Char) (rest : List Char) : firstOpening? (c :: rest) =
    if isQuote c && rest.head? == some '!' then some 0 else (firstOpening? rest).map (· + 1) := by
  have hzero : opensAt (c :: rest) 0 = (isQuote c && rest.head? == some '!') := by
    rw [List.head?_eq_getElem?]
    rfl
  rw [firstOpening?, List.length_cons, List.range_succ_eq_map, List.find?_cons, hzero, List.find?_map]
  cases isQuote c && rest.head? == some '!' with
  | true => rfl
  | false => rfl

theorem lastQuoteAt?_cons (c : Char) (rest : List Char) : lastQuoteAt? (c :: rest) =
    ((lastQuoteAt? rest).map (· + 1)).or (if isQuote c then some 0 else none) := by
  have hzero : [0].find? (quoteAt (c :: rest)) = if isQuote c then some 0 else none :=
    List.find?_singleton ..
  rw [lastQuoteAt?, List.length_cons, List.range_succ_eq_map, List.reverse_cons, List.find?_append,
    hzero, ← List.map_reverse, List.find?_map]
  rfl

theorem any_of_firstOpening? : ∀ {line : List Char} {i : Nat}, firstOpening? line = some i →
    line.any isQuote = true
  | [], _, h => by cases h
  | c :: rest, _, h => by
    rw [firstOpening?_cons] at h
    rw [List.any_cons, Bool.or_eq_true]
    split at h
    · rename_i hopens
      exact .inl (Bool.and_eq_true _ _ ▸ hopens).1
    · obtain ⟨i', hi, -⟩ := Option.map_eq_some_iff.mp h
      exact .inr (any_of_firstOpening? hi)

theorem lastQuoteAt?_eq_none : ∀ {line : List Char},
    lastQuoteAt? line = none ↔ line.any isQuote = false
  | [] => by simp [lastQuoteAt?]
  | c :: rest => by
    rw [lastQuoteAt?_cons, Option.or_eq_none_iff, Option.map_eq_none_iff, lastQuoteAt?_eq_none,
      List.any_cons, Bool.or_eq_false_iff, and_comm]
    cases isQuote c <;> simp

theorem any_of_lastQuoteAt? {j : Nat} (h : lastQuoteAt? line = some j) : line.any isQuote = true := by
  rw [← Bool.not_eq_false, ← lastQuoteAt?_eq_none, h]
  exact Option.some_ne_none j

/-- The last quote of a line is erased at its place. -/
theorem dropLastQuote_eq : ∀ {line : List Char} {j : Nat}, lastQuoteAt? line = some j →
    dropLastQuote line = line.eraseIdx j
  | [], _, h => by cases h
  | c :: rest, j, h => by
    rw [lastQuoteAt?_cons] at h
    rw [dropLastQuote]
    cases hr : lastQuoteAt? rest with
    | some j' =>
      rw [hr] at h
      obtain rfl : j' + 1 = j := Option.some.inj h
      rw [any_of_lastQuoteAt? hr, dropLastQuote_eq hr, Bool.not_true, Bool.and_false]
      rfl
    | none =>
      rw [hr] at h
      rw [lastQuoteAt?_eq_none.mp hr, Bool.not_false, Bool.and_true]
      cases hq : isQuote c with
      | true =>
        rw [hq] at h
        obtain rfl : 0 = j := Option.some.inj h
        rfl
      | false =>
        rw [hq] at h
        cases h

/-! ### Lines -/

/-- The exclamation mark behind a quote is no quote itself. -/
theorem any_tail_of_head? (h : rest.head? = some '!') : rest.tail.any isQuote = rest.any isQuote := by
  obtain ⟨s, rfl⟩ := List.head?_eq_some_iff.mp h
  rfl

/-- A line is freed of the quotes at the two places. -/
theorem unquoteLine_eq : ∀ line : List Char, unquoteLine line = withoutPair line
  | [] => rfl
  | c :: rest => by
    rw [unquoteLine, withoutPair, firstOpening?_cons, lastQuoteAt?_cons, unquoteLine_eq rest]
    cases hopens : isQuote c && rest.head? == some '!' with
    | true =>
      rw [Bool.and_eq_true, beq_iff_eq] at hopens
      rw [hopens.1, any_tail_of_head? hopens.2]
      cases hlast : lastQuoteAt? rest with
      | some j =>
        rw [any_of_lastQuoteAt? hlast, dropLastQuote_eq hlast]
        rfl
      | none =>
        -- the quote that opens is the last one of the line, so it stays
        rw [lastQuoteAt?_eq_none.mp hlast, withoutPair, hlast]
        cases firstOpening? rest <;> rfl
    | false =>
      rw [Bool.false_and, withoutPair]
      cases hfirst : firstOpening? rest with
      | none => rfl
      | some i =>
        cases hlast : lastQuoteAt? rest with
        | none =>
          rw [lastQuoteAt?_eq_none, any_of_firstOpening? hfirst] at hlast
          cases hlast
        | some j =>
          simp only [Bool.false_eq_true, if_false, Option.map_some, Option.some_or, Nat.add_lt_add_iff_right]
          split
          · rfl
          · rfl

theorem mem_of_mem_withoutPair (h : c ∈ withoutPair line) : c ∈ line := by
  unfold withoutPair at h
  split at h
  · split at h
    · exact List.mem_of_mem_eraseIdx (List.mem_of_mem_eraseIdx h)
    · exact h
  · exact h

theorem splitLines_eq_splitOn : ∀ s : List Char, splitLines s = s.splitOn '\n'
  | [] => (List.splitOn_nil '\n').symm
  | c :: s => by
    rw [splitLines, splitLines_eq_splitOn s, List.splitOn_cons_eq_if_modifyHead]
    split
    · rfl
    · cases hs : s.splitOn '\n' with
      | nil => exact absurd hs (List.splitOn_ne_nil '\n' s)
      | cons line lines => rfl

theorem intercalate_lines (line : List Char) : ∀ lines : List (List Char),
    ['\n'].intercalate (line :: lines) = line ++ lines.flatMap ('\n' :: ·)
  | [] => by simp
  | next :: lines => by
    rw [List.intercalate_cons_cons, intercalate_lines next lines, List.flatMap_cons]
    simp

/-- A text is put together from its lines again. -/
theorem unquote_eq_intercalate (s : List Char) :
    unquote s = ['\n'].intercalate ((s.splitOn '\n').map withoutPair) := by
  rw [unquote, splitLines_eq_splitOn]
  cases hs : s.splitOn '\n' with
  | nil => exact absurd hs (List.splitOn_ne_nil '\n' s)
  | cons line lines =>
    simp only [unquoteLine_eq, List.map_cons, intercalate_lines, List.flatMap_map]

/-- The usual rule works on the lines of a text, which stay lines: from each it erases the first quote
that stands directly before an exclamation mark and the last quote of the line, if that one stands
behind, and it leaves all others as they are. -/
theorem Settings.strip_lines (text : String) :
    (default.strip text).toList.splitOn '\n' = (text.toList.splitOn '\n').map withoutPair := by
  rw [strip_default, String.toList_ofList, unquote_eq_intercalate, List.splitOn_intercalate]
  · intro line hline hmem
    obtain ⟨line', hline', rfl⟩ := List.mem_map.mp hline
    rw [← splitLines_eq_splitOn] at hline'
    exact (mem_splitLines hline' _ (mem_of_mem_withoutPair hmem)).2 rfl
  · rw [ne_eq, List.map_eq_nil_iff]
    exact List.splitOn_ne_nil '\n' text.toList

/-- The quotes of a pair may differ, and a quote that does not stand before an exclamation mark counts
only if it is the last one. -/
example : withoutPair "it's '!a' or \"!b\"".toList = "it's !a' or \"!b".toList := by decide

end TaggedYaml
