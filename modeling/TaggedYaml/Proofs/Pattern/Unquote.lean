import TaggedYaml.Proofs.Scan.Literal
import TaggedYaml.Settings.Basic

/-!
# Unquote — what the rule for quotes does to a text

The rule works on each line apart: it takes away the first quote that stands before an exclamation mark,
and the last quote of the line if it stands behind (`unquoteLine`).  All other characters stay, and so
do the lines.  Read from left to right, a text is left up to its next tag in quotes (`nextTag?`), which
loses its quotes, and what stands behind is a text again (`unquote_of_nextTag?`).
-/

namespace TaggedYaml

/-- Single and double quotes. -/
def isQuote (c : Char) : Bool := c == '\'' || c == '"'

/-! ### Lines -/

/-- A line without its last quote. -/
def dropLastQuote : List Char → List Char
  | [] => []
  | c :: rest => if isQuote c && !rest.any isQuote then rest else c :: dropLastQuote rest

/-- A line without the first quote before an exclamation mark and without the last quote behind it. -/
def unquoteLine : List Char → List Char
  | [] => []
  | c :: rest =>
    if isQuote c && rest.head? == some '!' && rest.tail.any isQuote then dropLastQuote rest
    else c :: unquoteLine rest

/-- A text by its lines, each without the quotes of a tag. -/
def unquote (text : List Char) : List Char :=
  match splitLines text with
  | [] => []
  | line :: lines => unquoteLine line ++ lines.flatMap fun line => '\n' :: unquoteLine line

theorem splitLines_cons {c : Char} {s line : List Char} {lines : List (List Char)} (hc : c ≠ '\n')
    (h : splitLines s = line :: lines) : splitLines (c :: s) = (c :: line) :: lines := by
  simp [splitLines, hc, h]

theorem unquote_nil : unquote [] = [] := rfl

theorem unquote_lineFeed (s : List Char) : unquote ('\n' :: s) = '\n' :: unquote s := by
  obtain ⟨line, lines, hs, -⟩ := splitLines_join s
  have hsplit : splitLines ('\n' :: s) = [] :: splitLines s := rfl
  rw [unquote, unquote, hsplit, hs]
  rfl

theorem unquoteLine_of_any : ∀ {line : List Char}, line.any isQuote = false → unquoteLine line = line
  | [], _ => rfl
  | c :: rest, h => by
    rw [List.any_cons, Bool.or_eq_false_iff] at h
    rw [unquoteLine, h.1, unquoteLine_of_any h.2]
    rfl

/-! ### The last quote of a line -/

/-- What stands before and behind the last quote of the line that a text begins with. -/
def lastQuote? : List Char → Option (List Char × List Char)
  | [] => none
  | c :: s =>
    if c = '\n' then none
    else
      match lastQuote? s with
      | some (content, rest) => some (c :: content, rest)
      | none => if isQuote c then some ([], s) else none

theorem lastQuote?_cons {c : Char} {s : List Char} (hc : c ≠ '\n') : lastQuote? (c :: s) =
    match lastQuote? s with
    | some (content, rest) => some (c :: content, rest)
    | none => if isQuote c then some ([], s) else none := by
  rw [lastQuote?, if_neg hc]

/-- A line has a last quote if it has any. -/
theorem lastQuote?_eq_none : ∀ {s line : List Char} {lines : List (List Char)},
    splitLines s = line :: lines → (lastQuote? s = none ↔ line.any isQuote = false)
  | [], line, lines, h => by
    obtain ⟨rfl, -⟩ := List.cons.inj h
    exact ⟨fun _ => rfl, fun _ => rfl⟩
  | c :: s, line, lines, h => by
    obtain ⟨first, others, hs, -⟩ := splitLines_join s
    by_cases hc : c = '\n'
    · subst hc
      obtain ⟨rfl, -⟩ := List.cons.inj h
      exact ⟨fun _ => rfl, fun _ => rfl⟩
    · rw [splitLines_cons hc hs] at h
      obtain ⟨rfl, -⟩ := List.cons.inj h
      have ih := lastQuote?_eq_none hs
      rw [lastQuote?_cons hc, List.any_cons, Bool.or_eq_false_iff]
      cases hl : lastQuote? s with
      | some z =>
        rw [hl] at ih
        simp only [reduceCtorEq, false_iff] at ih ⊢
        exact fun h => ih h.2
      | none =>
        rw [hl] at ih
        cases hq : isQuote c with
        | true => simp
        | false => simpa using ih

/-- Behind the last quote of a line stands the rest of it, which has no quotes, and the next lines. -/
theorem lastQuote?_eq_some : ∀ {s line content rest : List Char} {lines : List (List Char)},
    splitLines s = line :: lines → lastQuote? s = some (content, rest) →
    ∃ line', splitLines rest = line' :: lines ∧ line'.any isQuote = false ∧
      dropLastQuote line = content ++ line'
  | [], _, _, _, _, _, h => by cases h
  | c :: s, line, content, rest, lines, hs, h => by
    obtain ⟨first, others, hfirst, -⟩ := splitLines_join s
    by_cases hc : c = '\n'
    · subst hc
      cases h
    · rw [splitLines_cons hc hfirst] at hs
      obtain ⟨rfl, rfl⟩ := List.cons.inj hs
      rw [lastQuote?_cons hc] at h
      cases hl : lastQuote? s with
      | some z =>
        obtain ⟨content', rest'⟩ := z
        rw [hl] at h
        obtain ⟨rfl, rfl⟩ := Prod.mk.inj (Option.some.inj h)
        obtain ⟨line', hrest, hno, hdrop⟩ := lastQuote?_eq_some hfirst hl
        have hany : first.any isQuote = true := by
          rw [← Bool.not_eq_false, ← lastQuote?_eq_none hfirst, hl]
          exact nofun
        refine ⟨line', hrest, hno, ?_⟩
        rw [dropLastQuote, hany, hdrop]
        simp
      | none =>
        rw [hl] at h
        have hno := (lastQuote?_eq_none hfirst).mp hl
        cases hq : isQuote c with
        | false =>
          rw [hq] at h
          cases h
        | true =>
          rw [hq] at h
          obtain ⟨rfl, rfl⟩ := Prod.mk.inj (Option.some.inj h)
          refine ⟨first, hfirst, hno, ?_⟩
          rw [dropLastQuote, hq, hno]
          rfl

theorem lastQuote?_append : ∀ {s content rest : List Char}, lastQuote? s = some (content, rest) →
    ∃ q, s = content ++ q :: rest
  | [], _, _, h => by cases h
  | c :: s, content, rest, h => by
    by_cases hc : c = '\n'
    · subst hc
      cases h
    · rw [lastQuote?_cons hc] at h
      split at h
      · rename_i hl
        cases h
        obtain ⟨q, hq⟩ := lastQuote?_append hl
        exact ⟨q, by rw [hq]; rfl⟩
      · split at h
        · cases h
          exact ⟨c, rfl⟩
        · cases h

/-! ### The first tag in quotes -/

/-- The rest of a tag whose quote stands before a text, and what is behind its other quote. -/
def closing? (c : Char) (s : List Char) : Option (List Char × List Char) :=
  if isQuote c && s.head? == some '!' then lastQuote? s.tail else none

/-- What stands before the first tag in quotes, the tag without its mark, and what stands behind. -/
def nextTag? : List Char → Option (List Char × List Char × List Char)
  | [] => none
  | c :: s =>
    match closing? c s with
    | some (content, rest) => some ([], content, rest)
    | none => (nextTag? s).map fun (skipped, found) => (c :: skipped, found)

theorem closing?_eq_some {c : Char} {s content rest : List Char}
    (h : closing? c s = some (content, rest)) :
    isQuote c = true ∧ ∃ s', s = '!' :: s' ∧ lastQuote? s' = some (content, rest) := by
  unfold closing? at h
  split at h
  · rename_i hcond
    rw [Bool.and_eq_true, beq_iff_eq] at hcond
    obtain ⟨s', rfl⟩ := List.head?_eq_some_iff.mp hcond.2
    exact ⟨hcond.1, s', rfl, h⟩
  · cases h

/-- A character that begins no tag in quotes stays where it is. -/
theorem unquote_of_closing? {c : Char} {s : List Char} (h : closing? c s = none) :
    unquote (c :: s) = c :: unquote s := by
  by_cases hc : c = '\n'
  · subst hc
    exact unquote_lineFeed s
  obtain ⟨line, lines, hs, hjoin⟩ := splitLines_join s
  have hcond : (isQuote c && line.head? == some '!' && line.tail.any isQuote) = false := by
    by_contra htrue
    rw [Bool.not_eq_false, Bool.and_eq_true, Bool.and_eq_true, beq_iff_eq] at htrue
    obtain ⟨⟨hq, hhead⟩, hany⟩ := htrue
    obtain ⟨line', rfl⟩ := List.head?_eq_some_iff.mp hhead
    obtain ⟨s', rfl⟩ : ∃ s', s = '!' :: s' := ⟨_, hjoin⟩
    obtain ⟨first, others, hs', -⟩ := splitLines_join s'
    rw [splitLines_cons (by decide) hs'] at hs
    obtain ⟨hline, rfl⟩ := List.cons.inj hs
    obtain rfl := (List.cons.inj hline).2
    rw [closing?, hq] at h
    have hnone := (lastQuote?_eq_none hs').mp h
    rw [List.tail_cons, hnone] at hany
    cases hany
  rw [unquote, unquote, splitLines_cons hc hs, hs]
  simp only [unquoteLine, hcond, Bool.false_eq_true, if_false, List.cons_append]

theorem unquote_of_nextTag?_none : ∀ {s : List Char}, nextTag? s = none → unquote s = s
  | [], _ => rfl
  | c :: s, h => by
    rw [nextTag?] at h
    split at h
    · cases h
    · rename_i hc
      rw [unquote_of_closing? hc, unquote_of_nextTag?_none (Option.map_eq_none_iff.mp h)]

theorem unquote_of_nextTag? : ∀ {s skipped content rest : List Char},
    nextTag? s = some (skipped, content, rest) →
    unquote s = skipped ++ ('!' :: content ++ unquote rest)
  | [], _, _, _, h => by cases h
  | c :: s, skipped, content, rest, h => by
    rw [nextTag?] at h
    split at h
    · rename_i content rest hc
      cases h
      obtain ⟨hq, s', rfl, hlast⟩ := closing?_eq_some hc
      obtain ⟨line, lines, hs', -⟩ := splitLines_join s'
      obtain ⟨line', hrest, hno, hdrop⟩ := lastQuote?_eq_some hs' hlast
      have hne : c ≠ '\n' := by
        rintro rfl
        cases hq
      have hany : line.any isQuote = true := by
        rw [← Bool.not_eq_false, ← lastQuote?_eq_none hs', hlast]
        exact nofun
      have hline : unquoteLine (c :: '!' :: line) = '!' :: content ++ line' := by
        rw [unquoteLine, hq, List.tail_cons, hany, dropLastQuote, hdrop]
        rfl
      rw [unquote, unquote, splitLines_cons hne (splitLines_cons (by decide) hs'), hrest]
      simp only [hline, unquoteLine_of_any hno, List.nil_append, List.append_assoc]
    · rename_i hc
      obtain ⟨⟨skipped', found⟩, hs, heq⟩ := Option.map_eq_some_iff.mp h
      cases heq
      rw [unquote_of_closing? hc, unquote_of_nextTag? hs]
      rfl

theorem length_nextTag? : ∀ {s skipped content rest : List Char},
    nextTag? s = some (skipped, content, rest) → rest.length < s.length
  | [], _, _, _, h => by cases h
  | c :: s, skipped, content, rest, h => by
    rw [nextTag?] at h
    split at h
    · rename_i content rest hc
      cases h
      obtain ⟨-, s', rfl, hlast⟩ := closing?_eq_some hc
      obtain ⟨q, rfl⟩ := lastQuote?_append hlast
      simp only [List.length_cons, List.length_append]
      omega
    · obtain ⟨⟨skipped', found⟩, hs, heq⟩ := Option.map_eq_some_iff.mp h
      cases heq
      have := length_nextTag? hs
      simp only [List.length_cons]
      omega

end TaggedYaml
