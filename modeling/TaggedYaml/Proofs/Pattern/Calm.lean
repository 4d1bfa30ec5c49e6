import TaggedYaml.Proofs.Pattern.Unquote

/-!
# Calm — texts of which no quotes are taken

Where no quote stands directly before an exclamation mark (`calm`), nothing is taken away, and what is
taken away behind such a text does not depend on it (`unquote_append`).  Quotes around a text that begins
with an exclamation mark are taken away if no other quote stands behind them on the line
(`unquote_quoted`).
-/

namespace TaggedYaml

/-- No quote stands directly before an exclamation mark. -/
def calm : List Char → Bool
  | [] => true
  | c :: rest => !(isQuote c && rest.head? == some '!') && calm rest

theorem calm_cons {c : Char} {s : List Char} :
    calm (c :: s) = true ↔ (isQuote c = true → s.head? ≠ some '!') ∧ calm s = true := by
  rw [calm, Bool.and_eq_true, Bool.not_eq_true', Bool.and_eq_false_imp, beq_eq_false_iff_ne]

/-- Two calm texts are calm one behind the other, if no quote comes before an exclamation mark where
they meet. -/
theorem calm_append : ∀ {s u : List Char}, calm s = true → calm u = true →
    (∀ c ∈ s.getLast?, isQuote c = true → u.head? ≠ some '!') → calm (s ++ u) = true
  | [], _, _, hu, _ => hu
  | [c], u, _, hu, hmeet => calm_cons.mpr ⟨hmeet c rfl, hu⟩
  | c :: d :: s, u, hs, hu, hmeet => by
    rw [calm_cons] at hs
    exact calm_cons.mpr ⟨hs.1, calm_append hs.2 hu hmeet⟩

theorem calm_cons_of_not {c : Char} {s : List Char} (hc : isQuote c = false) (hs : calm s = true) :
    calm (c :: s) = true :=
  calm_cons.mpr ⟨fun hq => absurd (hc.symm.trans hq) Bool.false_ne_true, hs⟩

/-- Two calm texts are calm with a character between them that is no quote and no exclamation mark. -/
theorem calm_append_cons {s u : List Char} {c : Char} (hs : calm s = true) (hq : isQuote c = false)
    (hc : c ≠ '!') (hu : calm u = true) : calm (s ++ c :: u) = true :=
  calm_append hs (calm_cons_of_not hq hu) fun _ _ _ h => hc (Option.some.inj h)

theorem calm_of_append : ∀ {s u : List Char}, calm (s ++ u) = true → calm s = true ∧ calm u = true
  | [], _, h => ⟨rfl, h⟩
  | c :: s, u, h => by
    rw [List.cons_append, calm_cons] at h
    obtain ⟨hs, hu⟩ := calm_of_append h.2
    refine ⟨calm_cons.mpr ⟨fun hq => ?_, hs⟩, hu⟩
    cases s with
    | nil => exact nofun
    | cons d s => exact h.1 hq

/-- Without quotes a text is calm. -/
theorem calm_of_forall : ∀ {s : List Char}, (∀ c ∈ s, isQuote c = false) → calm s = true
  | [], _ => rfl
  | c :: s, h => by
    rw [List.forall_mem_cons] at h
    exact calm_cons_of_not h.1 (calm_of_forall h.2)

/-- Without quotes nothing meets what stands behind. -/
theorem calm_append_of_forall {s u : List Char} (h : ∀ c ∈ s, isQuote c = false)
    (hu : calm u = true) : calm (s ++ u) = true :=
  calm_append (calm_of_forall h) hu fun c hc hq =>
    absurd ((h c (List.mem_of_getLast? hc)).symm.trans hq) Bool.false_ne_true

/-! ### Parts of a text -/

/-- A calm text is left, whatever stands behind it, if no quote comes before an exclamation mark where
they meet. -/
theorem unquote_append : ∀ {s u : List Char}, calm s = true →
    (∀ c ∈ s.getLast?, isQuote c = true → u.head? ≠ some '!') → unquote (s ++ u) = s ++ unquote u
  | [], _, _, _ => rfl
  | c :: s, u, h, hmeet => by
    rw [calm_cons] at h
    have hclosing : closing? c (s ++ u) = none := by
      rw [closing?, if_neg]
      rw [Bool.and_eq_true, beq_iff_eq]
      rintro ⟨hq, hhead⟩
      cases s with
      | nil => exact hmeet c rfl hq hhead
      | cons d s => exact h.1 hq hhead
    have hmeet' : ∀ d ∈ s.getLast?, isQuote d = true → u.head? ≠ some '!' := by
      intro d hd
      cases s with
      | nil => cases hd
      | cons e s => exact hmeet d hd
    rw [List.cons_append, unquote_of_closing? hclosing, unquote_append h.2 hmeet', List.cons_append]

/-- No quotes stand on the line that a text begins with. -/
theorem lastQuote?_eq_none_iff : ∀ {s : List Char},
    lastQuote? s = none ↔ ∀ c ∈ s.takeWhile (· != '\n'), isQuote c = false
  | [] => by simp [lastQuote?]
  | c :: s => by
    by_cases hc : c = '\n'
    · simp [lastQuote?, hc]
    · rw [lastQuote?_cons hc, List.takeWhile_cons_of_pos (by simpa using hc), List.forall_mem_cons,
        ← lastQuote?_eq_none_iff]
      cases lastQuote? s with
      | some z => simp
      | none => simp

theorem lastQuote?_of_last {q : Char} {rest : List Char} (hq : isQuote q = true)
    (hrest : lastQuote? rest = none) : ∀ {s : List Char}, '\n' ∉ s →
      lastQuote? (s ++ q :: rest) = some (s, rest)
  | [], _ => by
    have hne : q ≠ '\n' := by
      rintro rfl
      cases hq
    rw [List.nil_append, lastQuote?_cons hne, hrest]
    simp [hq]
  | c :: s, h => by
    rw [List.mem_cons, not_or] at h
    rw [List.cons_append, lastQuote?_cons (Ne.symm h.1), lastQuote?_of_last hq hrest h.2]

/-- Quotes around a text that begins with an exclamation mark are taken away, if no other quote comes
behind them on the line. -/
theorem unquote_quoted {q : Char} {s rest : List Char} (hq : isQuote q = true) (hs : '\n' ∉ s)
    (hrest : lastQuote? rest = none) :
    unquote (q :: '!' :: s ++ q :: rest) = '!' :: s ++ unquote rest := by
  have hclosing : closing? q ('!' :: s ++ q :: rest) = some (s, rest) := by
    rw [closing?, hq]
    exact lastQuote?_of_last hq hrest hs
  have hnext : nextTag? (q :: '!' :: s ++ q :: rest) = some ([], s, rest) := by
    rw [List.cons_append, nextTag?, hclosing]
  exact unquote_of_nextTag? hnext

end TaggedYaml
