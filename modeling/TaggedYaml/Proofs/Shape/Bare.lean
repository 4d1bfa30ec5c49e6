import TaggedYaml.Proofs.Shape.Segments

/-!
# Bare — the rule for quotes on a text with its properties

A text between quotes is calm if the text is and does not begin with an exclamation mark; otherwise the
quotes around it are those that the rule takes (`Segment.unquote_join`).
-/

namespace TaggedYaml

/-! ### Texts between quotes -/

/-- What is written for a character between quotes meets its neighbours as the character does. -/
structure Escape (c : Char) (cs : List Char) : Prop where
  calm : calm cs = true
  first : ∃ d r, cs = d :: r ∧ (d = '!' → c = '!')
  last : ∀ d ∈ cs.getLast?, isQuote d = true → isQuote c = true

theorem Escape.self (c : Char) : Escape c [c] := by
  refine ⟨by simp [TaggedYaml.calm], ⟨c, [], rfl, id⟩, fun d hd hq => ?_⟩
  obtain rfl := Option.some.inj hd
  exact hq

theorem escape_singleChar (c : Char) : Escape c (singleChar c) := by
  rw [singleChar]
  split
  · rename_i hc
    obtain rfl := eq_of_beq hc
    exact ⟨by decide, ⟨_, _, rfl, by decide⟩, fun _ _ _ => by decide⟩
  · exact .self c

theorem isQuote_hexDigits {n : Nat} : ∀ c ∈ Json.hexDigits true n, isQuote c = false := by
  have hd : ∀ k < 16, isQuote (Json.hexDigit true k) = false := by decide
  have hdigit (k : Nat) := hd (k % 16) (Nat.mod_lt k (by decide))
  intro c hc
  simp only [Json.hexDigits, List.mem_cons, List.not_mem_nil, or_false] at hc
  rcases hc with rfl | rfl | rfl | rfl <;> exact hdigit _

theorem escape_doubleChar (c : Char) : Escape c (doubleChar c) := by
  rcases doubleChar_cases c with hc | ⟨-, hc⟩ | ⟨-, -, -, hc⟩
  · simp only [List.mem_cons, List.not_mem_nil, or_false] at hc
    rcases hc with rfl | rfl | rfl | rfl | rfl | rfl <;>
      exact ⟨by decide, ⟨_, _, rfl, by decide⟩, fun _ hd => Option.some.inj hd ▸ id⟩
  · rw [hc]
    have hno : ∀ d ∈ '\\' :: 'u' :: Json.hexDigits true c.toNat, isQuote d = false := by
      rw [List.forall_mem_cons, List.forall_mem_cons]
      exact ⟨rfl, rfl, isQuote_hexDigits⟩
    refine ⟨calm_of_forall hno, ⟨_, _, rfl, fun h => absurd h (by decide)⟩, fun d hd hq => ?_⟩
    rw [hno d (List.mem_of_getLast? hd)] at hq
    cases hq
  · rw [hc]
    exact .self c

/-- Between quotes a calm text stays calm. -/
theorem calm_flatMap {g : Char → List Char} (hg : ∀ c, Escape c (g c)) {q : Char} (hq : q ≠ '!') :
    ∀ {s : List Char}, calm s = true → calm (s.flatMap g ++ [q]) = true ∧
      ((s.flatMap g ++ [q]).head? = some '!' → s.head? = some '!')
  | [], _ => by
    refine ⟨by simp [calm], fun h => absurd (Option.some.inj h) hq⟩
  | c :: s, h => by
    rw [calm_cons] at h
    obtain ⟨hcalm, hhead⟩ := calm_flatMap hg hq h.2
    rw [List.flatMap_cons, List.append_assoc]
    refine ⟨calm_append (hg c).calm hcalm fun d hd hquote hmark => ?_, fun hmark => ?_⟩
    · exact h.1 ((hg c).last d hd hquote) (hhead hmark)
    · obtain ⟨d, r, hd, hbang⟩ := (hg c).first
      rw [hd] at hmark
      exact congrArg some (hbang (Option.some.inj hmark))

/-- A text between quotes is written character by character, on one line. -/
theorem exists_quotedText (s : List Char) : ∃ q g, isQuote q = true ∧ (∀ c, Escape c (g c)) ∧
    g '!' = ['!'] ∧ quotedText s = q :: (s.flatMap g ++ [q]) ∧ '\n' ∉ s.flatMap g := by
  unfold quotedText
  split
  · refine ⟨'"', doubleChar, rfl, escape_doubleChar, by decide, rfl, fun h => ?_⟩
    obtain ⟨c, -, hc⟩ := List.mem_flatMap.mp h
    exact absurd (isControl_doubleChar hc) (by decide)
  · rename_i hhidden
    refine ⟨'\'', singleChar, rfl, escape_singleChar, rfl, rfl, fun h => ?_⟩
    obtain ⟨c, hmem, hc⟩ := List.mem_flatMap.mp h
    obtain rfl := eq_of_mem_singleChar hc
    exact hhidden (List.any_eq_true.mpr ⟨_, hmem, by decide⟩)

theorem calm_quotedText {s : List Char} (h : calm s = true) (hs : s.head? ≠ some '!') :
    calm (quotedText s) = true := by
  obtain ⟨q, g, hq, hg, -, htext, -⟩ := exists_quotedText s
  have hne : q ≠ '!' := by
    rintro rfl
    cases hq
  obtain ⟨hcalm, hhead⟩ := calm_flatMap hg hne h
  rw [htext]
  exact calm_cons.mpr ⟨fun _ hmark => hs (hhead hmark), hcalm⟩

/-- Between quotes an exclamation mark stands for itself. -/
theorem quotedText_mark (s : List Char) : ∃ q body, isQuote q = true ∧ '\n' ∉ body ∧
    quotedText ('!' :: s) = q :: '!' :: body ++ [q] := by
  obtain ⟨q, g, hq, -, hmark, htext, hline⟩ := exists_quotedText ('!' :: s)
  rw [List.flatMap_cons, hmark] at htext hline
  refine ⟨q, s.flatMap g, hq, fun h => hline (List.mem_append_right _ h), htext⟩

/-! ### Texts with their properties -/

theorem calm_joinProperties {properties text : List Char} (hp : calm properties = true)
    (ht : calm text = true) : calm (joinProperties properties text) = true := by
  rw [joinProperties]
  split
  · exact ht
  split
  · exact hp
  · exact calm_append_cons hp rfl (by decide) ht

namespace Segment

/-- A text between quotes begins with an exclamation mark. -/
def marked : Segment → Bool
  | .plain _ => false
  | .quoted _ text => text.head? == some '!'

/-- The text of a segment is calm. -/
def Calm : Segment → Prop
  | .plain cs => calm cs = true
  | .quoted _ text => calm text = true

variable {g : Segment} {p u : List Char}

theorem bareChars_of_marked (hg : g.marked = false) : g.bareChars = g.chars := by
  cases g with
  | plain cs => rfl
  | quoted key text =>
    have hmark : ¬ (text.head? == some '!') = true := Bool.eq_false_iff.mp hg
    rw [bareChars, if_neg hmark, chars]

/-- Without a text between quotes that begins with an exclamation mark there are no quotes to take. -/
theorem bare_eq_render {gs : List Segment} (h : ∀ g ∈ gs, g.marked = false) :
    bare gs = render gs := by
  induction gs with
  | nil => rfl
  | cons g gs ih =>
    rw [List.forall_mem_cons] at h
    rw [bare_cons, render_cons, bareChars_of_marked h.1, ih h.2]

theorem calm_chars (h : g.Calm) (hg : g.marked = false) : calm g.chars = true := by
  cases g with
  | plain cs => exact h
  | quoted key text => exact calm_quotedText h (by simpa [marked] using hg)

theorem exists_chars (hg : g.marked = true) : ∃ q body, isQuote q = true ∧ '\n' ∉ body ∧
    g.chars = q :: '!' :: body ++ [q] ∧ g.bareChars = '!' :: body := by
  cases g with
  | plain cs => cases hg
  | quoted key text =>
    obtain ⟨s, rfl⟩ := List.head?_eq_some_iff.mp (eq_of_beq hg)
    obtain ⟨q, body, hq, hline, htext⟩ := quotedText_mark s
    refine ⟨q, body, hq, hline, htext, ?_⟩
    rw [bareChars, if_pos (by rfl), htext, List.cons_append, List.tail_cons, List.dropLast_concat]

/-- A text with a mark stands last behind its properties. -/
theorem exists_join (hg : g.marked = true) (p : List Char) : ∃ before, join p g = before ++ [g] := by
  obtain ⟨q, body, -, -, hchars, -⟩ := exists_chars hg
  rw [join, hchars]
  split
  · exact ⟨[], rfl⟩
  · exact ⟨[.plain (p ++ [' '])], rfl⟩

theorem marked_of_mem_join (hg : g.marked = false) {x : Segment} (hx : x ∈ join p g) :
    x.marked = false := by
  rw [join] at hx
  split at hx
  · exact List.mem_singleton.mp hx ▸ hg
  split at hx
  · exact List.mem_singleton.mp hx ▸ rfl
  · rcases List.mem_cons.mp hx with rfl | hx
    · rfl
    · exact List.mem_singleton.mp hx ▸ hg

theorem exists_ofString {key : Bool} {s : List Char} (h : (ofString key s).marked = true) :
    ∃ text, ofString key s = .quoted key ('!' :: text) := by
  rw [ofString] at h ⊢
  split at h
  · cases h
  · rename_i hplain
    obtain ⟨text, rfl⟩ := List.head?_eq_some_iff.mp (eq_of_beq h)
    exact ⟨text, if_neg hplain⟩

theorem calm_ofString {key : Bool} {s : List Char} (h : calm s = true) : (ofString key s).Calm := by
  rw [ofString]
  split <;> exact h

/-- The quotes that the rule takes from a text with its properties are those around the text, if it
begins with an exclamation mark and no other quote comes behind it on the line. -/
theorem unquote_join (hp : calm p = true) (hg : g.Calm) (hu : u.head? ≠ some '!')
    (hrest : g.marked = true → lastQuote? u = none) :
    unquote (render (join p g) ++ u) = bare (join p g) ++ unquote u := by
  cases hm : g.marked with
  | false =>
    have hbare := bareChars_of_marked hm
    have hsame : bare (join p g) = render (join p g) := by
      rw [join]
      split
      · simp [hbare]
      · split <;> simp [hbare]
    rw [hsame]
    refine unquote_append ?_ fun _ _ _ => hu
    rw [render_join]
    exact calm_joinProperties hp (calm_chars hg hm)
  | true =>
    obtain ⟨q, body, hq, hline, hchars, hbare⟩ := exists_chars hm
    have hquoted : unquote (g.chars ++ u) = g.bareChars ++ unquote u := by
      rw [hchars, hbare, List.append_assoc]
      exact unquote_quoted hq hline (hrest hm)
    rw [join]
    split
    · simpa using hquoted
    split
    · rename_i hempty
      rw [hchars] at hempty
      cases hempty
    · have hspace : calm (p ++ [' ']) = true := calm_append_cons hp rfl (by decide) rfl
      simp only [render_cons, render_nil, bare_cons, bare_nil, chars_plain, bareChars_plain,
        List.append_nil, List.append_assoc]
      have hmeet : ∀ c ∈ (p ++ [' ']).getLast?, isQuote c = true → (g.chars ++ u).head? ≠ some '!' := by
        intro c hc hquote
        rw [List.getLast?_concat] at hc
        obtain rfl := Option.some.inj hc
        cases hquote
      rw [← List.append_assoc p, unquote_append hspace hmeet, hquoted, List.append_assoc]

end Segment

end TaggedYaml
