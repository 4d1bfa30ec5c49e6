import Mathlib.Data.List.TakeWhile
import Mathlib.Tactic.Set
import TaggedYaml.Token.Scan

/-!
# Space between tokens is passed over

`skipSpace` over blanks and line breaks comes to the first character that is neither a blank, a break
nor a comment, and touches nothing of a lexer but the cursor and whether a key may begin.
-/

namespace TaggedYaml

/-- A text that begins with none of the characters that `skipSpace` passes. -/
def Solid (text : List Char) : Prop := ∀ c ∈ text.head?, isGap c = false ∧ c ≠ '#'

theorem Solid.nil : Solid [] := by simp [Solid]

theorem Solid.cons {c : Char} {text : List Char} (hc : isGap c = false) (h : c ≠ '#') :
    Solid (c :: text) := by
  simp [Solid, hc, h]

theorem isBreak_of_isBlank {c : Char} (h : isBlank c = true) : isBreak c = false := by
  simp only [isBlank, Bool.or_eq_true, beq_iff_eq] at h
  rcases h with rfl | rfl <;> rfl

/-- Blanks and line breaks.  A tab may be among them only where no block collection is open at a
column. -/
def IsSpace (cols : List Nat) (gap : List Char) : Prop :=
  ∀ c ∈ gap, isGap c = true ∧ (c = '\t' → cols = [])

section

variable {cols : List Nat} {gap gap' : List Char}

theorem IsSpace.nil : IsSpace cols [] := fun _ hc => absurd hc List.not_mem_nil

theorem IsSpace.mono (h : IsSpace cols gap) (hsub : ∀ c ∈ gap', c ∈ gap) : IsSpace cols gap' :=
  fun c hc => h c (hsub c hc)

theorem IsSpace.tab_not_mem (h : IsSpace cols gap) (hcols : cols ≠ []) : '\t' ∉ gap :=
  fun hc => hcols ((h _ hc).2 rfl)

theorem IsSpace.replicate (n : Nat) : IsSpace cols (List.replicate n ' ') := by
  intro c hc
  obtain rfl := List.eq_of_mem_replicate hc
  exact ⟨rfl, fun h => absurd h (by decide)⟩

theorem IsSpace.line (n : Nat) : IsSpace cols ('\n' :: List.replicate n ' ') := by
  intro c hc
  rcases List.mem_cons.mp hc with rfl | hc
  · exact ⟨rfl, fun h => absurd h (by decide)⟩
  · exact IsSpace.replicate n c hc

end

/-- A text falls into space and what follows in one way. -/
theorem space_unique {cols : List Nat} : ∀ {g g' t t' : List Char}, g ++ t = g' ++ t' →
    IsSpace cols g → IsSpace cols g' → Solid t → Solid t' → g = g' ∧ t = t'
  | [], [], t, t', h, _, _, _, _ => ⟨rfl, h⟩
  | c :: g, c' :: g', t, t', h, hg, hg', ht, ht' => by
    obtain ⟨rfl, htail⟩ : c = c' ∧ g ++ t = g' ++ t' := by simpa using h
    obtain ⟨rfl, rfl⟩ := space_unique htail (fun x hx => hg x (List.mem_cons_of_mem _ hx))
      (fun x hx => hg' x (List.mem_cons_of_mem _ hx)) ht ht'
    exact ⟨rfl, rfl⟩
  | [], c :: g', t, t', h, _, hg', ht, _ => by
    rw [List.nil_append] at h
    have hc := (ht c (by simp [h])).1
    rw [(hg' c (by simp)).1] at hc
    cases hc
  | c :: g, [], t, t', h, hg, _, _, ht' => by
    rw [List.nil_append] at h
    have hc := (ht' c (by simp [← h])).1
    rw [(hg c (by simp)).1] at hc
    cases hc

/-- The column behind blanks and line breaks. -/
def columnAfter (column : Nat) : List Char → Nat
  | [] => column
  | c :: gap => columnAfter (if isBreak c then 0 else column + 1) gap

theorem columnAfter_blanks {bs : List Char} (h : ∀ b ∈ bs, isBlank b = true) (column : Nat) :
    columnAfter column bs = column + bs.length := by
  induction bs generalizing column with
  | nil => rfl
  | cons b bs ih =>
    have hb : isBreak b = false := isBreak_of_isBlank (h b (by simp))
    rw [columnAfter, ih fun x hx => h x (List.mem_cons_of_mem _ hx), hb]
    simp [Nat.add_assoc, Nat.add_comm 1]

theorem columnAfter_replicate (column n : Nat) :
    columnAfter column (List.replicate n ' ') = column + n := by
  rw [columnAfter_blanks fun b hb => by rw [List.eq_of_mem_replicate hb]; rfl,
    List.length_replicate]

theorem passBreak_lineFeed {c : Cursor} {rest : List Char} (h : c.rest = '\n' :: rest) :
    c.passBreak = ⟨rest, c.mark.nextLine, c.ahead - 1, true⟩ := by
  unfold Cursor.passBreak
  split
  · rename_i heq
    rw [h] at heq
    simp at heq
  · rename_i heq
    rw [h] at heq
    obtain ⟨-, rfl⟩ := List.cons.inj heq
    rfl
  · rename_i heq
    rw [h] at heq
    simp at heq

theorem columnAfter_append (column : Nat) (gap gap' : List Char) :
    columnAfter column (gap ++ gap') = columnAfter (columnAfter column gap) gap' := by
  induction gap generalizing column with
  | nil => rfl
  | cons c gap ih => exact ih _

/-- A line break is passed, and with it a line feed behind a carriage return. -/
theorem passBreak_gap {c : Cursor} {x : Char} {gap text : List Char} (ht : Solid text)
    (h : c.rest = x :: (gap ++ text)) :
    ∃ gap', (gap' = gap ∨ gap = '\n' :: gap') ∧ c.passBreak.rest = gap' ++ text ∧
      c.passBreak.mark.column = 0 := by
  unfold Cursor.passBreak
  split
  · rename_i rest heq
    rw [h] at heq
    obtain ⟨-, heq⟩ := List.cons.inj heq
    cases gap with
    | nil =>
      have := (ht '\n' (by rw [show text = '\n' :: rest from heq]; rfl)).1
      exact absurd this (by decide)
    | cons y gap =>
      obtain ⟨rfl, rfl⟩ := List.cons.inj heq
      exact ⟨gap, .inr rfl, rfl, rfl⟩
  · rename_i heq
    rw [h] at heq
    obtain ⟨-, rfl⟩ := List.cons.inj heq
    exact ⟨gap, .inl rfl, rfl, rfl⟩
  · rename_i heq
    rw [h] at heq
    cases heq

/-- Where blanks behind a token were passed: the cursor, and what is left of the space. -/
structure Cursor.Trailed (c d : Cursor) (gap left text : List Char) : Prop where
  split : ∃ bs, gap = bs ++ left ∧ (∀ b ∈ bs, isBlank b = true) ∧ d.mark = c.mark.right bs.length
  rest_eq : d.rest = left ++ text

theorem Cursor.Trailed.space {c d : Cursor} {gap left text : List Char} {cols : List Nat}
    (h : c.Trailed d gap left text) (hg : IsSpace cols gap) : IsSpace cols left := by
  obtain ⟨bs, rfl, -⟩ := h.split
  exact hg.mono fun x hx => List.mem_append_right bs hx

theorem Cursor.Trailed.column_eq {c d : Cursor} {gap left text : List Char}
    (h : c.Trailed d gap left text) :
    columnAfter d.mark.column left = columnAfter c.mark.column gap := by
  obtain ⟨bs, rfl, hbs, hm⟩ := h.split
  rw [columnAfter_append, columnAfter_blanks hbs, hm]
  rfl

/-- Space apart, a text comes next, and it stands at a column. -/
def Cursor.Faces (c : Cursor) (cols : List Nat) (column : Nat) (text : List Char) : Prop :=
  ∃ gap, IsSpace cols gap ∧ c.rest = gap ++ text ∧ columnAfter c.mark.column gap = column

theorem Cursor.Trailed.faces {c d : Cursor} {gap left text : List Char} {cols : List Nat}
    (h : c.Trailed d gap left text) (hg : IsSpace cols gap) :
    d.Faces cols (columnAfter c.mark.column gap) text :=
  ⟨left, h.space hg, h.rest_eq, h.column_eq⟩

theorem Cursor.Trailed.length_le {c d : Cursor} {gap left text : List Char}
    (h : c.Trailed d gap left text) : d.rest.length ≤ (gap ++ text).length := by
  obtain ⟨bs, hbs, -, -⟩ := h.split
  rw [h.rest_eq, hbs]
  simp only [List.length_append]
  omega

theorem any_isBreak_blanks {bs : List Char} (h : ∀ b ∈ bs, isBlank b = true) :
    bs.any isBreak = false := by
  rw [List.any_eq_false]
  exact fun b hb => by rw [isBreak_of_isBlank (h b hb)]; exact Bool.false_ne_true

theorem Cursor.Trailed.any_eq {c d : Cursor} {gap left text : List Char}
    (h : c.Trailed d gap left text) : left.any isBreak = gap.any isBreak := by
  obtain ⟨bs, rfl, hbs, -⟩ := h.split
  rw [List.any_append, any_isBreak_blanks hbs, Bool.false_or]

/-- Space begins with blanks, up to its first line break. -/
theorem IsSpace.split {cols : List Nat} {gap : List Char} (hg : IsSpace cols gap) :
    ∃ bs left, gap = bs ++ left ∧ (∀ b ∈ bs, isBlank b = true) ∧ ∀ x ∈ left.head?, isBreak x = true := by
  refine ⟨gap.takeWhile isBlank, gap.dropWhile isBlank, List.takeWhile_append_dropWhile.symm,
    fun _ => List.mem_takeWhile_imp, fun x hx => ?_⟩
  have hblank : isBlank x = false := by
    have h := List.head?_dropWhile_not isBlank gap
    rw [Option.mem_def.mp hx] at h
    simpa using h
  have hgap := (hg x ((List.dropWhile_sublist _).mem (List.mem_of_mem_head? hx))).1
  rw [isGap, hblank, Bool.false_or] at hgap
  exact hgap

/-- Behind the blanks at the beginning of space comes a line break or a token, and no comment. -/
theorem stops_trailing {left text : List Char} (hleft : ∀ x ∈ left.head?, isBreak x = true)
    (ht : Solid text) : ∀ x ∈ (left ++ text).head?, isBlank x = false ∧ x ≠ '#' := by
  intro x hx
  cases left with
  | nil =>
    obtain ⟨hgap, hsharp⟩ := ht x hx
    rw [isGap, Bool.or_eq_false_iff] at hgap
    exact ⟨hgap.1, hsharp⟩
  | cons y left =>
    obtain rfl : y = x := by simpa using hx
    have hbreak := hleft y rfl
    constructor
    · cases hb : isBlank y with
      | false => rfl
      | true => simp [isBreak_of_isBlank hb] at hbreak
    · rintro rfl
      exact absurd hbreak (by decide)

/-- Blanks are passed up to where none is. -/
theorem passBlanks_blanks {c : Cursor} {bs u : List Char} {p : Char → Bool}
    (hbs : ∀ b ∈ bs, p b = true) (hu : ∀ x ∈ u.head?, p x = false) (hc : c.rest = bs ++ u) :
    c.run p = bs ∧ (c.passBlanks p).rest = u ∧ (c.passBlanks p).mark = c.mark.right bs.length := by
  have hrun : c.run p = bs := by
    rw [Cursor.run, hc, List.takeWhile_append_of_pos hbs]
    cases u with
    | nil => simp
    | cons x u => simp [hu x rfl]
  exact ⟨hrun, by simp [Cursor.passBlanks, hrun, hc], by simp [Cursor.passBlanks, hrun]⟩

/-- Blanks behind a token are passed up to the end of the line or the next token. -/
theorem trailing_gap {c : Cursor} {gap text : List Char} {cols : List Nat} (hg : IsSpace cols gap)
    (ht : Solid text) (hc : c.rest = gap ++ text) (tabs : Bool)
    (htabs : tabs = false → '\t' ∉ gap) :
    ∃ tr left, c.trailing tabs = .ok tr ∧ (tr.hasTab = true → '\t' ∈ gap) ∧
      c.Trailed tr.cursor gap left text ∧ ∀ x ∈ left.head?, isBreak x = true := by
  obtain ⟨bs, left, rfl, hbs, hleft⟩ := hg.split
  have hstop := stops_trailing hleft ht
  set p : Char → Bool := fun x => x == ' ' || (tabs && x == '\t') with hp
  -- tabs are passed where there are any
  have hpass : ∀ b ∈ bs, p b = true := by
    intro b hb
    have hblank := hbs b hb
    simp only [isBlank, Bool.or_eq_true, beq_iff_eq] at hblank
    rcases hblank with rfl | rfl
    · rfl
    · cases tabs with
      | true => rfl
      | false => exact absurd (List.mem_append_left left hb) (htabs rfl)
  have hend : ∀ x ∈ (left ++ text).head?, p x = false := by
    intro x hx
    have hblank := (hstop x hx).1
    simp only [isBlank, Bool.or_eq_false_iff] at hblank
    simp [hp, hblank.1, hblank.2]
  obtain ⟨hrun, hrest, hmark⟩ := passBlanks_blanks hpass hend (by rw [hc, List.append_assoc])
  have hsharp : ((c.passBlanks p).head? == some '#') = false := by
    rw [Cursor.head?, hrest]
    cases hl : left ++ text with
    | nil => rfl
    | cons x r => simpa using (hstop x (by simp [hl])).2
  refine ⟨⟨bs.contains '\t', bs.contains ' ', c.passBlanks p⟩, left, ?_, fun h => ?_,
    ⟨⟨bs, rfl, hbs, hmark⟩, hrest⟩, hleft⟩
  · show (if (c.passBlanks p).head? == some '#' then _ else _) = _
    rw [hsharp, hrun]
    rfl
  · exact List.mem_append_left left (List.contains_iff_mem.mp h)

namespace Lexer

/-- Where blanks and line breaks were passed: the cursor behind them. -/
structure Passed (l : Lexer) (gap text : List Char) (c : Cursor) : Prop where
  rest_eq : c.rest = text
  column_eq : c.mark.column = columnAfter l.cursor.mark.column gap
  mark_eq : gap.any isBreak = false → c.mark = l.cursor.mark.right gap.length

/-- Whether a key may begin behind blanks and line breaks. -/
def keyAfter (l : Lexer) (gap : List Char) : Bool :=
  l.keyAllowed || (!l.inFlow && gap.any isBreak)

theorem skipSpaceLoop_solid {l : Lexer} (h : Solid l.cursor.rest) (fuel : Nat) :
    skipSpaceLoop (fuel + 1) l = .ok (l.move (l.cursor.look 1)) := by
  have hhead : (l.move (l.cursor.look 1)).cursor.head? = l.cursor.rest.head? := rfl
  have htab : (l.move (l.cursor.look 1)).tabIndents = false := by
    rw [tabIndents, hhead]
    cases hc : l.cursor.rest.head? with
    | none => rfl
    | some c =>
      have hne : (some c == some '\t') = false := by
        have hgap := (h c hc).1
        simp only [isGap, isBlank, Bool.or_eq_false_iff] at hgap
        simpa using hgap.1.2
      rw [hne]
      rfl
  rw [skipSpaceLoop]
  simp only [htab, hhead, Bool.false_eq_true, if_false]
  cases hc : l.cursor.rest.head? with
  | none => rfl
  | some c =>
    obtain ⟨h1, h2⟩ := h c hc
    simp only [isGap, Bool.or_eq_false_iff] at h1
    simp [h1.1, h1.2, h2]

/-- Tabs indent nothing where no block collection is open. -/
theorem tabIndents_of_space {l : Lexer} {cols : List Nat} {c : Char} {gap : List Char}
    (hg : IsSpace cols (c :: gap)) (hi : cols = [] → l.indent ≤ 0) (hc : l.cursor.head? = some c) :
    l.tabIndents = false := by
  rw [tabIndents, hc]
  by_cases htab : c = '\t'
  · have hindent := hi ((hg c (by simp)).2 htab)
    have hcolumn : decide (l.column < l.indent) = false := by
      rw [decide_eq_false_iff_not, Lexer.column]
      omega
    rw [hcolumn, Bool.and_false]
  · simp [htab]

theorem skipBreak_eq (l : Lexer) :
    l.skipBreak = { l with
      cursor := (l.cursor.look 2).passBreak, keyAllowed := l.keyAllowed || !l.inFlow } := by
  rw [skipBreak]
  split
  · rename_i hf
    have hf' : l.inFlow = true := hf
    simp [move, hf']
  · rename_i hf
    have hf' : l.inFlow = false := Bool.eq_false_iff.mpr hf
    simp [move, allowKey, hf']

theorem skipSpaceLoop_gap {cols : List Nat} {text : List Char} (ht : Solid text) :
    ∀ (fuel : Nat) {gap : List Char} (l : Lexer), IsSpace cols gap → (cols = [] → l.indent ≤ 0) →
      l.cursor.rest = gap ++ text → gap.length < fuel →
      ∃ c, skipSpaceLoop fuel l = .ok { l with cursor := c, keyAllowed := l.keyAfter gap } ∧
        l.Passed gap text c := by
  intro fuel
  induction fuel with
  | zero => intro gap l _ _ _ hf; exact absurd hf (Nat.not_lt_zero _)
  | succ n ih =>
    intro gap l hg hi hl hf
    cases gap with
    | nil =>
      rw [List.nil_append] at hl
      refine ⟨l.cursor.look 1, ?_, hl, rfl, fun _ => rfl⟩
      rw [skipSpaceLoop_solid (hl ▸ ht)]
      simp [keyAfter, move]
    | cons c gap =>
      have hn : gap.length < n := by simpa using hf
      have hgap : IsSpace cols gap := hg.mono fun x hx => List.mem_cons_of_mem _ hx
      have hhead : (l.move (l.cursor.look 1)).cursor.head? = some c := by
        simp [move, Cursor.head?, hl]
      have htab : (l.move (l.cursor.look 1)).tabIndents = false := tabIndents_of_space hg hi hhead
      rw [skipSpaceLoop]
      simp only [htab, hhead, Bool.false_eq_true, if_false]
      by_cases hb : isBlank c = true
      · -- a blank
        have hbr := isBreak_of_isBlank hb
        obtain ⟨d, hd, hp⟩ := ih (l.move ((l.cursor.look 1).pass 1)) hgap hi
          (by simp [move, Cursor.pass, hl]) hn
        refine ⟨d, ?_, hp.rest_eq, ?_, fun hnl => ?_⟩
        · simpa [hb, hbr, move, keyAfter, inFlow] using hd
        · rw [hp.column_eq, columnAfter, hbr]
          rfl
        · rw [List.any_cons, hbr, Bool.false_or] at hnl
          rw [hp.mark_eq hnl]
          simp [move, Cursor.pass, Cursor.look, Nat.add_comm 1]
      · -- a line break, which may be two characters
        have hbr : isBreak c = true := by
          have h := (hg c (by simp)).1
          rw [isGap, Bool.or_eq_true] at h
          exact h.resolve_left hb
        obtain ⟨gap', hgap', hrest, hcolumn⟩ :=
          passBreak_gap ht (show ((l.cursor.look 1).look 2).rest = c :: (gap ++ text) from hl)
        have hsub : gap' <:+ gap := by
          rcases hgap' with rfl | rfl
          · exact List.suffix_rfl
          · exact List.suffix_cons _ _
        obtain ⟨d, hd, hp⟩ := ih (l.move (l.cursor.look 1)).skipBreak
          (hgap.mono fun _ hx => hsub.mem hx) (by rw [skipBreak_eq]; exact hi)
          (by rw [skipBreak_eq]; exact hrest) (by have := hsub.length_le; omega)
        rw [skipBreak_eq] at hd hp
        refine ⟨d, ?_, hp.rest_eq, ?_, fun hnl => ?_⟩
        · simp only [hb, hbr, Bool.false_eq_true, if_false, if_true, skipBreak_eq]
          rw [hd]
          simp only [move, keyAfter, inFlow, List.any_cons, hbr, Bool.true_or]
          cases l.keyAllowed <;> cases l.flowDepth != 0 <;> simp
        · rw [hp.column_eq]
          show columnAfter ((l.cursor.look 1).look 2).passBreak.mark.column gap' = _
          rw [hcolumn, columnAfter, if_pos hbr]
          rcases hgap' with rfl | rfl
          · rfl
          · rfl
        · rw [List.any_cons, hbr] at hnl
          cases hnl

/-- Blanks behind a token of a lexer are passed. -/
theorem skipTrailing_gap {l : Lexer} {cols : List Nat} {gap text : List Char} (hg : IsSpace cols gap)
    (ht : Solid text) (hl : l.cursor.rest = gap ++ text) :
    ∃ d left, l.skipTrailing = .ok (l.move d) ∧ l.cursor.Trailed d gap left text := by
  obtain ⟨tr, left, htr, -, htrail, -⟩ := trailing_gap hg ht hl true fun h => absurd h (by decide)
  refine ⟨tr.cursor, left, ?_, htrail⟩
  rw [skipTrailing, htr]
  rfl

/-- Blanks and line breaks are passed up to the next token. -/
theorem skipSpace_gap {l : Lexer} {cols : List Nat} {gap text : List Char} (hg : IsSpace cols gap)
    (hi : cols = [] → l.indent ≤ 0) (ht : Solid text) (hl : l.cursor.rest = gap ++ text) :
    ∃ c, l.skipSpace = .ok { l with cursor := c, keyAllowed := l.keyAfter gap } ∧
      l.Passed gap text c :=
  skipSpaceLoop_gap ht _ l hg hi hl (by rw [hl]; grind)

end Lexer

end TaggedYaml
