import TaggedYaml.Proofs.Scan.Space
import TaggedYaml.Token.Block
import TaggedYaml.Tree.Write

/-!
# Literal blocks are read line by line

`rows` are the lines of a block as they are written.  Between two lines the reader passes empty lines
and the indentation of the next one (`passEmptyLines`); what it has read by then, with the breaks it
still has to write, is what was written (`readBlockLines_rows`).
-/

namespace TaggedYaml

/-- The lines of a literal block as they are written. -/
def rows (indent : Nat) (lines : List (List Char)) : List Char :=
  lines.flatMap fun line => (if line.isEmpty then [] else pad indent ++ line) ++ ['\n']

theorem blockLines_eq (indent : Nat) (body : List Char) :
    blockLines indent body = rows indent (splitLines body) := rfl

theorem rows_cons {indent : Nat} {line : List Char} (h : line ≠ []) (lines : List (List Char)) :
    rows indent (line :: lines) = pad indent ++ (line ++ '\n' :: rows indent lines) := by
  simp [rows, h]

theorem length_le_rows (indent : Nat) (lines : List (List Char)) :
    lines.length ≤ (rows indent lines).length := by
  induction lines with
  | nil => exact Nat.le_refl _
  | cons line lines ih =>
    simp only [rows, List.flatMap_cons, List.length_append, List.length_cons] at ih ⊢
    omega

/-! ### Lines of a text -/

/-- A text by its lines. -/
theorem splitLines_join (s : List Char) :
    ∃ line lines, splitLines s = line :: lines ∧ s = line ++ lines.flatMap ('\n' :: ·) := by
  induction s with
  | nil => exact ⟨[], [], rfl, rfl⟩
  | cons c s ih =>
    obtain ⟨line, lines, hsplit, hs⟩ := ih
    by_cases hc : c = '\n'
    · refine ⟨[], line :: lines, ?_, ?_⟩
      · simp [splitLines, hc, hsplit]
      · simp [hc, ← hs]
    · refine ⟨c :: line, lines, ?_, ?_⟩
      · simp [splitLines, hc, hsplit]
      · rw [List.cons_append, ← hs]

/-- The lines of a text are made of its characters, but of no line feeds. -/
theorem mem_splitLines {s line : List Char} (h : line ∈ splitLines s) :
    ∀ c ∈ line, c ∈ s ∧ c ≠ '\n' := by
  induction s generalizing line with
  | nil =>
    obtain rfl : line = [] := by simpa [splitLines] using h
    intro c hc
    simp at hc
  | cons x s ih =>
    obtain ⟨first, lines, hsplit, -⟩ := splitLines_join s
    rw [hsplit] at ih
    by_cases hx : x = '\n'
    · simp only [splitLines, hx, beq_self_eq_true, if_true, hsplit, List.mem_cons] at h
      intro c hc
      rcases h with rfl | h
      · simp at hc
      · obtain ⟨h1, h2⟩ := ih (List.mem_cons.mpr h) c hc
        exact ⟨List.mem_cons_of_mem _ h1, h2⟩
    · have hne : (x == '\n') = false := by simpa using hx
      simp only [splitLines, hne, Bool.false_eq_true, if_false, hsplit, List.mem_cons] at h
      intro c hc
      rcases h with rfl | h
      · rcases List.mem_cons.mp hc with rfl | hc
        · exact ⟨List.mem_cons_self .., hx⟩
        · obtain ⟨h1, h2⟩ := ih (List.mem_cons_self ..) c hc
          exact ⟨List.mem_cons_of_mem _ h1, h2⟩
      · obtain ⟨h1, h2⟩ := ih (List.mem_cons_of_mem _ h) c hc
        exact ⟨List.mem_cons_of_mem _ h1, h2⟩

/-! ### Indentation -/

theorem passWideIndent_spaces {k : Nat} {u : List Char} :
    ∀ (j : Nat) (c : Cursor), c.mark.column + j ≤ k →
      (c.mark.column + j < k → u.head? ≠ some ' ') → c.rest = pad j ++ u →
      (passWideIndent k c.rest c).rest = u ∧
        (passWideIndent k c.rest c).mark = c.mark.right j
  | 0, c, hk, hu, hr => by
    have hr' : c.rest = u := by simpa [pad] using hr
    rw [hr']
    cases u with
    | nil =>
      simp only [passWideIndent]
      split
      · exact ⟨hr', rfl⟩
      · split
        · exact ⟨hr', rfl⟩
        · exact ⟨hr', rfl⟩
    | cons x u =>
      by_cases hx : x = ' '
      · subst hx
        have hcol : ¬ c.mark.column < k := by
          intro hlt
          exact hu (by omega) rfl
        rw [passWideIndent, if_neg hcol]
        exact ⟨hr', rfl⟩
      · rw [passWideIndent]
        · split
          · exact ⟨hr', rfl⟩
          · split
            · exact ⟨hr', rfl⟩
            · exact ⟨hr', rfl⟩
        · intro rest heq
          exact hx (List.cons.inj heq).1
  | j + 1, c, hk, hu, hr => by
    have hcol : c.mark.column < k := by omega
    have hr' : c.rest = ' ' :: (pad j ++ u) := by
      rw [hr]
      rfl
    obtain ⟨d, hd, hdr, hdm⟩ : ∃ d : Cursor,
        d = (if c.ahead = 0 then c.look blockWindow else c).pass 1 ∧ d.rest = pad j ++ u ∧
          d.mark = c.mark.right 1 := by
      refine ⟨_, rfl, ?_, ?_⟩
      · split <;> simp [hr']
      · split <;> rfl
    have hdc : d.mark.column = c.mark.column + 1 := by
      rw [hdm]
      rfl
    have hrest := passWideIndent_spaces (k := k) j d (by omega) (fun hlt => hu (by omega)) hdr
    rw [hdm, Mark.right_right, Nat.add_comm 1, hdr] at hrest
    rw [hr', passWideIndent, if_pos hcol, ← hd]
    exact hrest

/-- Spaces are passed up to a column. -/
theorem passIndent_spaces {j k : Nat} {u : List Char} {c : Cursor} (hc : c.mark.column = 0)
    (hj : j ≤ k) (hu : j < k → u.head? ≠ some ' ') (hr : c.rest = pad j ++ u) :
    (passIndent k c).rest = u ∧ (passIndent k c).mark = c.mark.right j := by
  unfold passIndent
  by_cases hk : k < blockWindow - 2
  · have hrun : j ≤ ((c.look blockWindow).run (· == ' ')).length := by
      rw [Cursor.run, Cursor.rest_look, hr, pad, List.takeWhile_append_of_pos]
      · simp
      · intro x hx
        simpa using List.eq_of_mem_replicate hx
    have hmin : min (k - c.mark.column) ((c.look blockWindow).run (· == ' ')).length = j := by
      rw [hc]
      by_cases hlt : j < k
      · have hstop : u.takeWhile (· == ' ') = [] := by
          cases u with
          | nil => rfl
          | cons x u =>
            have hx : x ≠ ' ' := fun h => hu hlt (by rw [h]; rfl)
            simp [hx]
        have hlen : ((c.look blockWindow).run (· == ' ')).length = j := by
          rw [Cursor.run, Cursor.rest_look, hr, pad, List.takeWhile_append_of_pos, hstop]
          · simp
          · intro x hx
            simpa using List.eq_of_mem_replicate hx
        omega
      · omega
    simp only [hk, if_true, Cursor.mark_look, hmin]
    constructor
    · rw [Cursor.rest_pass, Cursor.rest_look, hr, pad, List.drop_left' (by simp)]
    · rfl
  · simp only [hk, if_false]
    have h := passWideIndent_spaces (k := k) (u := u) j (c.look blockWindow)
      (by simpa [hc] using hj) (by simpa [hc] using hu) hr
    exact h

/-! ### Empty lines -/

/-- The place before the next line with text, behind empty lines. -/
theorem passEmptyLines_stop {j k : Nat} {u : List Char} {c : Cursor} (hc : c.mark.column = 0)
    (hj : j ≤ k) (hu : j < k → u.head? ≠ some ' ') (hb : u.head?.any isBreak = false)
    (hr : c.rest = pad j ++ u) (fuel n : Nat) :
    ∃ d, passEmptyLines k (fuel + 1) n c = (n, d) ∧ d.rest = u ∧ d.mark.column = j := by
  obtain ⟨h1, h2⟩ := passIndent_spaces hc hj hu hr
  refine ⟨passIndent k c, ?_, h1, ?_⟩
  · have hhead : (passIndent k c).head?.any isBreak = false := by
      rw [Cursor.head?, h1, hb]
    simp [passEmptyLines, hhead]
  · rw [h2]
    simp [Mark.right, hc]

theorem passEmptyLines_lineFeed {k : Nat} {u : List Char} {c : Cursor} (hc : c.mark.column = 0)
    (hr : c.rest = '\n' :: u) (fuel n : Nat) :
    ∃ d, passEmptyLines k (fuel + 1) n c = passEmptyLines k fuel (n + 1) d ∧ d.rest = u ∧
      d.mark.column = 0 := by
  obtain ⟨h1, -⟩ := passIndent_spaces (j := 0) (k := k) (u := '\n' :: u) hc (Nat.zero_le _)
    (fun _ => by simp) hr
  have hhead : (passIndent k c).head?.any isBreak = true := by
    have hb : isBreak '\n' = true := by decide
    simp [Cursor.head?, h1, hb]
  have hrest : ((passIndent k c).look 2).rest = '\n' :: u := h1
  refine ⟨((passIndent k c).look 2).passBreak, ?_, ?_, ?_⟩
  · simp [passEmptyLines, hhead]
  · rw [passBreak_lineFeed hrest]
  · rw [passBreak_lineFeed hrest]
    rfl

/-! ### Lines -/

theorem passContent_line {line tail : List Char} {c : Cursor} (hl : ∀ x ∈ line, isBreak x = false)
    (hr : c.rest = line ++ '\n' :: tail) :
    (passContent c).1 = line ∧ (passContent c).2.rest = '\n' :: tail := by
  have hrun : c.run (!isBreak ·) = line := by
    rw [Cursor.run, hr, List.takeWhile_append_of_pos]
    · have hb : isBreak '\n' = true := by decide
      simp [hb]
    · intro x hx
      simp [hl x hx]
  have hdrop : (c.pass line.length).rest = '\n' :: tail := by
    rw [Cursor.rest_pass, hr, List.drop_left]
  unfold passContent
  simp only [hrun]
  split
  · exact ⟨rfl, hdrop⟩
  · exact ⟨rfl, hdrop⟩

/-- A line with text is read, and the reader comes to the lines behind it. -/
theorem readBlockLines_line {k : Nat} (fuel : Nat) (e : LineEnd) (text : List Char)
    {line tail : List Char} {c : Cursor} (hk : k ≠ 0) (hl : ∀ x ∈ line, isBreak x = false) (hne : line ≠ [])
    (hc : c.mark.column = k) (hr : c.rest = line ++ '\n' :: tail) :
    ∃ d blank, d.rest = tail ∧ d.mark.column = 0 ∧
      readBlockLines false k (fuel + 1) e text c =
        readBlockLines false k fuel
          ⟨true, (passEmptyLines k (tail.length + 2) 0 d).1, blank⟩
          (line.reverse ++ ((e.join false blank).reverse ++ text))
          (passEmptyLines k (tail.length + 2) 0 d).2 := by
  have hstop : (c.mark.column != k || c.rest.isEmpty) = false := by
    cases line with
    | nil => exact absurd rfl hne
    | cons x line => simp [hc, hr]
  obtain ⟨h1, h2⟩ := passContent_line hl hr
  have h2' : ((passContent c).2.look 2).rest = '\n' :: tail := h2
  have hmore : ((passContent c).2.look 2).rest.isEmpty = false := by rw [h2']; rfl
  have hlen : ((passContent c).2.look 2).rest.length + 1 = tail.length + 2 := by rw [h2']; rfl
  refine ⟨((passContent c).2.look 2).passBreak, c.head?.any isBlank, ?_, ?_, ?_⟩
  · rw [passBreak_lineFeed h2']
  · rw [passBreak_lineFeed h2']
    rfl
  · rw [readBlockLines, hstop]
    have hpair : passContent c = (line, (passContent c).2) := by rw [← h1]
    simp only [Bool.false_eq_true, if_false, hk, decide_false, Bool.false_and]
    rw [hpair]
    simp only [hmore, Bool.false_eq_true, if_false, hlen]

/-- The text that ends a block behind its lines. -/
structure EndsBlock (k m : Nat) (t : List Char) : Prop where
  lt : m < k
  solid : Solid t

theorem EndsBlock.stop {k m : Nat} {t : List Char} (h : EndsBlock k m t) :
    (m < k → t.head? ≠ some ' ') ∧ t.head?.any isBreak = false := by
  cases t with
  | nil => simp
  | cons x t =>
    have hx := (h.solid x rfl).1
    simp only [isGap, Bool.or_eq_false_iff] at hx
    refine ⟨fun _ hsp => ?_, by simpa using hx.2⟩
    obtain rfl : x = ' ' := by simpa using hsp
    simp [isBlank] at hx

theorem join_literal (e : LineEnd) (blank : Bool) :
    e.join false blank = List.replicate ((if e.pending then 1 else 0) + e.empty) '\n' := by
  simp [LineEnd.join]

/-- From behind a line the reader comes to the end of a block, and it has read the lines between
but for the breaks at the end. -/
theorem readBlockLines_rows {k m : Nat} {t : List Char} (hend : EndsBlock k m t)
    {lines : List (List Char)} (hl : ∀ line ∈ lines, ∀ x ∈ line, isBreak x = false) :
    ∀ (fuel fuel' n : Nat) (blank : Bool) (text : List Char) (c : Cursor), c.mark.column = 0 →
      c.rest = rows k lines ++ (pad m ++ t) → lines.length < fuel → lines.length < fuel' →
      ∃ n' blank' text' d,
        readBlockLines false k fuel' ⟨true, (passEmptyLines k fuel n c).1, blank⟩ text
          (passEmptyLines k fuel n c).2 = (⟨true, n', blank'⟩, text', d) ∧
        d.rest = t ∧ d.mark.column = m ∧
        text'.reverse ++ List.replicate n' '\n' =
          text.reverse ++ (List.replicate n '\n' ++ lines.flatMap ('\n' :: ·)) := by
  have hk : k ≠ 0 := Nat.ne_of_gt (Nat.zero_lt_of_lt hend.lt)
  induction lines with
  | nil =>
    intro fuel fuel' n blank text c hc hr hf hf'
    obtain ⟨fuel, rfl⟩ : ∃ f, fuel = f + 1 := ⟨fuel - 1, by omega⟩
    obtain ⟨fuel', rfl⟩ : ∃ f, fuel' = f + 1 := ⟨fuel' - 1, by omega⟩
    obtain ⟨d, hd, hdr, hdc⟩ := passEmptyLines_stop hc (Nat.le_of_lt hend.lt) hend.stop.1
      hend.stop.2 hr fuel n
    refine ⟨n, blank, text, d, ?_, hdr, hdc, by simp⟩
    have hstop : (d.mark.column != k || d.rest.isEmpty) = true := by
      have hne : d.mark.column ≠ k := by
        rw [hdc]
        exact Nat.ne_of_lt hend.lt
      simp [hne]
    rw [hd, readBlockLines, if_pos hstop]
  | cons line lines ih =>
    have hlines : ∀ line ∈ lines, ∀ x ∈ line, isBreak x = false := fun l hm =>
      hl l (List.mem_cons_of_mem _ hm)
    intro fuel fuel' n blank text c hc hr hf hf'
    rw [List.length_cons] at hf hf'
    obtain ⟨fuel, rfl⟩ : ∃ f, fuel = f + 1 := ⟨fuel - 1, by omega⟩
    by_cases hline : line = []
    · -- an empty line
      subst hline
      obtain ⟨d, hd, hdr, hdc⟩ := passEmptyLines_lineFeed (k := k) hc hr fuel n
      obtain ⟨n', blank', text', e, he, her, hec, htext⟩ := ih hlines fuel fuel' (n + 1) blank text d
        hdc hdr (by omega) (by omega)
      refine ⟨n', blank', text', e, by rw [hd]; exact he, her, hec, ?_⟩
      rw [htext, List.replicate_succ']
      simp
    · -- a line with text
      obtain ⟨fuel', rfl⟩ : ∃ f, fuel' = f + 1 := ⟨fuel' - 1, by omega⟩
      have hbreak := hl line (List.mem_cons_self ..)
      rw [rows_cons hline, List.append_assoc, List.append_assoc] at hr
      obtain ⟨d, hd, hdr, hdc⟩ := passEmptyLines_stop hc (Nat.le_refl k)
        (fun h => absurd h (Nat.lt_irrefl _))
        (by
          cases line with
          | nil => exact absurd rfl hline
          | cons x line => simpa using hbreak x (by simp)) hr fuel n
      obtain ⟨e, blank₁, her, hec, hread⟩ := readBlockLines_line fuel'
        ⟨true, n, blank⟩ text hk hbreak hline hdc hdr
      have hlen := length_le_rows k lines
      obtain ⟨n', blank', text', d', hd', hdr', hdc', htext⟩ := ih hlines
        ((rows k lines ++ (pad m ++ t)).length + 2) fuel' 0 blank₁
        (line.reverse ++ (((⟨true, n, blank⟩ : LineEnd).join false blank₁).reverse ++ text)) e hec
        her (by simp only [List.length_append]; omega) (by omega)
      refine ⟨n', blank', text', d', ?_, hdr', hdc', ?_⟩
      · rw [hd]
        exact hread.trans hd'
      · rw [htext, join_literal]
        simp [Nat.add_comm 1, List.replicate_succ']

/-! ### Blocks -/

/-- The lines of a block are read from the first of them on. -/
theorem readBlockLines_block {k m : Nat} {t : List Char} (hend : EndsBlock k m t)
    {line : List Char} {lines : List (List Char)}
    (hl : ∀ l ∈ line :: lines, ∀ x ∈ l, isBreak x = false) (hne : line ≠ []) (fuel : Nat)
    {c : Cursor} (hc : c.mark.column = k)
    (hr : c.rest = line ++ '\n' :: (rows k lines ++ (pad m ++ t))) (hf : c.rest.length < fuel) :
    ∃ n blank text d,
      readBlockLines false k fuel ⟨false, 0, false⟩ [] c = (⟨true, n, blank⟩, text, d) ∧
      d.rest = t ∧ d.mark.column = m ∧
      text.reverse ++ List.replicate n '\n' = line ++ lines.flatMap ('\n' :: ·) := by
  obtain ⟨fuel, rfl⟩ : ∃ f, fuel = f + 1 := ⟨fuel - 1, by omega⟩
  have hlen := length_le_rows k lines
  have hlt : (rows k lines ++ (pad m ++ t)).length < c.rest.length := by
    rw [hr]
    simp only [List.length_append, List.length_cons]
    omega
  obtain ⟨d, blank, hdr, hdc, hread⟩ := readBlockLines_line fuel
    ⟨false, 0, false⟩ [] (Nat.ne_of_gt (Nat.zero_lt_of_lt hend.lt))
    (hl line (List.mem_cons_self ..)) hne hc hr
  rw [List.length_append] at hlt
  obtain ⟨n, blank', text, e, he, her, hec, htext⟩ := readBlockLines_rows hend
    (fun l hm => hl l (List.mem_cons_of_mem _ hm)) ((rows k lines ++ (pad m ++ t)).length + 2) fuel 0
    blank (line.reverse ++ (((⟨false, 0, false⟩ : LineEnd).join false blank).reverse ++ [])) d hdc
    hdr (by simp only [List.length_append]; omega) (by omega)
  refine ⟨n, blank', text, e, hread.trans he, her, hec, ?_⟩
  rw [htext, join_literal]
  simp

/-- The indentation of the first line is found. -/
theorem findIndent_line {k : Nat} {u : List Char} {c : Cursor} (hc : c.mark.column = 0)
    (hu : ∃ x r, u = x :: r ∧ x ≠ ' ' ∧ isBreak x = false) (hr : c.rest = pad k ++ u) (fuel : Nat) :
    ∃ d, findIndent (fuel + 1) 0 0 c = (k, 0, d) ∧ d.rest = u ∧ d.mark.column = k := by
  obtain ⟨x, r, rfl, hx, hb⟩ := hu
  obtain ⟨-, hrest, hmark⟩ := passBlanks_blanks (p := (· == ' '))
    (fun y hy => by simpa using List.eq_of_mem_replicate hy) (by simp [hx]) hr
  have hcol : (c.passBlanks (· == ' ')).mark.column = k := by
    rw [hmark]
    simp [Mark.right, hc, pad]
  have hhead : (c.passBlanks (· == ' ')).head?.any isBreak = false := by
    simp [Cursor.head?, hrest, hb]
  refine ⟨c.passBlanks (· == ' '), ?_, hrest, hcol⟩
  simp [findIndent, hhead, hcol]

/-- The indentation of a block is that of its first line, and it has no tab. -/
theorem findIndent_rows {k : Nat} {line tail : List Char} {lines : List (List Char)} {c : Cursor}
    (hk : k ≠ 0) (hl : ∀ x ∈ line, isBreak x = false) (hne : ∃ x r, line = x :: r ∧ x ≠ ' ')
    (hc : c.mark.column = 0) (hr : c.rest = rows k (line :: lines) ++ tail) :
    (c.head? == some '\t') = false ∧
      ∃ d, findIndent (c.rest.length + 1) 0 0 c = (k, 0, d) ∧
        d.rest = line ++ '\n' :: (rows k lines ++ tail) ∧ d.mark.column = k := by
  obtain ⟨x, r, hxr, hx⟩ := hne
  have hline : line ≠ [] := by simp [hxr]
  have hr' : c.rest = pad k ++ (line ++ '\n' :: (rows k lines ++ tail)) := by
    rw [hr, rows_cons hline]
    simp
  constructor
  · obtain ⟨j, rfl⟩ := Nat.exists_eq_succ_of_ne_zero hk
    simp [Cursor.head?, hr', pad, List.replicate_succ]
  · exact findIndent_line hc
      ⟨x, r ++ '\n' :: (rows k lines ++ tail), by simp [hxr], hx, hl x (by simp [hxr])⟩ hr' _

/-! ### The line of the indicators -/

theorem trailing_lineFeed {c : Cursor} {u : List Char} (hr : c.rest = '\n' :: u) (tabs : Bool) :
    ∃ tr, c.trailing tabs = .ok tr ∧ tr.cursor.rest = '\n' :: u := by
  obtain ⟨hrun, hrest, -⟩ := passBlanks_blanks (p := fun x => x == ' ' || (tabs && x == '\t'))
    (fun b hb => absurd hb List.not_mem_nil) (by simp) (show c.rest = [] ++ '\n' :: u from hr)
  have hhead : ((c.passBlanks fun x => x == ' ' || (tabs && x == '\t')).head? == some '#') = false := by
    simp [Cursor.head?, hrest]
  refine ⟨⟨false, false, c.passBlanks fun x => x == ' ' || (tabs && x == '\t')⟩, ?_, hrest⟩
  rw [Cursor.trailing]
  simp only [hhead, hrun, Bool.false_eq_true, if_false, List.contains_nil]

/-- A chomping indicator as it is written. -/
def Chomp.text : Chomp → List Char
  | .clip => []
  | .strip => ['-']
  | .keep => ['+']

theorem readBlockHeader_chomp (k : Chomp) (tail : List Char) :
    readBlockHeader (k.text ++ '\n' :: tail) = .ok ⟨k, none, k.text.length⟩ := by
  have hd : Char.isDigit '\n' = false := by decide
  cases k <;> simp [readBlockHeader, Chomp.text, chomp?, hd] <;> rfl

/-- Behind its indicators the first line of a block is over. -/
theorem trailing_header (k : Chomp) {c : Cursor} {u : List Char} (hr : c.rest = k.text ++ '\n' :: u) :
    ∃ tr, (if k.text.length = 0 then c else (c.passInk k.text.length).look 1).trailing true = .ok tr ∧
      tr.cursor.rest = '\n' :: u := by
  refine trailing_lineFeed ?_ true
  split
  · rename_i h0
    have htext : k.text = [] := List.length_eq_zero_iff.mp h0
    simpa [htext] using hr
  · simp [hr]

/-! ### Chomping -/

/-- What is read of a block by the chomping indicator and the empty lines at its end. -/
def Chomp.tail (k : Chomp) (empty : Nat) : List Char :=
  (⟨true, empty, false⟩ : LineEnd).tail k false

theorem LineEnd.tail_eq (k : Chomp) (empty : Nat) (blank : Bool) :
    (⟨true, empty, blank⟩ : LineEnd).tail k false = k.tail empty := by
  cases k <;> rfl

end TaggedYaml
