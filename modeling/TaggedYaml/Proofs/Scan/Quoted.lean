import Mathlib.Data.List.Basic
import Mathlib.Data.List.Forall2
import TaggedYaml.Proofs.Scan.Plain

/-!
# Quoted text is read character by character

Quoted text is written in units, each for one character: a blank that stands for itself, or something
that a reader takes for the character wherever it stands (`Ink`).  `readQuoted_written` reads back the
units of a whole text; the writers of single and double quotes and of JSON strings are of this kind.
-/

namespace TaggedYaml

/-- A unit between quotes that is read as a character, wherever it stands in a word. -/
structure Ink (quote : Char) (c : Char) (unit : List Char) : Prop where
  head : ∃ x r, unit = x :: r ∧ isGap x = false
  read : ∀ text n rest, readQuotedWord quote text n 0 0 (unit ++ rest) =
    readQuotedWord quote (c :: text) (n + unit.length) 0 0 rest

/-- A blank that stands for itself between two words. -/
def IsRaw (c : Char) (unit : List Char) : Prop := isBlank c = true ∧ unit = [c]

/-- A text whose characters are written as blanks and units. -/
def Written (quote : Char) (s : List Char) (units : List (List Char)) : Prop :=
  List.Forall₂ (fun c unit => IsRaw c unit ∨ Ink quote c unit) s units

/-- What may follow a closing quote. -/
def QuoteEnd (quote : Char) (tail : List Char) : Prop := quote = '\'' → tail.head? ≠ some '\''

section

variable {quote : Char} {tail : List Char}

theorem Ink.ne_nil {u : List Char} {c : Char} (h : Ink quote c u) : u ≠ [] := by
  obtain ⟨x, r, rfl, -⟩ := h.head
  exact List.cons_ne_nil x r

/-- The units of a word are read one by one. -/
theorem readQuotedWord_units {w : List Char} {us : List (List Char)}
    (hw : List.Forall₂ (Ink quote) w us) :
    ∀ (text : List Char) (n : Nat) (rest : List Char),
      readQuotedWord quote text n 0 0 (us.flatten ++ rest) =
        readQuotedWord quote (w.reverse ++ text) (n + us.flatten.length) 0 0 rest := by
  induction hw with
  | nil => intro text n rest; rfl
  | cons hc _ ih =>
    intro text n rest
    rw [List.flatten_cons, List.append_assoc, hc.read, ih]
    simp [Nat.add_assoc]

theorem readQuotedWord_gap {x : Char} (hx : isGap x = true) (text : List Char) (n : Nat)
    (rest : List Char) :
    readQuotedWord quote text n 0 0 (x :: rest) = .ok ⟨text, n, false⟩ := by
  rw [readQuotedWord.eq_def]
  simp [hx]

theorem readQuotedWord_quote (hq : isGap quote = false) (ht : QuoteEnd quote tail)
    (text : List Char) (n : Nat) :
    readQuotedWord quote text n 0 0 (quote :: tail) = .ok ⟨text, n, false⟩ := by
  rw [readQuotedWord.eq_def]
  simp only [hq, Bool.false_eq_true, if_false, beq_self_eq_true, if_true]
  split
  · rename_i rest
    by_cases hs : quote = '\''
    · exact absurd rfl (ht hs)
    · simp [hs]
  · rfl

/-- Blanks between two words are read as they are. -/
theorem readQuotedGapLoop_blanks (indent : Int) {bs u : List Char}
    (hb : ∀ b ∈ bs, isBlank b = true) (hu : ∃ x r, u = x :: r ∧ isGap x = false) :
    ∀ (fuel : Nat) (g : Gap) (c : Cursor), g.leading = false → c.rest = bs ++ u →
      bs.length < fuel →
      ∃ d, readQuotedGapLoop indent fuel g c = .ok (bs.foldl Gap.addBlank g, d) ∧
        c.Along bs.length u d := by
  induction bs with
  | nil =>
    intro fuel g c _ hc hf
    obtain ⟨n, rfl⟩ : ∃ n, fuel = n + 1 := ⟨fuel - 1, by simp at hf; omega⟩
    obtain ⟨x, r, rfl, hx⟩ := hu
    have hhead : c.head? = some x := by simp [Cursor.head?, hc]
    simp only [isGap, Bool.or_eq_false_iff] at hx
    refine ⟨c, ?_, hc, by simp, rfl⟩
    rw [readQuotedGapLoop]
    simp [hhead, hx.1, hx.2]
  | cons b bs ih =>
    intro fuel g c hg hc hf
    obtain ⟨n, rfl⟩ : ∃ n, fuel = n + 1 := ⟨fuel - 1, by simp at hf; omega⟩
    have hb1 := hb b (by simp)
    have hhead : c.head? = some b := by simp [Cursor.head?, hc]
    obtain ⟨d, hd, ha⟩ := ih (fun x hx => hb x (List.mem_cons_of_mem _ hx)) n (g.addBlank b)
      ((c.pass 1).look 1) (by simp [Gap.addBlank, hg]) (by simp [hc]) (by simpa using hf)
    refine ⟨d, ?_, ha.rest_eq, ?_, ha.leading_eq⟩
    · rw [readQuotedGapLoop]
      simp only [hhead, hb1, hg, Bool.false_and, Bool.false_eq_true, if_false, if_true]
      exact hd
    · rw [ha.mark_eq]
      simp [Cursor.pass, Cursor.look, Nat.add_comm 1]

/-- A text begins with a word; if it goes on, then with blanks and a text that does not begin with
one. -/
structure Written.Split (quote : Char) (s : List Char) (units : List (List Char)) (w : List Char)
    (us : List (List Char)) (bs u : List Char) (vs : List (List Char)) : Prop where
  text_eq : s = w ++ (bs ++ u)
  units_eq : units = us ++ (bs.map (fun b => [b]) ++ vs)
  word : List.Forall₂ (Ink quote) w us
  blanks : ∀ b ∈ bs, isBlank b = true
  rest : Written quote u vs
  next : ∀ v ∈ vs.head?, ∃ x r, v = x :: r ∧ isGap x = false
  last : bs = [] → u = []

theorem Written.Split.flatten_eq {s w bs u : List Char} {units us vs : List (List Char)}
    (h : Written.Split quote s units w us bs u vs) :
    units.flatten = us.flatten ++ (bs ++ vs.flatten) := by
  rw [h.units_eq, List.flatten_append, List.flatten_append, ← List.flatMap_def,
    List.flatMap_singleton']

/-- Behind the blanks stands a word or the closing quote. -/
theorem Written.Split.next_quote {s w bs u : List Char} {units us vs : List (List Char)}
    (h : Written.Split quote s units w us bs u vs) (hq : isGap quote = false) :
    ∃ x r, vs.flatten ++ quote :: tail = x :: r ∧ isGap x = false := by
  cases vs with
  | nil => exact ⟨quote, tail, rfl, hq⟩
  | cons v vs =>
    obtain ⟨x, r, rfl, hx⟩ := h.next v rfl
    exact ⟨x, r ++ (vs.flatten ++ quote :: tail), by simp, hx⟩

theorem Written.split {s : List Char} {units : List (List Char)} (h : Written quote s units) :
    ∃ w us bs u vs, Written.Split quote s units w us bs u vs := by
  induction h with
  | nil => exact ⟨[], [], [], [], [], rfl, rfl, .nil, by simp, .nil, by simp, fun _ => rfl⟩
  | @cons c unit s units hc hs ih =>
    obtain ⟨w, us, bs, u, vs, h⟩ := ih
    rcases hc with ⟨hb, rfl⟩ | hink
    · cases us with
      | nil =>
        -- one more blank
        obtain rfl : w = [] := List.forall₂_nil_right_iff.mp h.word
        exact ⟨[], [], c :: bs, u, vs, by simp [h.text_eq], by simp [h.units_eq], .nil,
          List.forall_mem_cons.mpr ⟨hb, h.blanks⟩, h.rest, h.next, fun h0 => by simp at h0⟩
      | cons ux us =>
        -- a blank in front of a word
        obtain ⟨x, w', hx, -, rfl⟩ := List.forall₂_cons_right_iff.mp h.word
        refine ⟨[], [], [c], s, units, by simp, by simp, .nil, by simpa using hb, hs, fun v hv => ?_,
          fun h0 => by simp at h0⟩
        obtain rfl : ux = v := by simpa [h.units_eq] using hv
        exact hx.head
    · exact ⟨c :: w, unit :: us, bs, u, vs, by simp [h.text_eq], by simp [h.units_eq],
        .cons hink h.word, h.blanks, h.rest, h.next, h.last⟩

theorem readQuotedLoop_word (indent : Int) (start : Mark) (fuel : Nat) {text : List Char}
    {c : Cursor} {w : QuotedWord} (hcol : c.mark.column ≠ 0) (hne : c.rest ≠ [])
    (hi : indent ≤ c.mark.column) (hw : readQuotedWord quote text 0 0 0 c.rest = .ok w)
    (hb : w.atEscapedBreak = false) :
    readQuotedLoop quote indent start (fuel + 1) text c =
      if (c.passInk w.length).head? = some quote then
        .ok (w.text, ((c.look 4).passInk w.length).look 2)
      else (readQuotedGap indent .empty (((c.look 4).passInk w.length).look 2)).bind fun (g, d) =>
        readQuotedLoop quote indent start fuel (g.text.reverse ++ w.text) d := by
  have h1 : (c.look 4).atDocumentMark = false := by simp [Cursor.atDocumentMark, hcol]
  have h2 : ¬ ((c.look 4).mark.column : Int) < indent := by
    rw [Cursor.mark_look]
    omega
  have h3 : c.rest.isEmpty = false := by simpa using hne
  rw [readQuotedLoop]
  simp only [h1, h2, Cursor.rest_look, h3, Bool.false_eq_true, if_false, hw, hb, beq_iff_eq]
  rfl

/-- The last word is read, up to the closing quote. -/
theorem readQuotedLoop_last (indent : Int) (start : Mark) (fuel : Nat) (text : List Char)
    {w : List Char} {us : List (List Char)} {c : Cursor} (hq : isGap quote = false)
    (ht : QuoteEnd quote tail) (hw : List.Forall₂ (Ink quote) w us)
    (hc : c.rest = us.flatten ++ quote :: tail) (hcol : c.mark.column ≠ 0)
    (hi : indent ≤ c.mark.column) :
    ∃ d, readQuotedLoop quote indent start (fuel + 1) text c = .ok (w.reverse ++ text, d) ∧
      d.rest = quote :: tail ∧ d.mark = c.mark.right us.flatten.length := by
  have hword := readQuotedWord_units hw text 0 (quote :: tail)
  rw [readQuotedWord_quote hq ht, ← hc] at hword
  refine ⟨((c.look 4).passInk us.flatten.length).look 2, ?_, by simp [hc], rfl⟩
  rw [readQuotedLoop_word indent start fuel hcol (by simp [hc]) hi hword rfl, if_pos]
  · simp
  · simp [Cursor.head?, hc]

/-- A word is read with the blanks behind it, and the next round begins. -/
theorem readQuotedLoop_blanks (indent : Int) (start : Mark) (fuel : Nat) (text : List Char)
    {w bs u : List Char} {us : List (List Char)} {c : Cursor} (hq : isGap quote = false)
    (hw : List.Forall₂ (Ink quote) w us) (hbs : bs ≠ []) (hb : ∀ b ∈ bs, isBlank b = true)
    (hu : ∃ x r, u = x :: r ∧ isGap x = false) (hc : c.rest = us.flatten ++ (bs ++ u))
    (hcol : c.mark.column ≠ 0) (hi : indent ≤ c.mark.column) :
    ∃ d, readQuotedLoop quote indent start (fuel + 1) text c =
        readQuotedLoop quote indent start fuel (bs.reverse ++ (w.reverse ++ text)) d ∧
      d.rest = u ∧ d.mark = c.mark.right (us.flatten.length + bs.length) := by
  obtain ⟨b, bs', hbb⟩ := List.exists_cons_of_ne_nil hbs
  have hgap : isGap b = true := isGap_of_isBlank (hb b (by simp [hbb]))
  have hquote : quote ≠ b := by
    rintro rfl
    rw [hgap] at hq
    exact absurd hq (by simp)
  have hword : readQuotedWord quote text 0 0 0 c.rest =
      .ok ⟨w.reverse ++ text, us.flatten.length, false⟩ := by
    rw [hc, readQuotedWord_units hw, hbb, List.cons_append, readQuotedWord_gap hgap, Nat.zero_add]
  have hne : (c.passInk us.flatten.length).head? ≠ some quote := by
    simp [Cursor.head?, hc, hbb, Ne.symm hquote]
  obtain ⟨c₁, hc₁, hrest₁, hmark₁⟩ : ∃ c₁, c₁ = ((c.look 4).passInk us.flatten.length).look 2 ∧
      c₁.rest = bs ++ u ∧ c₁.mark = c.mark.right us.flatten.length :=
    ⟨_, rfl, by simp [hc], by simp⟩
  obtain ⟨d, hd, ha⟩ := readQuotedGapLoop_blanks indent hb hu (c₁.rest.length + 1) .empty c₁ rfl
    hrest₁ (by rw [hrest₁]; grind)
  have hread : readQuotedGap indent .empty c₁ = .ok (bs.foldl Gap.addBlank .empty, d) := hd
  refine ⟨d, ?_, ha.rest_eq, by rw [ha.mark_eq, hmark₁, Mark.right_right]⟩
  rw [readQuotedLoop_word indent start fuel hcol (by simp [hc, hbb]) hi hword rfl, if_neg hne, ← hc₁,
    hread]
  simp only [Except.bind, (Gap.addBlanks bs (g := .empty) rfl).2, Gap.text_empty, List.nil_append]

/-- A quoted text is read back, up to the closing quote. -/
theorem readQuotedLoop_written (indent : Int) (start : Mark) (hq : isGap quote = false)
    (ht : QuoteEnd quote tail) :
    ∀ {k : Nat} {s : List Char} {units : List (List Char)}, s.length ≤ k → Written quote s units →
      ∀ (fuel : Nat) (text : List Char) (c : Cursor),
        c.rest = units.flatten ++ quote :: tail → s.length < fuel → c.mark.column ≠ 0 →
        indent ≤ c.mark.column →
        ∃ d, readQuotedLoop quote indent start fuel text c = .ok (s.reverse ++ text, d) ∧
          d.rest = quote :: tail ∧ d.mark = c.mark.right units.flatten.length := by
  intro k
  induction k with
  | zero =>
    intro s units hk hs fuel text c hc hf hcol hi
    obtain rfl : s = [] := List.length_eq_zero_iff.mp (by omega)
    obtain rfl : units = [] := List.forall₂_nil_left_iff.mp hs
    obtain ⟨n, rfl⟩ : ∃ n, fuel = n + 1 := ⟨fuel - 1, by simp at hf; omega⟩
    exact readQuotedLoop_last indent start n text hq ht .nil hc hcol hi
  | succ k ih =>
    intro s units hk hs fuel text c hc hf hcol hi
    obtain ⟨n, rfl⟩ : ∃ n, fuel = n + 1 := ⟨fuel - 1, by omega⟩
    obtain ⟨w, us, bs, u, vs, hsplit⟩ := hs.split
    obtain rfl := hsplit.text_eq
    rw [hsplit.flatten_eq] at hc ⊢
    by_cases hbs : bs = []
    · -- the last word
      subst hbs
      obtain rfl := hsplit.last rfl
      obtain rfl : vs = [] := List.forall₂_nil_left_iff.mp hsplit.rest
      simp only [List.flatten_nil, List.append_nil] at hc ⊢
      exact readQuotedLoop_last indent start n text hq ht hsplit.word hc hcol hi
    · -- a word, blanks and the rest
      have hpos : 0 < bs.length := List.length_pos_of_ne_nil hbs
      simp only [List.append_assoc] at hc
      obtain ⟨d₁, hnext, hrest, hmark⟩ := readQuotedLoop_blanks indent start n text hq hsplit.word hbs
        hsplit.blanks (hsplit.next_quote hq) hc hcol hi
      have hcol₁ : d₁.mark.column = c.mark.column + (us.flatten.length + bs.length) := by
        rw [hmark]
        rfl
      simp only [List.length_append] at hk hf
      obtain ⟨d, hd, hr, hm⟩ := ih (s := u) (by omega) hsplit.rest n
        (bs.reverse ++ (w.reverse ++ text)) d₁ hrest (by omega) (by omega) (by omega)
      refine ⟨d, ?_, hr, ?_⟩
      · rw [hnext, hd]
        simp
      · rw [hm, hmark, Mark.right_right, List.length_append, List.length_append, Nat.add_assoc]

theorem Written.length_le {s : List Char} {units : List (List Char)} (h : Written quote s units) :
    s.length ≤ units.flatten.length := by
  induction h with
  | nil => exact Nat.le_refl _
  | @cons c unit s units hc _ ih =>
    have hpos : 0 < unit.length := by
      rcases hc with hc | hc
      · simp [hc.2]
      · exact List.length_pos_of_ne_nil hc.ne_nil
    simp only [List.flatten_cons, List.length_append, List.length_cons]
    omega

/-- A quoted text is read back, and the closing quote is left. -/
theorem readQuoted_written {indent : Int} {s : List Char} {units : List (List Char)} {c : Cursor}
    (hq : isGap quote = false) (ht : QuoteEnd quote tail) (hs : Written quote s units)
    (hc : c.rest = quote :: (units.flatten ++ quote :: tail)) (hi : indent ≤ c.mark.column) :
    ∃ d, readQuoted quote indent c = .ok (s.reverse, d) ∧ d.rest = quote :: tail ∧
      d.mark = c.mark.right (1 + units.flatten.length) := by
  have hlen := hs.length_le
  obtain ⟨d, hd, hr, hm⟩ := readQuotedLoop_written indent c.mark hq ht (Nat.le_refl _) hs
    (c.rest.length + 1) [] (c.passInk 1) (by simp [hc])
    (by simp only [hc, List.length_cons, List.length_append]; omega)
    (by simp [Mark.right]) (by simp [Mark.right]; omega)
  refine ⟨d, ?_, hr, by simpa using hm⟩
  rw [readQuoted, hd, List.append_nil]

end

/-- What may follow a quoted scalar on its line. -/
def FollowsQuote (inFlow : Bool) (next : Char) : Prop :=
  next = ':' ∨ inFlow = true ∧ (next = ',' ∨ next = '\x7d' ∨ next = ']')

/-- Behind a quoted scalar its line ends, or something comes that may follow it there. -/
theorem allowsAfterQuoted_of_follows {l : Lexer} {c : Cursor} {left t : List Char}
    (hr : c.rest = left ++ t) (hleft : ∀ x ∈ left.head?, isBreak x = true)
    (hnext : left = [] → ∀ x ∈ t.head?, FollowsQuote l.inFlow x) :
    l.allowsAfterQuoted c.mark.line c = true := by
  rw [Lexer.allowsAfterQuoted, Cursor.head?, hr]
  cases left with
  | cons x left =>
    have hx := hleft x rfl
    simp [hx]
  | nil =>
    have hf := hnext rfl
    cases t with
    | nil => rfl
    | cons x t =>
      show (isBreak x || _ || _) = true
      rcases hf x rfl with rfl | ⟨hin, rfl | rfl | rfl⟩
      · cases l.inFlow <;> simp
      · simp [hin]
      · simp [hin]
      · simp [hin]

/-- A quoted scalar is read with the space behind it. -/
theorem readQuotedScalar_written {quote : Char} {s gap t : List Char} {units : List (List Char)}
    {cols : List Nat} {l : Lexer} (style : Style) (hq : isGap quote = false)
    (hs : Written quote s units) (hg : IsSpace cols gap) (hindent : cols = [] → l.indent ≤ 0)
    (ht : Solid t) (hend : QuoteEnd quote (gap ++ t))
    (hnext : gap.any isBreak = true ∨ ∀ c ∈ t.head?, FollowsQuote l.inFlow c)
    (hl : l.cursor.rest = quote :: (units.flatten ++ quote :: (gap ++ t)))
    (hi : l.indent ≤ l.column) :
    ∃ d, l.readQuotedScalar quote style = .ok (({ l.saveKey with
        cursor := d, keyAllowed := !l.inFlow && gap.any isBreak
        valueOffset := d.mark.offset }).push l.mark (.scalar style (String.ofList s))) ∧
      d.rest = t ∧
      d.mark.column = columnAfter (l.cursor.mark.column + (2 + units.flatten.length)) gap ∧
      (gap.any isBreak = false →
        d.mark = l.cursor.mark.right (2 + units.flatten.length + gap.length)) := by
  obtain ⟨c₁, hread, hrest₁, hmark₁⟩ := readQuoted_written hq hend hs hl hi
  obtain ⟨tr, left, htr, -, htrail, hbreak⟩ := trailing_gap (c := c₁.passInk 1) hg ht
    (by simp [hrest₁]) true fun h => absurd h (by decide)
  have hmark₂ : (c₁.passInk 1).mark = l.cursor.mark.right (2 + units.flatten.length) := by
    rw [Cursor.mark_passInk, hmark₁, Mark.right_right]
    congr 1
    omega
  obtain ⟨bs, hsplit, hbs, hmark₃⟩ := htrail.split
  set l₀ := l.saveKey.allowKey false with hl₀
  have hflow : l₀.inFlow = l.inFlow := by
    show (l.saveKey.flowDepth != 0) = _
    rw [Lexer.flowDepth_saveKey]
    rfl
  have hallow : l₀.allowsAfterQuoted l₀.mark.line tr.cursor = true := by
    have hline : l₀.mark.line = tr.cursor.mark.line := by
      rw [hmark₃, hmark₂, Lexer.mark, hl₀]
      show l.saveKey.cursor.mark.line = _
      rw [Lexer.cursor_saveKey]
      rfl
    rw [hline]
    refine allowsAfterQuoted_of_follows htrail.rest_eq hbreak fun hnil => ?_
    rw [hflow]
    exact hnext.resolve_left (by rw [← htrail.any_eq, hnil, List.any_nil]; exact Bool.false_ne_true)
  have hindent₀ : l₀.indent = l.indent := Lexer.indent_saveKey l
  obtain ⟨d, hskip, hpass⟩ := Lexer.skipSpace_gap (l := l₀.move tr.cursor) (htrail.space hg)
    (fun hc => (show (l₀.move tr.cursor).indent = l.indent from hindent₀) ▸ hindent hc) ht
    htrail.rest_eq
  refine ⟨d, ?_, hpass.rest_eq, ?_, fun hnl => ?_⟩
  · have hkey : (l₀.move tr.cursor).keyAfter left = (!l.inFlow && gap.any isBreak) := by
      show (false || (!l₀.inFlow && left.any isBreak)) = _
      rw [hflow, htrail.any_eq, Bool.false_or]
    have hread' : readQuoted quote l₀.indent l₀.cursor = .ok (s.reverse, c₁) := by
      show readQuoted quote l.saveKey.indent l.saveKey.cursor = _
      rw [Lexer.indent_saveKey, Lexer.cursor_saveKey, hread]
    have hm : l₀.mark = l.mark := by
      show l.saveKey.cursor.mark = _
      rw [Lexer.cursor_saveKey]
      rfl
    rw [hm] at hallow
    rw [Lexer.readQuotedScalar]
    simp only [← hl₀, hread', bind, Except.bind, htr, hallow, hskip, hkey, hm, Bool.not_true,
      Bool.false_eq_true, if_false, pure, Except.pure, List.reverse_reverse]
    rfl
  · rw [hpass.column_eq]
    show columnAfter tr.cursor.mark.column left = _
    rw [htrail.column_eq, hmark₂]
    rfl
  · have hlen : gap.length = bs.length + left.length := by rw [hsplit, List.length_append]
    rw [hpass.mark_eq (htrail.any_eq.trans hnl)]
    show tr.cursor.mark.right left.length = _
    rw [hmark₃, hmark₂, Mark.right_right, Mark.right_right, hlen, Nat.add_assoc]

/-! ### Writers of quoted text -/

/-- A character that is no gap, no quote and no backslash stands for itself. -/
theorem ink_self {quote c : Char} (hg : isGap c = false) (hq : c ≠ quote) (hb : c ≠ '\\') :
    Ink quote c [c] := by
  refine ⟨⟨c, [], rfl, hg⟩, fun text n rest => ?_⟩
  show readQuotedWord quote text n 0 0 (c :: rest) = _
  rw [readQuotedWord.eq_def]
  simp [hg, hq, hb]

/-- A backslash and a character between double quotes. -/
theorem ink_escape {e c : Char} (he : escape? e = some c) (hb : isBreak e = false) :
    Ink '"' c ['\\', e] := by
  refine ⟨⟨'\\', [e], rfl, by decide⟩, fun text n rest => ?_⟩
  show readQuotedWord '"' text n 0 0 ('\\' :: e :: rest) = _
  have hg : isGap '\\' = false := by decide
  rw [readQuotedWord.eq_def]
  simp [hg, hb, he]

theorem hexValue?_hexDigit (upper : Bool) {n : Nat} (h : n < 16) :
    hexValue? (Json.hexDigit upper n) = some n := by
  have : ∀ n < 16, ∀ b, hexValue? (Json.hexDigit b n) = some n := by decide
  exact this n h upper

theorem charOfCode?_toNat (c : Char) : charOfCode? c.toNat = some c := by
  have h : c.toNat.isValidChar := c.valid
  rw [charOfCode?, if_pos h, Char.ofNat_toNat]

/-- `\u` and the four digits of a character between double quotes. -/
theorem ink_code {c a b d e : Char} {w x y z : Nat} (ha : hexValue? a = some w)
    (hb : hexValue? b = some x) (hd : hexValue? d = some y) (he : hexValue? e = some z)
    (h : c.toNat = 16 * (16 * (16 * w + x) + y) + z) : Ink '"' c ['\\', 'u', a, b, d, e] := by
  refine ⟨⟨'\\', _, rfl, by decide⟩, fun text n rest => ?_⟩
  have hgap : isGap '\\' = false := by decide
  have hbreak : isBreak 'u' = false := by decide
  have hescape : escape? 'u' = none := by decide
  have hdigits : escapeDigits? 'u' = some 4 := by decide
  have hstart : readQuotedWord '"' text n 0 0 ('\\' :: 'u' :: a :: b :: d :: e :: rest) =
      readQuotedWord '"' text (n + 2) 4 0 (a :: b :: d :: e :: rest) := by
    rw [readQuotedWord.eq_def]
    simp [hgap, hbreak, hescape, hdigits]
  have hcode : 16 * (16 * (16 * (16 * 0 + w) + x) + y) + z = c.toNat := by omega
  show readQuotedWord '"' text n 0 0 ('\\' :: 'u' :: a :: b :: d :: e :: rest) = _
  rw [hstart]
  simp only [readQuotedWord.eq_3, ha, hb, hd, he, hcode, charOfCode?_toNat, Nat.succ_ne_zero,
    if_false, if_true, List.length_cons, List.length_nil, Nat.add_assoc]

theorem ink_hexDigits (upper : Bool) {c : Char} (h : c.toNat < 65536) :
    Ink '"' c ('\\' :: 'u' :: Json.hexDigits upper c.toNat) := by
  have hdigit (k : Nat) := hexValue?_hexDigit upper (Nat.mod_lt k (by decide : 0 < 16))
  exact ink_code (hdigit _) (hdigit _) (hdigit _) (hdigit _) (by omega)

/-- A writer that turns each character into a unit. -/
theorem written_map {quote : Char} {enc : Char → List Char} {s : List Char}
    (h : ∀ c ∈ s, IsRaw c (enc c) ∨ Ink quote c (enc c)) : Written quote s (s.map enc) := by
  rw [Written, List.forall₂_map_right_iff, List.forall₂_same]
  exact h

/-- Between single quotes nothing is written but the characters of the text. -/
theorem eq_of_mem_singleChar {c d : Char} (h : d ∈ singleChar c) : d = c := by
  rw [singleChar] at h
  split at h
  · rename_i hc
    obtain rfl := eq_of_beq hc
    simpa using h
  · exact List.mem_singleton.mp h

theorem written_singleChar {s : List Char} (h : ∀ c ∈ s, isBreak c = false) :
    Written '\'' s (s.map singleChar) := by
  refine written_map fun c hc => ?_
  by_cases hq : c = '\''
  · right
    subst hq
    refine ⟨⟨'\'', ['\''], rfl, by decide⟩, fun text n rest => ?_⟩
    have hg : isGap '\'' = false := by decide
    show readQuotedWord '\'' text n 0 0 ('\'' :: '\'' :: rest) = _
    rw [readQuotedWord.eq_def]
    simp [hg, singleChar]
  · have henc : singleChar c = [c] := by simp [singleChar, hq]
    by_cases hb : isBlank c = true
    · exact .inl ⟨hb, henc⟩
    · right
      have hg : isGap c = false := by simp [isGap, hb, h c hc]
      by_cases hbs : c = '\\'
      · subst hbs
        refine ⟨⟨'\\', [], rfl, hg⟩, fun text n rest => ?_⟩
        show readQuotedWord '\'' text n 0 0 ('\\' :: rest) = _
        rw [readQuotedWord.eq_def]
        simp [hg, singleChar]
      · rw [henc]
        exact ink_self hg hq hbs

/-- What a writer of double quotes does with the characters that it does not name. -/
theorem written_plainChar {c : Char} (hq : c ≠ '"') (hb : c ≠ '\\') (hbr : isBreak c = false) :
    IsRaw c [c] ∨ Ink '"' c [c] := by
  by_cases hbl : isBlank c = true
  · exact .inl ⟨hbl, rfl⟩
  · right
    exact ink_self (by simp [isGap, hbl, hbr]) hq hb

theorem lt_of_isControl {c : Char} (h : isControl c = true) : c.toNat < 65536 := by
  simp only [isControl, Bool.or_eq_true, Bool.and_eq_true, decide_eq_true_eq] at h
  omega

/-- A character between double quotes is escaped, by a letter or by its number, or stands for itself. -/
theorem doubleChar_cases (c : Char) : c ∈ ['"', '\\', '\n', '\t', '\r', '\x00'] ∨
    (isControl c = true ∧ doubleChar c = '\\' :: 'u' :: Json.hexDigits true c.toNat) ∨
    (isControl c = false ∧ c ≠ '"' ∧ c ≠ '\\' ∧ doubleChar c = [c]) := by
  by_cases hc : c ∈ ['"', '\\', '\n', '\t', '\r', '\x00']
  · exact .inl hc
  · have henc : doubleChar c =
        if isControl c then '\\' :: 'u' :: Json.hexDigits true c.toNat else [c] := by
      unfold doubleChar
      split <;> first | rfl | exact absurd (by decide) hc
    simp only [List.mem_cons, List.not_mem_nil, or_false, not_or] at hc
    rw [henc]
    cases isControl c with
    | true => exact .inr (.inl ⟨rfl, if_pos rfl⟩)
    | false => exact .inr (.inr ⟨rfl, hc.1, hc.2.1, if_neg Bool.false_ne_true⟩)

theorem isControl_hexDigits {n : Nat} {c : Char} (h : c ∈ Json.hexDigits true n) :
    isControl c = false := by
  have hd : ∀ k < 16, isControl (Json.hexDigit true k) = false := by decide
  have hdigit (k : Nat) := hd (k % 16) (Nat.mod_lt k (by decide))
  simp only [Json.hexDigits, List.mem_cons, List.not_mem_nil, or_false] at h
  rcases h with rfl | rfl | rfl | rfl <;> exact hdigit _

/-- No control character is written between double quotes. -/
theorem isControl_doubleChar {c d : Char} (h : d ∈ doubleChar c) : isControl d = false := by
  rcases doubleChar_cases c with hc | ⟨-, hc⟩ | ⟨hcon, -, -, hc⟩
  · obtain ⟨e, he, hpair⟩ : ∃ e, isControl e = false ∧ doubleChar c = ['\\', e] := by
      simp only [List.mem_cons, List.not_mem_nil, or_false] at hc
      rcases hc with rfl | rfl | rfl | rfl | rfl | rfl <;> exact ⟨_, rfl, rfl⟩
    rw [hpair, List.mem_pair] at h
    rcases h with rfl | rfl
    · rfl
    · exact he
  · rw [hc, List.mem_cons, List.mem_cons] at h
    rcases h with rfl | rfl | h
    · decide
    · decide
    · exact isControl_hexDigits h
  · rw [hc, List.mem_singleton] at h
    exact h ▸ hcon

theorem written_doubleChar (s : List Char) : Written '"' s (s.map doubleChar) := by
  refine written_map fun c _ => ?_
  rcases doubleChar_cases c with hc | ⟨hcon, hc⟩ | ⟨hcon, hq, hb, hc⟩
  · right
    simp only [List.mem_cons, List.not_mem_nil, or_false] at hc
    rcases hc with rfl | rfl | rfl | rfl | rfl | rfl <;> exact ink_escape rfl rfl
  · right
    rw [hc]
    exact ink_hexDigits true (lt_of_isControl hcon)
  · rw [hc]
    refine written_plainChar hq hb ?_
    cases hbr : isBreak c with
    | false => rfl
    | true => exact absurd (isControl_of_isBreak hbr) (by simp [hcon])

end TaggedYaml
