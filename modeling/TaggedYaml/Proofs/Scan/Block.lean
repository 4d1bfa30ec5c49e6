import TaggedYaml.Proofs.Scan.Literal
import TaggedYaml.Proofs.Scan.Plain
import TaggedYaml.Proofs.Scan.Ready

/-!
# Block — the tokens of block collections

The step lemmas of a scan that is `Ready`: a scalar to the end of its line, a literal block, the `-` of
an item, and empty brackets.  An indicator opens a block collection where none is open at its column
(`opening`).
-/

namespace TaggedYaml

theorem columnAfter_line (n m : Nat) : columnAfter n ('\n' :: pad m) = m :=
  (columnAfter_replicate 0 m).trans (Nat.zero_add m)

theorem any_isBreak_line (m : Nat) : ('\n' :: pad m).any isBreak = true := rfl

theorem PlainHead.solid {c : Char} {r : List Char} (h : PlainHead c r) (tail : List Char) :
    Solid (c :: (r ++ tail)) := by
  refine Solid.cons h.gap ?_
  rintro rfl
  exact h.stop (by decide)

theorem PlainHead.inner {c : Char} {r : List Char} (h : PlainHead c r) {tail : List Char}
    (ht : ∀ x ∈ tail.head?, x ≠ '-' ∧ x ≠ '.') : Progress.Inner (c :: (r ++ tail)) := by
  have hprefix : ∀ x, ¬ [x, x, x] <+: c :: r → (∀ y ∈ tail.head?, y ≠ x) →
      ¬ [x, x, x] <+: c :: (r ++ tail) := by
    intro x hx hne hp
    obtain ⟨rest, hrest⟩ := hp
    rcases r with _ | ⟨a, _ | ⟨b, r⟩⟩
    · obtain ⟨-, htail⟩ := List.cons.inj hrest
      rw [List.nil_append] at htail
      exact hne x (by simp [← htail]) rfl
    · simp only [List.cons_append, List.nil_append, List.cons.injEq] at hrest
      exact hne x (by simp [← hrest.2.2]) rfl
    · simp only [List.cons_append, List.nil_append, List.cons.injEq] at hrest
      obtain ⟨rfl, rfl, rfl, -⟩ := hrest
      exact hx ⟨r, rfl⟩
  refine ⟨?_, hprefix '-' h.dashes fun y hy => (ht y hy).1,
    hprefix '.' h.dots fun y hy => (ht y hy).2⟩
  rw [List.head?_cons]
  intro hc
  obtain rfl := Option.some.inj hc
  exact h.stop (by decide)

namespace Progress

variable {p q : Progress} {sent : List (Marked Token)} {l : Lexer} {ws vs : List Token}
  {cols : List Nat} {loose : Bool} {s : KeySpot} {column m : Nat} {keys : Bool} {t : List Char}

/-! ### Opening a block collection -/

/-- The word that opens a block collection at a column, unless one is open there. -/
def opening (column : Nat) (cols : List Nat) (tok : Token) : List Token :=
  if edge cols < column then [tok] else []

theorem Outside.insert (h : Outside ⟨sent, l⟩ (ws ++ vs) cols loose s) (hs : l.sent ≤ ws.length)
    (mark : Mark) (tok : Token) :
    Outside ⟨sent, l.insert ws.length mark tok⟩ (ws ++ tok :: vs) cols loose s :=
  ⟨h.sound.insert hs h.words_eq mark tok, words_insert h.sound.sent_length hs h.words_eq mark tok,
    ⟨h.blocks.1, h.blocks.2, h.blocks.3, h.blocks.4⟩, h.spots_eq, h.pair, h.going⟩

/-- A block collection is opened in front of the words of its first key. -/
theorem Outside.openBefore (h : Outside ⟨sent, l⟩ (ws ++ vs) cols loose s) (hs : l.sent ≤ ws.length)
    (hc : edge cols ≤ column) (hl : loose = true → edge cols < column) (tok : Token) (mark : Mark) :
    ∃ l', l.openBlock column (some ws.length) tok mark = l' ∧
      Outside ⟨sent, l'⟩ (ws ++ (opening column cols tok ++ vs)) (Lexer.colsWith column cols) false s ∧
      l'.cursor = l.cursor ∧ l'.sent = l.sent := by
  obtain ⟨i, ls, heq, hb⟩ := h.blocks.openBlock hc hl (some ws.length) tok mark
  refine ⟨_, heq, ?_, rfl, rfl⟩
  unfold opening
  by_cases hlt : edge cols < column
  · rw [if_pos hlt, if_pos hlt]
    exact (h.insert hs mark tok).relevel ⟨hb.1, hb.2, hb.3, hb.4⟩
  · rw [if_neg hlt, if_neg hlt]
    exact h.relevel ⟨hb.1, hb.2, hb.3, hb.4⟩

/-- A block collection is opened behind all words. -/
theorem Outside.openHere (h : Outside ⟨sent, l⟩ ws cols loose s) (hc : edge cols ≤ column)
    (hl : loose = true → edge cols < column) (tok : Token) (mark : Mark) :
    ∃ l', l.openBlock column none tok mark = l' ∧
      Outside ⟨sent, l'⟩ (ws ++ opening column cols tok) (Lexer.colsWith column cols) false s ∧
      l'.cursor = l.cursor ∧ l'.keyAllowed = l.keyAllowed := by
  obtain ⟨i, ls, heq, hb⟩ := h.blocks.openBlock hc hl none tok mark
  refine ⟨_, heq, ?_, rfl, rfl⟩
  unfold opening
  by_cases hlt : edge cols < column
  · rw [if_pos hlt, if_pos hlt]
    exact (h.push mark tok).relevel ⟨hb.1, hb.2, hb.3, hb.4⟩
  · rw [if_neg hlt, if_neg hlt, List.append_nil]
    exact h.relevel ⟨hb.1, hb.2, hb.3, hb.4⟩

theorem Outside.indentContent (h : Outside ⟨sent, l⟩ ws cols loose s) :
    ∃ l', l.indentContent = l' ∧
      Outside ⟨sent, l'⟩ ws cols (loose || !cols.isEmpty) s ∧ l'.cursor = l.cursor ∧
      l'.keyAllowed = l.keyAllowed := by
  obtain ⟨i, ls, heq, hb⟩ := h.blocks.indentContent
  exact ⟨_, heq, h.relevel hb, rfl, rfl⟩

theorem Outside.closeContent (h : Outside ⟨sent, l⟩ ws cols loose s) :
    ∃ l', l.closeContent = l' ∧ Outside ⟨sent, l'⟩ ws cols false s ∧ l'.cursor = l.cursor ∧
      l'.keyAllowed = l.keyAllowed ∧ l'.indent = edge cols ∧ l'.inFlow = false := by
  obtain ⟨i, ls, heq, hb⟩ := h.blocks.closeContent
  exact ⟨_, heq, h.relevel hb, rfl, rfl, by simpa using hb.indent_eq, hb.inFlow⟩

/-! ### Plain scalars -/

/-- A text that begins as a plain scalar is read as one. -/
theorem readTokenAt_plain {c : Char} {r tail : List Char} (h : PlainHead c r)
    (hf : l.inFlow = true → c ≠ ':') (hr : l.cursor.rest = c :: (r ++ tail)) :
    l.readTokenAt c = l.readPlainScalar := by
  have hstop := h.stop
  have hspaced : c = '-' ∨ c = '?' ∨ c = ':' → (l.cursor.second?.all isGap) = false := by
    intro hc
    obtain ⟨d, r', rfl, hd⟩ := h.next hc
    simp [Cursor.second?, hr, hd]
  simp only [plainStops, List.mem_cons, List.not_mem_nil, or_false, not_or] at hstop
  unfold Lexer.readTokenAt
  split
  case h_6 => simp [hspaced]
  case h_7 => simp [hspaced]
  case h_8 =>
    have hflow : l.inFlow = false := Bool.eq_false_iff.mpr fun h => hf h rfl
    simp [hspaced, hflow]
  case h_19 => rfl
  all_goals simp at hstop

/-- A lexer that read a plain scalar stands behind it. -/
theorem readPlainScalar_eq {l₁ : Lexer} (hl : (l.saveKey.allowKey false).closeContent = l₁)
    (hc : l₁.cursor = l.cursor) {text : List Char} {d : Cursor}
    (hread : readPlain l₁.inFlow (l₁.indent + 1) l.cursor = .ok (text, d)) :
    l.readPlainScalar = .ok (if d.leading then
      ((l₁.move d).push l.mark (.scalar .plain (String.ofList text.reverse))).allowKey true else
      (l₁.move d).push l.mark (.scalar .plain (String.ofList text.reverse))) := by
  have hmark : l₁.mark = l.mark := congrArg Cursor.mark hc
  rw [Lexer.readPlainScalar, hl]
  simp only [bind, Except.bind, hc, hread, hmark]
  rfl

/-- A plain scalar is read by a lexer, once a key may have begun at it. -/
theorem Outside.readPlainScalar (h : Outside ⟨sent, l.saveKey⟩ ws cols loose s) {d : Cursor}
    {text : List Char} (hread : readPlain false (edge cols + 1) l.cursor = .ok (text, d)) :
    ∃ l', l.readPlainScalar = .ok l' ∧
      Outside ⟨sent, l'⟩ (ws ++ [.scalar .plain (String.ofList text.reverse)]) cols false s ∧
      Clear ⟨sent, l'⟩ cols ∧ l'.cursor = d ∧ l'.keyAllowed = d.leading := by
  obtain ⟨l₁, hl₁, h₁, hcur, hkey, hind, hflow⟩ := (h.allowKey false).closeContent
  have hkey' : l₁.keyAllowed = false := hkey
  have heq := readPlainScalar_eq hl₁ (hcur.trans (Lexer.cursor_saveKey l))
    (by rw [hflow, hind]; exact hread)
  have h₂ := (h₁.move d).push l.mark (.scalar .plain (String.ofList text.reverse))
  refine ⟨_, heq, ?_, ?_, ?_, ?_⟩
  · split
    · exact h₂.allowKey true
    · exact h₂
  · split
    · exact (clear_push rfl _).of_queue rfl
    · exact clear_push rfl _
  · split <;> rfl
  · cases hd : d.leading with
    | true => rfl
    | false => exact hkey'

theorem atDocumentMark_of_inner {c : Cursor} (h : Inner c.rest) : c.atDocumentMark = false := by
  rw [Cursor.atDocumentMark, atDashes_of_not_prefix h.2.1, atDots_of_not_prefix h.2.2]
  simp

theorem lineFeed_inner (tail : List Char) : ∀ x ∈ ('\n' :: tail).head?, x ≠ '-' ∧ x ≠ '.' := by
  intro x hx
  obtain rfl : '\n' = x := by simpa using hx
  decide

/-- A plain scalar that is no key. -/
theorem Ready.reads_plain {v : List Char}
    (h : Ready p ws cols column keys (v ++ '\n' :: (pad m ++ t))) (hv : isPlainText v = true)
    (hi : edge cols < column) (hm : (m : Int) ≤ edge cols ∨ t = []) (ht : Solid t) :
    Reads p fun q => Ready q (ws ++ [.scalar .plain (String.ofList v)]) cols m true t := by
  have hfrom := plainFrom_of_isPlainText hv
  obtain ⟨c, r, rfl⟩ : ∃ c r, v = c :: r := by
    obtain ⟨c, r, hcr, -⟩ := hfrom.head
    exact ⟨c, r, hcr⟩
  have hhead := plainHead_of_isPlainText hv
  have hinner := hhead.inner (lineFeed_inner (pad m ++ t))
  rw [List.cons_append] at h
  refine h.reads_scalar (hhead.solid _) hinner hi
    (by simp only [List.length_append, List.length_cons]; omega) fun l loose s hsave hflow hr hc => ?_
  obtain ⟨d, hread, hrest, hcol, hlead⟩ := readPlain_line (edge cols + 1) hfrom ht
    (hm.imp (fun hm => by omega) id) hr (atDocumentMark_of_inner (hr ▸ hinner)) (by rw [hc]; omega)
  obtain ⟨l', hl', hout, hclear, hcur, hkey⟩ := hsave.readPlainScalar hread
  rw [List.reverse_reverse] at hout
  exact ⟨l', false, (readTokenAt_plain hhead (by simp [hflow]) hr).trans hl', hout, hclear,
    hcur ▸ hrest, hcur ▸ hcol, hkey.trans hlead⟩

/-! ### Literal blocks -/

/-- A chomping indicator makes a text of the lines of a block. -/
def Chomps (chomp : Chomp) (body v : List Char) : Prop :=
  ∀ text n, text ++ List.replicate n '\n' = body → text ++ chomp.tail n = v

/-- The lines of a block are read as what the chomping indicator makes of them. -/
theorem readBlockLines_chomps {k : Nat} {chomp : Chomp} {line v : List Char}
    {lines : List (List Char)} (hend : EndsBlock k m t)
    (hv : Chomps chomp (line ++ lines.flatMap ('\n' :: ·)) v)
    (hl : ∀ l ∈ line :: lines, ∀ x ∈ l, isBreak x = false) (hne : line ≠ []) {c : Cursor}
    (hc : c.mark.column = k) (hr : c.rest = line ++ '\n' :: (rows k lines ++ (pad m ++ t)))
    (fuel : Nat) (hf : c.rest.length < fuel) :
    ∃ e text d, readBlockLines false k fuel ⟨false, 0, false⟩ [] c = (e, text, d) ∧ d.rest = t ∧
      d.mark.column = m ∧
      text.reverse ++ e.tail chomp (d.rest.isEmpty && decide (d.mark.column ≥ max k 1)) = v := by
  obtain ⟨n, blank, text, d, hread, hdr, hdc, htext⟩ :=
    readBlockLines_block hend hl hne fuel hc hr hf
  -- the text behind the block stands left of it
  have hopen : (d.rest.isEmpty && decide (d.mark.column ≥ max k 1)) = false := by
    have hlt := hend.lt
    have : ¬ d.mark.column ≥ max k 1 := by omega
    simp [this]
  refine ⟨_, text, d, hread, hdr, hdc, ?_⟩
  rw [hopen, LineEnd.tail_eq]
  exact hv _ _ htext

/-- A literal block is read by a lexer, once a key may have begun at it. -/
theorem Outside.readLiteral {k : Nat} {chomp : Chomp} {line v : List Char} {lines : List (List Char)}
    (h : Outside ⟨sent, l.saveKey⟩ ws cols loose s)
    (hr : l.cursor.rest = '|' :: (chomp.text ++ '\n' :: (rows k (line :: lines) ++ (pad m ++ t))))
    (hv : Chomps chomp (line ++ lines.flatMap ('\n' :: ·)) v)
    (hl : ∀ l ∈ line :: lines, ∀ x ∈ l, isBreak x = false)
    (hne : ∃ x r, line = x :: r ∧ x ≠ ' ') (hk : edge cols < k) (hend : EndsBlock k m t) :
    ∃ l', l.readBlockScalar false = .ok l' ∧
      Outside ⟨sent, l'⟩ (ws ++ [.scalar .literal (String.ofList v)]) cols false s ∧
      Clear ⟨sent, l'⟩ cols ∧ l'.cursor.rest = t ∧ l'.cursor.mark.column = m ∧
      l'.keyAllowed = true := by
  have hline : line ≠ [] := by
    obtain ⟨x, r, hxr, -⟩ := hne
    simp [hxr]
  obtain ⟨l₁, hl₁, h₁, hcur, hkey, hind, -⟩ := (h.allowKey true).closeContent
  have hcur' : l₁.cursor = l.cursor := hcur.trans (Lexer.cursor_saveKey l)
  -- the indicators
  obtain ⟨c₁, hc₁, hrest₁⟩ : ∃ c₁, c₁ = (l₁.cursor.passInk 1).look 1 ∧
      c₁.rest = chomp.text ++ '\n' :: (rows k (line :: lines) ++ (pad m ++ t)) :=
    ⟨_, rfl, by simp [hcur', hr]⟩
  have hheader : readBlockHeader c₁.rest = .ok ⟨chomp, none, chomp.text.length⟩ := by
    rw [hrest₁]
    exact readBlockHeader_chomp ..
  obtain ⟨tr, htr, htrest⟩ := trailing_header chomp hrest₁
  have hbreak : tr.cursor.head?.all isBreak = true := by
    have hb : isBreak '\n' = true := by decide
    simp [Cursor.head?, htrest, hb]
  have hmore : tr.cursor.rest.isEmpty = false := by
    rw [htrest]
    rfl
  -- the first line
  obtain ⟨c₂, hc₂, hrest₂, hcol₂⟩ : ∃ c₂, c₂ = (tr.cursor.look 2).passBreak.look 1 ∧
      c₂.rest = rows k (line :: lines) ++ (pad m ++ t) ∧ c₂.mark.column = 0 := by
    have hlook : (tr.cursor.look 2).rest = '\n' :: (rows k (line :: lines) ++ (pad m ++ t)) := htrest
    rw [passBreak_lineFeed hlook]
    exact ⟨_, rfl, rfl, rfl⟩
  obtain ⟨htab, c₃, hfind, hrest₃, hcol₃⟩ := findIndent_rows
    (Nat.ne_of_gt (Nat.zero_lt_of_lt hend.lt)) (hl line (List.mem_cons_self ..)) hne hcol₂ hrest₂
  have hmax : max k (l₁.indent + 1).toNat = k := by
    rw [hind]
    omega
  have hmore₃ : c₃.rest.isEmpty = false := by
    rw [hrest₃]
    simp
  -- the lines
  obtain ⟨e, text, d, hread, hdr, hdc, htext⟩ := readBlockLines_chomps hend hv hl hline
    hcol₃ hrest₃ (c₂.rest.length + 1) (by
      rw [hrest₂, hrest₃, rows_cons hline]
      simp only [List.length_append, List.length_cons]
      omega)
  refine ⟨(l₁.move d).push c₃.mark (.scalar .literal (String.ofList v)), ?_,
    (h₁.move d).push _ _, clear_push rfl _, hdr, hdc, hkey⟩
  rw [Lexer.readBlockScalar, hl₁]
  simp only [← hc₁, hheader, bind, Except.bind, htr, hbreak, hmore, Bool.not_true, Bool.not_false,
    Bool.false_eq_true, if_false, if_true, ← hc₂, htab, hfind, hmax, hmore₃, hcol₃, Nat.lt_irrefl,
    decide_false, Bool.false_and, hread, htext]
  rfl

/-- A literal block. -/
theorem Ready.reads_literal {k : Nat} (chomp : Chomp) {line v : List Char} {lines : List (List Char)}
    (h : Ready p ws cols column keys
      ('|' :: (chomp.text ++ '\n' :: (rows k (line :: lines) ++ (pad m ++ t)))))
    (hv : Chomps chomp (line ++ lines.flatMap ('\n' :: ·)) v)
    (hl : ∀ l ∈ line :: lines, ∀ x ∈ l, isBreak x = false)
    (hne : ∃ x r, line = x :: r ∧ x ≠ ' ') (hi : edge cols < column) (hk : edge cols < k)
    (hend : EndsBlock k m t) :
    Reads p fun q => Ready q (ws ++ [.scalar .literal (String.ofList v)]) cols m true t := by
  refine h.reads_scalar (Solid.cons (by decide) (by decide)) (Inner.cons (by decide)) hi
    (by simp only [List.length_append, List.length_cons]; omega) fun l loose s hsave hflow hr hc => ?_
  obtain ⟨l', hread, hout⟩ := hsave.readLiteral hr hv hl hne hk hend
  have htok : l.readTokenAt '|' = l.readBlockScalar false := by
    simp [Lexer.readTokenAt, hflow]
  exact ⟨l', false, htok.trans hread, hout⟩

/-! ### Items -/

/-- Both readers of blanks behind a `-` together. -/
theorem trailing_twice {c : Cursor} {gap : List Char} (hg : IsSpace cols gap) (hcols : cols ≠ [])
    (ht : Solid t) (hr : c.rest = gap ++ t) :
    ∃ tr tr' left, c.trailing true = .ok tr ∧ tr.hasTab = false ∧
      (tr.cursor.look 2).trailing false = .ok tr' ∧ IsSpace cols left ∧ tr'.cursor.rest = left ++ t ∧
      columnAfter tr'.cursor.mark.column left = columnAfter c.mark.column gap ∧
      left.length ≤ gap.length := by
  have hno : '\t' ∉ gap := hg.tab_not_mem hcols
  obtain ⟨tr, left, htr, htab, htrail, -⟩ := trailing_gap hg ht hr true fun _ => hno
  have hspace := htrail.space hg
  obtain ⟨tr', left', htr', -, htrail', -⟩ := trailing_gap (c := tr.cursor.look 2) hspace ht
    htrail.rest_eq false fun _ => hspace.tab_not_mem hcols
  refine ⟨tr, tr', left', htr, by simpa using mt htab hno, htr', htrail'.space hspace,
    htrail'.rest_eq, ?_, ?_⟩
  · rw [htrail'.column_eq]
    exact htrail.column_eq
  · have h1 := htrail.length_le
    have h2 := htrail'.length_le
    rw [htrail.rest_eq] at h1
    rw [htrail'.rest_eq] at h2
    simp only [List.length_append] at h1 h2
    omega

/-- An anchor or a tag that stands unindented waits only where no block collection is open. -/
theorem Outside.lone_of_clear (h : Outside ⟨sent, l⟩ ws cols loose s) (hclear : Clear ⟨sent, l⟩ cols)
    {mark : Mark} (hm : l.loneProperty? = some mark) :
    (l.mark.column == 0 && decide (l.indent > -1)) = false := by
  by_cases hcols : cols = []
  · have hind : l.indent = -1 := by
      rw [h.blocks.indent_eq, hcols, if_neg fun ht => h.blocks.ne_nil ht hcols, edge_nil]
    simp [hind]
  · rw [hclear hcols] at hm
    cases hm

/-- The `-` of an item is read by a lexer, and the block collection that begins with it is opened. -/
theorem Facing.readDash {gap : List Char} (h : Facing sent l ws cols column true ('-' :: (gap ++ t)))
    (hle : edge cols ≤ column) (hg : IsSpace (Lexer.colsWith column cols) gap) (ht : Solid t) :
    ∃ l', l.readDash = .ok l' ∧
      Ready ⟨sent, l'⟩ (ws ++ (opening column cols .blockSequenceStart ++ [.blockEntry]))
        (Lexer.colsWith column cols) (columnAfter (column + 1) gap) true t ∧
      l'.cursor.rest.length ≤ (gap ++ t).length := by
  obtain ⟨loose, s, hout, hs, hloose⟩ := h.outside
  have hcol : l.column = (column : Int) := by rw [Lexer.column, h.column_eq]
  have hflow : l.inFlow = false := hout.inFlow
  have hkey : l.keyAllowed = true := h.allowed_eq
  obtain ⟨l₁, hl₁, h₁, hcur, -⟩ := (hout.move (l.cursor.passInk 1)).openHere hle hloose
    .blockSequenceStart l.mark
  have hr₁ : l₁.cursor.rest = gap ++ t := by
    rw [hcur]
    show (l.cursor.passInk 1).rest = _
    simp [h.rest_eq]
  obtain ⟨tr, tr', left, htr, htab, htr', hspace, hr', hcolumn, hlen⟩ :=
    trailing_twice hg (Lexer.colsWith_ne_nil _ _) ht hr₁
  obtain ⟨l₂, loose₂, hl₂, h₂, hcur₂⟩ : ∃ l₂ loose₂,
      l₂ = (if tr'.cursor.head?.any (fun x => isBreak x || isFlowMark x) then
        (l₁.move tr'.cursor).indentContent else l₁.move tr'.cursor) ∧
      Outside ⟨sent, l₂⟩ (ws ++ opening column cols .blockSequenceStart) (Lexer.colsWith column cols)
        loose₂ s ∧ l₂.cursor = tr'.cursor := by
    split
    · obtain ⟨l₂, hl₂, h₂, hc₂, -⟩ := (h₁.move tr'.cursor).indentContent
      exact ⟨l₂, _, hl₂.symm, h₂, hc₂⟩
    · exact ⟨_, _, rfl, h₁.move tr'.cursor, rfl⟩
  obtain ⟨l₃, hl₃, h₃, hcur₃, -, -⟩ := h₂.dropKey hs
  have hcursor : l₃.cursor = tr'.cursor := hcur₃.trans hcur₂
  have hread : l.readDash = .ok ((l₃.allowKey true).push l₃.mark .blockEntry) := by
    rw [Lexer.readDash]
    simp only [hflow, hkey, Bool.not_true, Bool.false_eq_true, if_false, hcol, hl₁, bind, Except.bind,
      htr, htab, Bool.false_and, htr', ← hl₂, hl₃, pure, Except.pure]
    split
    · rename_i m hm hb
      rw [hout.lone_of_clear h.clear hm] at hb
      exact absurd hb (by simp)
    · rfl
  have h₄ := (h₃.allowKey true).push l₃.mark .blockEntry
  rw [List.append_assoc] at h₄
  refine ⟨_, hread, ⟨⟨loose₂, s.clear, h₄, s.clear_calm⟩, clear_push rfl _, left, hspace, ?_, ?_, rfl⟩,
    ?_⟩
  · show l₃.cursor.rest = _
    rw [hcursor, hr']
  · show columnAfter l₃.cursor.mark.column left = _
    rw [hcursor, hcolumn, hcur, ← h.column_eq]
    rfl
  · show l₃.cursor.rest.length ≤ _
    rw [hcursor, hr']
    simp only [List.length_append]
    omega

/-- The `-` of an item. -/
theorem Ready.reads_dash {gap : List Char}
    (h : Ready p ws cols column true ('-' :: (gap ++ t)))
    (hg : IsSpace (Lexer.colsWith column (colsAt column cols)) gap) (hne : gap ≠ [])
    (ht : Solid t) :
    Reads p fun q => Ready q
      (ws ++ (ends column cols ++
        (opening column (colsAt column cols) .blockSequenceStart ++ [.blockEntry])))
      (Lexer.colsWith column (colsAt column cols)) (columnAfter (column + 1) gap) true t := by
  obtain ⟨x, r, hxr⟩ : ∃ x r, gap = x :: r := List.exists_cons_of_ne_nil hne
  have hx : isGap x = true := (hg x (by simp [hxr])).1
  have hinner : Inner ('-' :: (gap ++ t)) := by
    refine ⟨by simp, fun hp => ?_, fun hp => ?_⟩
    · rw [hxr, List.cons_append] at hp
      obtain rfl := (List.cons_prefix_cons.mp (List.cons_prefix_cons.mp hp).2).1
      exact absurd hx (by decide)
    · exact absurd (List.cons_prefix_cons.mp hp).1 (by decide)
  refine h.round (Solid.cons (by decide) (by decide)) (fun _ => hinner) fun l hl => ?_
  obtain ⟨l', hread, hready, hlen⟩ := hl.readDash (edge_colsAt_le (by omega) cols) hg ht
  have hspaced : l.cursor.second?.all isGap = true := by
    simp [Cursor.second?, hl.rest_eq, hxr, hx]
  have htok : l.readTokenAt '-' = l.readDash := by
    simp [Lexer.readTokenAt, hspaced]
  rw [List.append_assoc] at hready
  exact ⟨l', htok.trans hread, hready, hlen⟩

/-! ### Scalars on one line -/

/-- A text on one line that is read back as a scalar. -/
inductive Inline : Style → List Char → List Char → Prop where
  | plain {v : List Char} : isPlainText v = true → Inline .plain v v
  | single {v : List Char} : (∀ c ∈ v, isHidden c = false) → Inline .single v (singleQuote v)
  | double {v : List Char} : Inline .double v (doubleQuote v)

/-- A scalar on one line that is no key. -/
theorem Ready.reads_inline {style : Style} {v u : List Char} (hu : Inline style v u)
    (h : Ready p ws cols column keys (u ++ '\n' :: (pad m ++ t))) (hi : edge cols < column)
    (hm : (m : Int) ≤ edge cols ∨ t = []) (ht : Solid t) :
    Reads p fun q => Ready q (ws ++ [.scalar style (String.ofList v)]) cols m true t := by
  cases hu with
  | plain hv => exact h.reads_plain hv hi hm ht
  | single hv =>
    have h' : Ready p ws cols column keys
        ('\'' :: ((v.map singleChar).flatten ++ '\'' :: (('\n' :: pad m) ++ t))) := by
      simpa [singleQuote, List.flatMap_def] using h
    have := h'.reads_quoted .single (.inr rfl) (fun l => rfl) (written_singleChar
      fun c hc => isBreak_of_not_isHidden (hv c hc)) hi
      (IsSpace.line m) ht (.inl rfl) (fun _ => by simp)
    rw [columnAfter_line, any_isBreak_line] at this
    exact this
  | double =>
    have h' : Ready p ws cols column keys
        ('"' :: ((v.map doubleChar).flatten ++ '"' :: (('\n' :: pad m) ++ t))) := by
      simpa [doubleQuote, List.flatMap_def] using h
    have := h'.reads_quoted .double (.inl rfl) (fun l => rfl) (written_doubleChar v) hi
      (IsSpace.line m) ht (.inl rfl) (fun _ => by simp)
    rw [columnAfter_line, any_isBreak_line] at this
    exact this

/-! ### Empty brackets -/

theorem Ready.reads_empty (mapping : Bool)
    (h : Ready p ws cols column keys (openChar mapping :: closeChar mapping :: '\n' :: (pad m ++ t)))
    (hi : edge cols < column) (ht : Solid t) :
    Reads p fun q => Ready q (ws ++ [openToken mapping, closeToken mapping]) cols m true t := by
  have hclose : Solid (closeChar mapping :: (('\n' :: pad m) ++ t)) :=
    Solid.cons (by cases mapping <;> decide) (by cases mapping <;> decide)
  have h' : Ready p ws cols column keys
      (openChar mapping :: ([] ++ closeChar mapping :: (('\n' :: pad m) ++ t))) := h
  refine (h'.reads_open mapping hi (fun x hx => by simp at hx) hclose).trans ?_
  rintro q ⟨r, loose, s, hin, hs, hf, -⟩
  have := hin.reads_close_last mapping ('\n' :: pad m) t hs hf (by
    simp only [columnAfter]
    omega) (IsSpace.line m) ht
  rw [columnAfter_line, any_isBreak_line, List.append_assoc] at this
  exact this

end Progress

end TaggedYaml
