import TaggedYaml.Proofs.Scan.Block
import TaggedYaml.Proofs.Scan.Label

/-!
# Key — a key on one line, word by word

A key is a scalar with labels before it, or an alias (`KeyText`).  While its words are read the spot where
it began is kept (`Keyed`), and the `:` behind it puts the key token in front of them all
(`Ready.reads_key`).
-/

namespace TaggedYaml

/-- The spot of a key behind some number of words, which began at a column of the line of a mark. -/
structure KeySpot.Begins (s : KeySpot) (number column : Nat) (m : Mark) : Prop where
  possible : s.possible = true
  number_eq : s.number = number
  line_eq : s.mark.line = m.line
  column_eq : s.mark.column = column
  offset_eq : s.mark.offset + m.column = m.offset + column

theorem KeySpot.Begins.right {s : KeySpot} {number column : Nat} {m : Mark}
    (h : s.Begins number column m) (n : Nat) : s.Begins number column (m.right n) := by
  have hoff := h.offset_eq
  refine ⟨h.possible, h.number_eq, h.line_eq, h.column_eq, ?_⟩
  show s.mark.offset + (m.column + n) = m.offset + n + column
  omega

namespace Progress

variable {p q : Progress} {sent : List (Marked Token)} {l : Lexer} {ws us : List Token} {tok : Token}
  {cols : List Nat} {column here : Nat} {u t gap : List Char}

theorem near_of_begins {c : Cursor} {s : KeySpot} {number n : Nat} (h : s.Begins number column c.mark)
    (hn : c.mark.column + n ≤ column + 1024) : Near c s n := by
  have hoff := h.offset_eq
  exact ⟨h.line_eq, by omega⟩

/-- A scan behind some words of a key: the words before the key, those of the key, where it began,
the column behind them and the text from there on. -/
structure Keyed (p : Progress) (ws us : List Token) (cols : List Nat) (column here : Nat)
    (t : List Char) : Prop where
  outside : ∃ loose s, Outside p (ws ++ us) cols loose s ∧
    s.Begins ws.length column p.lexer.cursor.mark ∧ (loose = true → edge cols < column)
  allowed_eq : p.lexer.keyAllowed = false
  edge_le : edge cols ≤ column
  rest_eq : p.rest = t
  column_eq : p.lexer.cursor.mark.column = here
  lt : column < here

/-- A lexer before a word of a key, which is the first one or stands behind others. -/
structure Keying (sent : List (Marked Token)) (l : Lexer) (ws us : List Token) (cols : List Nat)
    (column here : Nat) (t : List Char) : Prop where
  saved : ∃ loose s, Outside ⟨sent, l.saveKey⟩ (ws ++ us) cols loose s ∧
    s.Begins ws.length column l.cursor.mark ∧ (loose = true → edge cols < column)
  edge_le : edge cols ≤ column
  rest_eq : l.cursor.rest = t
  column_eq : l.cursor.mark.column = here
  le : column ≤ here
  indent_le : l.indent ≤ here

/-- A scan that comes to a word of a key in its next round. -/
def Turns (p : Progress) (ws us : List Token) (cols : List Nat) (column here : Nat) (t : List Char) :
    Prop :=
  ∃ c r l, t = c :: r ∧ p.lexer.readToken = l.readTokenAt c ∧ r.length < p.rest.length ∧
    Keying p.sent l ws us cols column here t

theorem length_lt_of_suffix {gap r : List Char} {c : Char} (h : p.rest = gap ++ c :: r) :
    r.length < p.rest.length := by
  rw [h, List.length_append, List.length_cons]
  omega

/-- The first word of a key. -/
theorem Ready.turns {c : Char} {r : List Char} (h : Ready p ws cols column true (c :: r))
    (ht : Solid (c :: r)) (hin : Inner (c :: r)) :
    Turns p (ws ++ ends column cols) [] (colsAt column cols) column column (c :: r) := by
  obtain ⟨l, htok, hl⟩ := h.face ht fun _ => hin
  obtain ⟨loose, s, hout, -, hloose⟩ := hl.outside
  obtain ⟨s', hsave, -, hspot, -⟩ := hout.saveKey
  obtain ⟨hp, hn, hm⟩ := hspot hl.allowed_eq
  obtain ⟨gap, -, hr, -, -⟩ := h.next
  have hcol : l.mark.column = column := hl.column_eq
  refine ⟨c, r, l, rfl, htok, length_lt_of_suffix hr, ⟨loose, s', ?_, ⟨hp, hn, ?_, ?_, ?_⟩, hloose⟩,
    edge_colsAt_le (by omega) cols, hl.rest_eq, hl.column_eq, Nat.le_refl _, hl.indent_le⟩
  · rw [List.append_nil]
    exact hsave
  · rw [hm]
    rfl
  · rw [hm, hcol]
  · rw [hm, ← hcol]
    rfl

/-- A further word of a key. -/
theorem Keyed.turns {c : Char} {r : List Char} (h : Keyed p ws us cols column here (' ' :: c :: r))
    (ht : Solid (c :: r)) (hn : here + 1 ≤ column + 1024) :
    Turns p ws us cols column (here + 1) (c :: r) := by
  obtain ⟨loose, s, hout, hs, hloose⟩ := h.outside
  have hcol := h.column_eq
  have hlt := h.lt
  have hle := h.edge_le
  have hnl : [' '].any isBreak = false := rfl
  have hnear : Near p.lexer.cursor s 1 := near_of_begins hs (by omega)
  have hrest : p.rest = [' '] ++ c :: r := h.rest_eq
  obtain ⟨l, s', htok, ha⟩ := hout.face hrest (IsSpace.replicate 1) ht (by rw [hcol]; rfl)
    (.inr ⟨hnl, hnear⟩) fun h0 => absurd h0 (Nat.succ_ne_zero here)
  obtain rfl : s' = s := ha.near hnl hnear
  have hle' : edge cols ≤ ((here + 1 : Nat) : Int) := by omega
  obtain ⟨h1, h2⟩ := colsAt_of_edge_le hle'
  have hl := ha.outside
  rw [h1, h2, List.replicate_zero, List.append_nil] at hl
  have hallow : l.keyAllowed = false := by
    rw [ha.allowed_eq, Lexer.keyAfter, h.allowed_eq, hnl, Bool.and_false, Bool.or_false]
  obtain ⟨s'', hsave, hsame, -, -⟩ := hl.saveKey
  obtain rfl : s'' = s' := hsame hallow
  refine ⟨c, r, l, rfl, htok, length_lt_of_suffix hrest,
    ⟨_, s'', hsave, ?_, fun hb => ?_⟩, hle, ha.rest_eq, ha.column_eq, by omega, ha.indent_le⟩
  · rw [ha.mark_eq hnl]
    exact hs.right 1
  · rw [Bool.and_eq_true] at hb
    exact hloose hb.1

/-- A word of a key was read. -/
theorem Turns.behind {c : Char} {r : List Char} {vs : List Token} {there : Nat}
    (h : Turns p ws us cols column here (c :: t)) (hnear : there ≤ column + 1024)
    (hread : ∀ l, Keying p.sent l ws us cols column here (c :: t) → ∃ l', l.readTokenAt c = .ok l' ∧
      Keyed ⟨p.sent, l'⟩ ws vs cols column there r ∧ l'.cursor.rest.length ≤ t.length) :
    Reads p fun q => Keyed q ws vs cols column there r := by
  obtain ⟨c', t', l, heq, htok, hlen, hl⟩ := h
  obtain ⟨rfl, rfl⟩ := List.cons.inj heq
  obtain ⟨l', hl', hk, hle⟩ := hread l hl
  obtain ⟨loose, s, hout, hs, hloose⟩ := hk.outside
  have hcol : l'.cursor.mark.column = there := hk.column_eq
  have hfresh : Near l'.cursor s 0 := near_of_begins hs (by omega)
  obtain ⟨q, hstep, hq, -, hcur, hkey⟩ := hout.behind (htok.trans hl') (by omega) (.inr hfresh)
  rw [Lexer.freshSpot_of_fresh (isStale_of_near hfresh)] at hq
  refine Reads.of_step hstep ⟨⟨loose, s, hq, ?_, hloose⟩, hkey.trans hk.allowed_eq, hk.edge_le, ?_, ?_,
    hk.lt⟩
  · rw [hcur]
    exact hs
  · rw [rest, hcur]
    exact hk.rest_eq
  · rw [hcur]
    exact hk.column_eq

/-! ### The words of a key -/

/-- A label before the rest of a key. -/
theorem Turns.reads_label (hu : IsLabel u tok) (h : Turns p ws us cols column here (u ++ ' ' :: t))
    (hlen : here + u.length ≤ column + 1024) :
    Reads p fun q => Keyed q ws (us ++ [tok]) cols column (here + u.length) (' ' :: t) := by
  obtain ⟨c, r, rfl, -⟩ := hu.head
  refine h.behind hlen fun l hl => ?_
  obtain ⟨loose, s, hout, hs, hloose⟩ := hl.saved
  obtain ⟨c', r', d, hcr, hread, hdr, hdm⟩ := hu.readTokenAt rfl hl.rest_eq
  obtain ⟨rfl, rfl⟩ := List.cons.inj hcr
  have hout' := ((hout.allowKey false).move d).push l.mark tok
  rw [List.append_assoc] at hout'
  have hle := hl.le
  refine ⟨_, hread, ⟨⟨loose, s, hout', ?_, hloose⟩, rfl, hl.edge_le, hdr, ?_, ?_⟩, ?_⟩
  · show s.Begins _ _ d.mark
    rw [hdm]
    exact hs.right _
  · show d.mark.column = _
    rw [hdm, ← hl.column_eq]
    rfl
  · simp only [List.length_cons]
    omega
  · show d.rest.length ≤ _
    rw [hdr]
    simp

/-- A quoted scalar that ends a key. -/
theorem Turns.reads_quoted {quote : Char} {units : List (List Char)} {v : List Char} (style : Style)
    (h : Turns p ws us cols column here (quote :: (units.flatten ++ quote :: ':' :: t)))
    (hq : quote = '"' ∨ quote = '\'')
    (hstyle : ∀ l : Lexer, l.readTokenAt quote = l.readQuotedScalar quote style)
    (hw : Written quote v units) (hlen : here + (2 + units.flatten.length) ≤ column + 1024) :
    Reads p fun q => Keyed q ws (us ++ [.scalar style (String.ofList v)]) cols column
      (here + (2 + units.flatten.length)) (':' :: t) := by
  have hgap : isGap quote = false := by rcases hq with rfl | rfl <;> decide
  refine h.behind hlen fun l hl => ?_
  obtain ⟨loose, s, hout, hs, hloose⟩ := hl.saved
  have hcol : l.cursor.mark.column = here := hl.column_eq
  have hind : l.indent ≤ l.column := by
    rw [Lexer.column, hcol]
    exact hl.indent_le
  obtain ⟨d, hread, hrest, -, hmark⟩ := readQuotedScalar_written style hgap hw
    (IsSpace.nil : IsSpace cols [])
    (fun hc => (Lexer.indent_saveKey l).symm.trans_le (hout.blocks.indent_nonpos hc))
    (Solid.cons (by decide) (by decide)) (fun _ => by simp) (.inr fun x hx => by
      obtain rfl : ':' = x := by simpa using hx
      exact .inl rfl) hl.rest_eq hind
  have hmark' := hmark (by simp)
  rw [List.length_nil, Nat.add_zero] at hmark'
  have h₁ := hout.relocate d (!l.inFlow && [].any isBreak) d.mark.offset
  have h₂ := h₁.push l.mark (.scalar style (String.ofList v))
  rw [List.append_assoc] at h₂
  have hle := hl.le
  refine ⟨_, (hstyle l).trans hread, ⟨⟨loose, s, h₂, ?_, hloose⟩, ?_, hl.edge_le, hrest, ?_, by omega⟩,
    ?_⟩
  · show s.Begins _ _ d.mark
    rw [hmark']
    exact hs.right _
  · show (!l.inFlow && _) = false
    simp
  · show d.mark.column = _
    rw [hmark', ← hcol]
    rfl
  · show d.rest.length ≤ _
    rw [hrest]
    simp only [List.length_append, List.length_cons]
    omega

/-- A plain scalar that ends a key. -/
theorem Turns.reads_plain {v : List Char} (h : Turns p ws us cols column here (v ++ ':' :: t))
    (hv : isPlainText v = true) (ht : t.head?.all isGap = true)
    (hlen : here + v.length ≤ column + 1024) :
    Reads p fun q => Keyed q ws (us ++ [.scalar .plain (String.ofList v)]) cols column
      (here + v.length) (':' :: t) := by
  have hfrom := plainFrom_of_isPlainText hv
  obtain ⟨c, r, rfl⟩ : ∃ c r, v = c :: r := by
    obtain ⟨c, r, hcr, -⟩ := hfrom.head
    exact ⟨c, r, hcr⟩
  have hhead := plainHead_of_isPlainText hv
  have hinner : Inner (c :: (r ++ ':' :: t)) := hhead.inner fun x hx => by
    obtain rfl : ':' = x := by simpa using hx
    decide
  have hstop : PlainStop false (':' :: t) := by
    simp [PlainStop, plainWord, isPlainChar, ht]
  refine h.behind hlen fun l hl => ?_
  obtain ⟨loose, s, hout, hs, -⟩ := hl.saved
  have hrest := hl.rest_eq
  have hcol : l.cursor.mark.column = here := hl.column_eq
  have hedge := hl.edge_le
  have hle := hl.le
  obtain ⟨d, hread, hdr, hdm, hlead⟩ := readPlain_stop (edge cols + 1) hfrom
    hstop (show isGap ':' = false by decide) hrest (atDocumentMark_of_inner (hrest ▸ hinner))
    (by rw [hcol]; omega) (fun hf => by simp at hf)
  obtain ⟨l', hl', hout', -, hcur, hkey⟩ := hout.readPlainScalar hread
  rw [List.reverse_reverse, List.append_assoc] at hout'
  have hflow : l.inFlow = false := by
    have : l.saveKey.inFlow = false := hout.inFlow
    rwa [Lexer.inFlow, Lexer.flowDepth_saveKey] at this
  refine ⟨l', (readTokenAt_plain hhead (by simp [hflow]) hrest).trans hl',
    ⟨⟨false, s, hout', ?_, fun hf => by simp at hf⟩, hkey.trans hlead, hedge, ?_, ?_, ?_⟩, ?_⟩
  · rw [hcur, hdm]
    exact hs.right _
  · rw [rest, hcur, hdr]
  · rw [hcur, hdm, ← hcol]
    rfl
  · simp only [List.length_cons]
    omega
  · show l'.cursor.rest.length ≤ (r ++ ':' :: t).length
    rw [hcur, hdr, List.length_append]
    omega

/-- A scalar that ends a key. -/
theorem Turns.reads_inline {style : Style} {v : List Char} (hu : Inline style v u)
    (h : Turns p ws us cols column here (u ++ ':' :: t)) (ht : t.head?.all isGap = true)
    (hlen : here + u.length ≤ column + 1024) :
    Reads p fun q => Keyed q ws (us ++ [.scalar style (String.ofList v)]) cols column
      (here + u.length) (':' :: t) := by
  cases hu with
  | plain hv => exact h.reads_plain hv ht hlen
  | single hv =>
    have hl : (singleQuote v).length = 2 + (v.map singleChar).flatten.length := by
      simp only [singleQuote, List.flatMap_def, List.length_cons, List.length_append, List.length_nil]
      omega
    rw [hl] at hlen ⊢
    refine Turns.reads_quoted .single ?_ (.inr rfl) (fun l => rfl) (written_singleChar
      fun c hc => isBreak_of_not_isHidden (hv c hc)) hlen
    simpa [singleQuote, List.flatMap_def] using h
  | double =>
    have hl : (doubleQuote v).length = 2 + (v.map doubleChar).flatten.length := by
      simp only [doubleQuote, List.flatMap_def, List.length_cons, List.length_append, List.length_nil]
      omega
    rw [hl] at hlen ⊢
    refine Turns.reads_quoted .double ?_ (.inl rfl) (fun l => rfl) (written_doubleChar v) hlen
    simpa [doubleQuote, List.flatMap_def] using h

/-! ### Whole keys -/

/-- The text of a key before its `:`, and its words. -/
inductive KeyText : List Char → List Token → Prop where
  | scalar {style : Style} {v u : List Char} : Inline style v u →
    KeyText u [.scalar style (String.ofList v)]
  | alias {name : List Char} : IsName name →
    KeyText ('*' :: name ++ [' ']) [.alias (String.ofList name)]
  | label {u t : List Char} {tok : Token} {us : List Token} : IsLabel u tok → KeyText t us →
    KeyText (u ++ ' ' :: t) (tok :: us)

theorem KeyText.prelude {v : List Char} {vs : List Token} (hv : Prelude v vs) (hu : KeyText u us) :
    KeyText (v ++ u) (vs ++ us) := by
  cases hv with
  | none => exact hu
  | some hv =>
    induction hv with
    | one hl => simpa using hu.label hl
    | more hl _ ih => simpa using ih.label hl

/-- The first character of a key. -/
theorem KeyText.head (h : KeyText u us) (tail : List Char) : ∃ c r, u ++ ':' :: tail = c :: r ∧
    Solid (c :: r) ∧ Inner (c :: r) := by
  cases h with
  | @scalar style v u hu =>
    cases hu with
    | plain hv =>
      obtain ⟨c, r, rfl, -⟩ := (plainFrom_of_isPlainText hv).head
      have hhead := plainHead_of_isPlainText hv
      refine ⟨c, _, rfl, hhead.solid _, hhead.inner fun x hx => ?_⟩
      obtain rfl : ':' = x := by simpa using hx
      decide
    | single hv => exact ⟨_, _, rfl, Solid.cons (by decide) (by decide), Inner.cons (by decide)⟩
    | double => exact ⟨_, _, rfl, Solid.cons (by decide) (by decide), Inner.cons (by decide)⟩
  | «alias» _ => exact ⟨_, _, rfl, Solid.cons (by decide) (by decide), Inner.cons (by decide)⟩
  | label hu _ =>
    obtain ⟨c, r, rfl, hg, hh, hin⟩ := hu.head
    exact ⟨c, _, rfl, Solid.cons hg hh, Inner.cons hin⟩

/-- The words of a key are read up to its `:`, or to the blank before it. -/
theorem Turns.reads_key {vs : List Token} (hk : KeyText u vs) :
    ∀ {p : Progress} {us : List Token} {here : Nat},
      Turns p ws us cols column here (u ++ ':' :: t) → t.head?.all isGap = true →
      here + u.length ≤ column + 1024 →
      Reads p fun q => ∃ n there, there + n = here + u.length ∧
        Keyed q ws (us ++ vs) cols column there (pad n ++ ':' :: t) := by
  induction hk with
  | scalar hu =>
    intro p us here h ht hlen
    exact (h.reads_inline hu ht hlen).mono fun q hq => ⟨0, _, rfl, hq⟩
  | @«alias» name hname =>
    intro p us here h _ hlen
    have h' : Turns p ws us cols column here (('*' :: name) ++ ' ' :: ':' :: t) := by simpa using h
    simp only [List.length_append, List.length_cons, List.length_nil] at hlen
    refine (h'.reads_label (.alias hname) (by simp only [List.length_cons]; omega)).mono fun q hq => ?_
    exact ⟨1, _, by simp only [List.length_append, List.length_cons, List.length_nil]; omega, hq⟩
  | @label u rest tok vs hu hk ih =>
    intro p us here h ht hlen
    simp only [List.length_append, List.length_cons] at hlen
    have h' : Turns p ws us cols column here (u ++ ' ' :: (rest ++ ':' :: t)) := by simpa using h
    refine (h'.reads_label hu (by omega)).trans fun q hq => ?_
    obtain ⟨c, r, hcr, hsolid, -⟩ := hk.head t
    rw [hcr] at hq
    have hturn := hq.turns hsolid (by omega)
    rw [← hcr] at hturn
    refine (ih hturn ht (by omega)).mono ?_
    rintro q ⟨n, there, heq, hq⟩
    refine ⟨n, there, by simp only [List.length_append, List.length_cons]; omega, ?_⟩
    simpa using hq

/-- The `:` behind a key is read by a lexer: the key token is put in front of the words of the key, and
before it the block collection that begins with the key is opened. -/
theorem Outside.readColon {mark : Mark} (h : Outside ⟨sent, l⟩ (ws ++ us) cols loose s)
    (hs : s.Begins ws.length column mark) (hle : edge cols ≤ column)
    (hloose : loose = true → edge cols < column) (hr : l.cursor.rest = ':' :: (gap ++ t))
    (hg : IsSpace (Lexer.colsWith column cols) gap) (ht : Solid t) :
    ∃ l', l.readColon = .ok l' ∧
      Ready ⟨sent, l'⟩ (ws ++ (opening column cols .blockMappingStart ++ .key :: (us ++ [.value])))
        (Lexer.colsWith column cols) (columnAfter (l.cursor.mark.column + 1) gap) (gap.any isBreak) t ∧
      l'.cursor.rest.length ≤ (gap ++ t).length := by
  have hspot : l.spot = s := h.spot_eq
  have hflow : l.inFlow = false := h.inFlow
  have hsent : l.sent ≤ ws.length := by
    rw [← hs.number_eq]
    exact (h.sound.2 s (by rw [h.spots_eq]; simp) hs.possible).1
  have hno : '\t' ∉ gap := hg.tab_not_mem (Lexer.colsWith_ne_nil column cols)
  obtain ⟨d, left, hread, htrail⟩ := readColon_eq hr hg ht (fun hm => absurd hm hno)
    (by simp [hflow]) h.pair (hspot ▸ hs.possible)
  rw [valued, hspot, hs.number_eq, hs.column_eq] at hread
  have h₁ := (h.move d).insert hsent s.mark .key
  obtain ⟨l₂, hl₂, h₂, hcur₂, -⟩ := h₁.openBefore hsent hle hloose .blockMappingStart l.mark
  obtain ⟨l₃, hl₃, h₃, hcur₃, -⟩ := h₂.indentContent
  rw [hl₂, hl₃] at hread
  have hclear : s.clear.possible = true → l₃.sent ≤ s.clear.number ∧ s.clear.number ≤ l₃.count :=
    fun hc => by simp [KeySpot.clear] at hc
  have h₄ := ((h₃.setSpot hclear).allowKey false).push l.mark .value
  simp only [List.append_assoc, List.cons_append] at h₄
  have hcursor : l₃.cursor = d := hcur₃.trans hcur₂
  refine ⟨_, hread,
    ⟨⟨_, s.clear, h₄, s.clear_calm⟩, clear_push rfl _, left, htrail.space hg, ?_, ?_, ?_⟩, ?_⟩
  · show l₃.cursor.rest = _
    rw [hcursor, htrail.rest_eq]
  · show columnAfter l₃.cursor.mark.column left = _
    rw [hcursor, htrail.column_eq]
    rfl
  · show (false || (!l₃.inFlow && left.any isBreak)) = _
    have : l₃.inFlow = false := h₃.inFlow
    simp [this, htrail.any_eq]
  · show l₃.cursor.rest.length ≤ _
    rw [hcursor]
    exact htrail.length_le

/-- The `:` behind a key. -/
theorem Keyed.reads_colon {n : Nat} (h : Keyed p ws us cols column here (pad n ++ ':' :: (gap ++ t)))
    (hn : here + n ≤ column + 1024)
    (hg : IsSpace (Lexer.colsWith column cols) gap) (hne : gap ≠ []) (ht : Solid t) :
    Reads p fun q => Ready q
      (ws ++ (opening column cols .blockMappingStart ++ .key :: (us ++ [.value])))
      (Lexer.colsWith column cols) (columnAfter (here + n + 1) gap) (gap.any isBreak) t := by
  obtain ⟨loose, s₀, hout, hs, hloose⟩ := h.outside
  have hlt := h.lt
  have hle := h.edge_le
  have hcol := h.column_eq
  have hnl : (pad n).any isBreak = false := any_isBreak_blanks fun b hb => by
    rw [List.eq_of_mem_replicate hb]
    rfl
  have hpad : (pad n).length = n := List.length_replicate
  have hnear : Near p.lexer.cursor s₀ (pad n).length := by
    rw [hpad]
    exact near_of_begins hs (by omega)
  have hle' : edge cols ≤ ((here + n : Nat) : Int) := by omega
  obtain ⟨h1, h2⟩ := colsAt_of_edge_le hle'
  have hafter : columnAfter p.lexer.cursor.mark.column (pad n) = here + n := by
    rw [hcol]
    exact columnAfter_replicate here n
  obtain ⟨l, s, htok, ha⟩ := hout.face h.rest_eq (IsSpace.replicate n)
    (Solid.cons (by decide) (by decide)) hafter
    (.inr ⟨hnl, hnear⟩) (fun _ => Inner.cons (by decide))
  obtain rfl : s = s₀ := ha.near hnl hnear
  have hl := ha.outside
  rw [h1, h2, List.replicate_zero, List.append_nil] at hl
  have hspaced : l.cursor.second?.all isGap = true := by
    simp only [Cursor.second?, ha.rest_eq, List.tail_cons]
    exact head?_space hg hne
  have hcolon : l.readTokenAt ':' = l.readColon := by
    simp [Lexer.readTokenAt, hspaced]
  obtain ⟨l', hread, hready, hlen⟩ := hl.readColon hs hle (fun hb => by
    rw [Bool.and_eq_true] at hb
    exact hloose hb.1) ha.rest_eq hg ht
  rw [ha.column_eq] at hready
  refine hready.behind (htok.trans (hcolon.trans hread)) ?_
  rw [h.rest_eq]
  simp only [List.length_append, List.length_cons] at hlen ⊢
  omega

/-- A key on one line with its `:`. -/
theorem Ready.reads_key (hk : KeyText u us) (h : Ready p ws cols column true (u ++ ':' :: (gap ++ t)))
    (hlen : u.length ≤ 1024)
    (hg : IsSpace (Lexer.colsWith column (colsAt column cols)) gap) (hne : gap ≠ []) (ht : Solid t) :
    Reads p fun q => Ready q
      (ws ++ (ends column cols ++ (opening column (colsAt column cols) .blockMappingStart ++
        .key :: (us ++ [.value]))))
      (Lexer.colsWith column (colsAt column cols)) (columnAfter (column + u.length + 1) gap)
      (gap.any isBreak) t := by
  obtain ⟨c, r, hcr, hsolid, hinner⟩ := hk.head (gap ++ t)
  rw [hcr] at h
  have hturn := h.turns hsolid hinner
  rw [← hcr] at hturn
  refine (hturn.reads_key hk (head?_space hg hne) (by omega)).trans ?_
  rintro q ⟨n, there, heq, hq⟩
  rw [List.nil_append] at hq
  have hread := hq.reads_colon (by omega) hg hne ht
  rw [heq] at hread
  simpa only [List.append_assoc] using hread

end Progress

end TaggedYaml
