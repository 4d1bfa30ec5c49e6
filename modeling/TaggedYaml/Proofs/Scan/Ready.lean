import TaggedYaml.Proofs.Scan.Flow

/-!
# Ready — a scan outside brackets with no key under way

From the beginning of a text to its end a scan comes from one such place to the next: `Ready` says
which words were read, which block collections are open, and what comes next at which column.
-/

namespace TaggedYaml

namespace Progress

/-- A scan outside brackets with no key under way: the words read, the columns of the open block
collections, the column of the next token, whether a key may begin there, and the text from there
on. -/
structure Ready (p : Progress) (ws : List Token) (cols : List Nat) (column : Nat) (keys : Bool)
    (t : List Char) : Prop where
  outside : ∃ loose s, Outside p ws cols loose s ∧ s.Calm
  clear : Clear p cols
  next : ∃ gap, IsSpace cols gap ∧ p.rest = gap ++ t ∧
    columnAfter p.lexer.cursor.mark.column gap = column ∧ p.lexer.keyAfter gap = keys

variable {p q : Progress} {sent : List (Marked Token)} {l : Lexer} {ws ws' : List Token}
  {cols cols' : List Nat} {loose : Bool} {s : KeySpot} {column column' : Nat} {keys keys' : Bool}
  {t t' : List Char}

/-- What is before the next token outside brackets. -/
structure Facing (sent : List (Marked Token)) (l : Lexer) (ws : List Token) (cols : List Nat)
    (column : Nat) (keys : Bool) (t : List Char) : Prop where
  outside : ∃ loose s, Outside ⟨sent, l⟩ ws cols loose s ∧ s.Calm ∧ (loose = true → edge cols < column)
  clear : Clear ⟨sent, l⟩ cols
  rest_eq : l.cursor.rest = t
  column_eq : l.cursor.mark.column = column
  allowed_eq : l.keyAllowed = keys
  indent_le : l.indent ≤ column

/-- The words that end block collections before text at a column. -/
def ends (column : Int) (cols : List Nat) : List Token := List.replicate (closedAt column cols) .blockEnd

theorem Ready.face {c : Char} (h : Ready p ws cols column keys (c :: t)) (ht : Solid (c :: t))
    (hin : column = 0 → Inner (c :: t)) :
    ∃ l, p.lexer.readToken = l.readTokenAt c ∧
      Facing p.sent l (ws ++ ends column cols) (colsAt column cols) column keys (c :: t) := by
  obtain ⟨loose, s, hout, hs⟩ := h.outside
  obtain ⟨gap, hg, hr, hcol, hkeys⟩ := h.next
  obtain ⟨l, s', htok, ha⟩ := hout.face hr hg ht hcol (.inl hs) hin
  refine ⟨l, htok, ⟨_, s', ha.outside, ha.calm hs, fun hl => ?_⟩, ha.clear h.clear, ha.rest_eq,
    ha.column_eq, ha.allowed_eq.trans hkeys, ha.indent_le⟩
  rw [Bool.and_eq_true, decide_eq_true_eq] at hl
  obtain ⟨h1, -⟩ := colsAt_of_edge_le (Int.le_of_lt hl.2)
  rw [h1]
  exact hl.2

/-- A token was read behind which no key is under way. -/
theorem Ready.behind {l' : Lexer} (h : Ready ⟨p.sent, l'⟩ ws cols column keys t)
    (hr : p.lexer.readToken = .ok l') (hlen : l'.cursor.rest.length < p.rest.length) :
    Reads p fun q => Ready q ws cols column keys t := by
  obtain ⟨loose, s, hout, hs⟩ := h.outside
  obtain ⟨gap, hg, hrest, hcol, hk⟩ := h.next
  obtain ⟨q, hstep, hq, hclear, hc, hkey⟩ := hout.behind hr hlen (.inl hs)
  refine Reads.of_step hstep ⟨⟨loose, _, hq, hs.fresh _⟩, hclear h.clear, gap, hg, ?_, ?_, ?_⟩
  · rw [rest, hc]
    exact hrest
  · rw [hc]
    exact hcol
  · rw [Lexer.keyAfter, hkey, hq.inFlow]
    rw [Lexer.keyAfter, hout.inFlow] at hk
    exact hk

/-- A token is read behind which no key is under way. -/
theorem Ready.round {c : Char} (h : Ready p ws cols column keys (c :: t)) (ht : Solid (c :: t))
    (hin : column = 0 → Inner (c :: t))
    (hread : ∀ l, Facing p.sent l (ws ++ ends column cols) (colsAt column cols) column keys (c :: t) →
      ∃ l', l.readTokenAt c = .ok l' ∧ Ready ⟨p.sent, l'⟩ ws' cols' column' keys' t' ∧
        l'.cursor.rest.length ≤ t.length) :
    Reads p fun q => Ready q ws' cols' column' keys' t' := by
  obtain ⟨l, htok, hl⟩ := h.face ht hin
  obtain ⟨l', hl', hready, hlen⟩ := hread l hl
  obtain ⟨gap₀, -, hr₀, -, -⟩ := h.next
  refine hready.behind (htok.trans hl') ?_
  rw [hr₀]
  simp only [List.length_append, List.length_cons]
  omega

/-- Where a token stands right of the open block collections, none of them ends. -/
theorem Facing.of_edge_lt (h : Facing sent l (ws ++ ends column cols) (colsAt column cols) column keys t)
    (hi : edge cols < column) : Facing sent l ws cols column keys t := by
  obtain ⟨h1, h2⟩ := colsAt_of_edge_le (Int.le_of_lt hi)
  rw [ends, h1, h2, List.replicate_zero, List.append_nil] at h
  exact h

/-- A place where a key may have begun. -/
theorem Outside.saveKey (h : Outside ⟨sent, l⟩ ws cols loose s) :
    ∃ s', Outside ⟨sent, l.saveKey⟩ ws cols loose s' ∧ (l.keyAllowed = false → s' = s) ∧
      (l.keyAllowed = true → s'.possible = true ∧ s'.number = ws.length ∧ s'.mark = l.mark) ∧
      (s.Calm → edge cols < l.cursor.mark.column → s'.Calm) := by
  have hcount : l.count = ws.length := h.count_eq
  rw [Lexer.saveKey]
  cases hk : l.keyAllowed with
  | false =>
    exact ⟨s, h, fun _ => rfl, fun hc => by simp at hc, fun hs _ => hs⟩
  | true =>
    have hle : l.sent ≤ ws.length := by
      rw [← hcount, Lexer.count]
      exact Nat.le_add_right ..
    rw [if_pos rfl, hcount]
    refine ⟨_, h.setSpot fun _ => ⟨hle, Nat.le_of_eq hcount.symm⟩, fun hc => by simp at hc,
      fun _ => ⟨rfl, rfl, rfl⟩, fun _ hlt _ => ?_⟩
    have hb := h.blocks
    cases loose with
    | true =>
      have hls : l.levels = ⟨edge cols, false⟩ :: levelsOf cols := by simpa using hb.levels_eq
      simp [hls]
    | false =>
      have hind : l.indent = edge cols := by simpa using hb.indent_eq
      have hne : (l.indent == l.column) = false := by
        rw [hind, Lexer.column]
        simp only [beq_eq_false_iff_ne]
        omega
      simp [hne]

/-! ### Brackets -/

theorem Outside.opened (h : Outside ⟨sent, l⟩ ws cols loose s) (mapping : Bool) :
    Inside ⟨sent, Progress.opened l mapping⟩ ws .none 0 cols loose s mapping := by
  have hb := h.blocks
  refine ⟨⟨h.sound.1, fun x hx hp => ?_⟩, h.words_eq, congrArg (· + 1) hb.flat, ⟨[], ?_, rfl, ?_⟩,
    rfl, ⟨rfl, hb.2, hb.3, hb.4⟩, fun hm => ?_, h.pair, h.going⟩
  · rcases List.mem_cons.mp hx with rfl | hx
    · simp [KeySpot.none] at hp
    · exact h.sound.2 x hx hp
  · exact congrArg (KeySpot.none :: ·) h.spots_eq
  · simp
  · subst hm
    show (l.inBraces || openToken true == Token.flowMappingStart) = true
    simp [openToken]

theorem Inside.closed_last {r : KeySpot} {braces : Bool}
    (h : Inside ⟨sent, l⟩ ws r 0 cols loose s braces) :
    Outside ⟨sent, Progress.closed l⟩ ws cols loose s := by
  obtain ⟨ss, hss, hlen, -⟩ := h.spots_eq
  obtain rfl : ss = [] := List.length_eq_zero_iff.mp hlen
  have hspots : (Progress.closed l).spots = [s] := by
    simp only at hss
    simp [Progress.closed, hss]
  have hdepth : (Progress.closed l).flowDepth = 0 := by
    have : l.flowDepth = 1 := h.depth_eq
    simp [Progress.closed, this]
  exact ⟨⟨h.sound.1, fun x hx hp => h.sound.2 x (List.mem_of_mem_tail hx) hp⟩, h.words_eq,
    ⟨hdepth, h.blocks.2, h.blocks.3, h.blocks.4⟩, hspots, h.pair, h.going⟩

theorem isProperty_closeToken (mapping : Bool) : isProperty (closeToken mapping) = false := by
  cases mapping <;> rfl

section

variable {gap : List Char}

theorem Ready.reads_open (mapping : Bool)
    (h : Ready p ws cols column keys (openChar mapping :: (gap ++ t))) (hi : edge cols < column)
    (hg : IsSpace cols gap) (ht : Solid t) :
    Reads p fun q => ∃ r loose s, Inside q (ws ++ [openToken mapping]) r 0 cols loose s mapping ∧
      s.Calm ∧ q.lexer.cursor.Faces cols (columnAfter (column + 1) gap) t ∧
      q.lexer.keyAllowed = true := by
  obtain ⟨l, htok, hl⟩ := h.face (Solid.cons (by cases mapping <;> decide)
    (by cases mapping <;> decide)) fun _ => Inner.cons (by cases mapping <;> decide)
  obtain ⟨⟨loose, s, hout, hs, -⟩, -, hrest, hcol, -, -⟩ := hl.of_edge_lt hi
  obtain ⟨s', hsave, -, -, hcalm⟩ := hout.saveKey
  obtain ⟨i, ls, hcontent, hb⟩ := hsave.blocks.indentContent
  have h₁ := (hsave.relevel hb).opened mapping
  have hdepth : l.saveKey.flowDepth < Lexer.maxFlowDepth := by
    rw [hsave.blocks.flat]
    decide
  obtain ⟨d, left, hopen, htrail⟩ := openFlow_eq mapping hcontent hdepth (Lexer.cursor_saveKey l)
    hrest hg ht
  have hcol' : (l.cursor.passInk 1).mark.column = column + 1 := by
    show l.cursor.mark.column + 1 = _
    rw [hcol]
  obtain ⟨gap₀, -, hr₀, -, -⟩ := h.next
  obtain ⟨q, hstep, hq, hc, hk, -⟩ := ((h₁.relocate d true l.saveKey.valueOffset).push l.mark
    (openToken mapping)).behind ((htok.trans (readTokenAt_open l mapping)).trans hopen) (by
      show d.rest.length < _
      have := htrail.length_le
      rw [hr₀]
      simp only [List.length_append, List.length_cons] at this ⊢
      omega)
  refine Reads.of_step hstep ⟨_, _, s', hq, hcalm hs (by rw [hcol]; exact hi), ?_, hk⟩
  rw [hc]
  exact hcol' ▸ htrail.faces hg

theorem Inside.reads_close_last {r : KeySpot} {braces : Bool} (mapping : Bool)
    (gap t : List Char) (h : Inside p ws r 0 cols loose s braces) (hs : s.Calm)
    (hf : p.lexer.cursor.Faces cols column (closeChar mapping :: (gap ++ t))) (hi : edge cols < column)
    (hg : IsSpace cols gap) (ht : Solid t) :
    Reads p fun q => Ready q (ws ++ [closeToken mapping]) cols (columnAfter (column + 1) gap)
      (gap.any isBreak) t := by
  obtain ⟨gap₀, hg₀, hr₀, hcol₀⟩ := hf
  obtain ⟨e, htok, hrest, hcol, -⟩ := h.face hr₀ hg₀ (Solid.cons (by cases mapping <;> decide)
    (by cases mapping <;> decide)) hcol₀ hi fun _ => Inner.cons (by cases mapping <;> decide)
  obtain ⟨l, hl, hcur, hins⟩ : ∃ l, l = { p.lexer with cursor := e } ∧ l.cursor = e ∧
      Inside ⟨p.sent, l⟩ ws r 0 cols loose s braces :=
    ⟨_, rfl, rfl, Inside.relocate (l := p.lexer) h e p.lexer.keyAllowed p.lexer.valueOffset⟩
  rw [← hl] at htok
  obtain ⟨l₁, hdrop, h₁, hc₁⟩ := hins.dropKey
  obtain ⟨d, left, v, hclose, htrail⟩ := closeFlow_eq mapping hdrop h₁.inFlow h₁.pair hc₁
    (hcur ▸ hrest) hg ht
  have h₂ := h₁.closed_last.relocate d false v
  have hcol' : (l.cursor.passInk 1).mark.column = column + 1 := by
    show l.cursor.mark.column + 1 = _
    rw [hcur, hcol]
  obtain ⟨q, hstep, hq, hclear, hc, hk⟩ := (h₂.push l.mark (closeToken mapping)).behind
    ((htok.trans (readTokenAt_close l mapping)).trans hclose) (by
      show d.rest.length < _
      have := htrail.length_le
      rw [rest, hr₀]
      simp only [List.length_append, List.length_cons] at this ⊢
      omega) (.inl hs)
  obtain ⟨gap', hg', hr', hcol''⟩ := htrail.faces hg
  refine Reads.of_step hstep ⟨⟨loose, _, hq, hs.fresh _⟩,
    hclear (clear_push (isProperty_closeToken mapping) _), left, htrail.space hg, ?_, ?_, ?_⟩
  · rw [rest, hc]
    exact htrail.rest_eq
  · rw [hc, ← hcol']
    exact htrail.column_eq
  · rw [Lexer.keyAfter, hk, hq.inFlow, htrail.any_eq]
    show (false || (!false && _)) = _
    simp

end

/-! ### Scalars -/

/-- A scalar that is no key is read with the space behind it. -/
theorem Ready.reads_scalar {c : Char} {r : List Char} {w : Token}
    (h : Ready p ws cols column keys (c :: r)) (hsolid : Solid (c :: r)) (hinner : Inner (c :: r))
    (hi : edge cols < column) (hlen : t.length ≤ r.length)
    (hread : ∀ (l : Lexer) loose s, Outside ⟨p.sent, l.saveKey⟩ ws cols loose s → l.inFlow = false →
      l.cursor.rest = c :: r → l.cursor.mark.column = column →
      ∃ l' loose', l.readTokenAt c = .ok l' ∧ Outside ⟨p.sent, l'⟩ (ws ++ [w]) cols loose' s ∧
        Clear ⟨p.sent, l'⟩ cols ∧ l'.cursor.rest = t ∧ l'.cursor.mark.column = column' ∧
        l'.keyAllowed = keys') :
    Reads p fun q => Ready q (ws ++ [w]) cols column' keys' t := by
  refine h.round hsolid (fun _ => hinner) fun l hl => ?_
  obtain ⟨⟨loose, s, hout, hs, -⟩, -, hrest, hcol, -, -⟩ := hl.of_edge_lt hi
  obtain ⟨s', hsave, -, -, hcalm⟩ := hout.saveKey
  obtain ⟨l', loose', htok, hout', hclear, hrest', hcol', hkey⟩ :=
    hread l loose s' hsave hout.inFlow hrest hcol
  refine ⟨l', htok, ⟨⟨loose', s', hout', hcalm hs (by rw [hcol]; exact hi)⟩, hclear, [], IsSpace.nil,
    hrest', hcol', ?_⟩, by rw [hrest']; exact hlen⟩
  rw [Lexer.keyAfter, hkey]
  simp

/-- A quoted scalar that is no key. -/
theorem Ready.reads_quoted {quote : Char} {units : List (List Char)} {v gap : List Char}
    (style : Style)
    (h : Ready p ws cols column keys (quote :: (units.flatten ++ quote :: (gap ++ t))))
    (hq : quote = '"' ∨ quote = '\'')
    (hstyle : ∀ l : Lexer, l.readTokenAt quote = l.readQuotedScalar quote style)
    (hw : Written quote v units) (hi : edge cols < column) (hg : IsSpace cols gap) (ht : Solid t)
    (hend : gap.any isBreak = true ∨ t = []) (hqe : QuoteEnd quote (gap ++ t)) :
    Reads p fun q => Ready q (ws ++ [.scalar style (String.ofList v)]) cols
      (columnAfter (column + (2 + units.flatten.length)) gap) (gap.any isBreak) t := by
  have hgap : isGap quote = false := by rcases hq with rfl | rfl <;> decide
  refine h.reads_scalar (Solid.cons hgap (by rcases hq with rfl | rfl <;> decide))
    (Inner.cons (by rcases hq with rfl | rfl <;> decide)) hi
    (by simp only [List.length_append, List.length_cons]; omega)
    fun l loose s hsave hflow hrest hcol => ?_
  have hindent : l.indent = l.saveKey.indent := (Lexer.indent_saveKey l).symm
  have hle : l.indent ≤ l.column := by
    have hedge : l.saveKey.indent ≤ edge cols + 1 := hsave.blocks.indent_le
    rw [Lexer.column, hcol, hindent]
    omega
  obtain ⟨d, hread, hrest', hcol', -⟩ := readQuotedScalar_written style hgap hw hg
    (fun hc => hindent ▸ hsave.blocks.indent_nonpos hc) ht hqe
    (hend.imp id fun h0 c hc => by simp [h0] at hc) hrest hle
  have hout := hsave.relocate d (!l.inFlow && gap.any isBreak) d.mark.offset
  refine ⟨_, loose, (hstyle l).trans hread, hout.push _ _, clear_push rfl _, hrest', ?_, ?_⟩
  · rw [← hcol]
    exact hcol'
  · show (!l.inFlow && gap.any isBreak) = _
    simp [hflow]

/-! ### The end of a text -/

theorem closedAt_add (column : Int) (cols : List Nat) :
    closedAt column cols + closedAt (-1) (colsAt column cols) = cols.length := by
  rw [(colsAt_neg_one _).2, closedAt, colsAt, ← List.length_append, List.takeWhile_append_dropWhile]

theorem Outside.dropKey (h : Outside ⟨sent, l⟩ ws cols loose s) (hs : s.Calm) :
    ∃ l', l.dropKey = .ok l' ∧ Outside ⟨sent, l'⟩ ws cols loose s.clear ∧ l'.cursor = l.cursor ∧
      l'.queue = l.queue ∧ l'.keyAllowed = l.keyAllowed := by
  have hspot : l.spot = s := h.spot_eq
  refine ⟨l.setSpot s.clear, ?_, h.setSpot fun hp => by simp [KeySpot.clear] at hp, rfl, rfl, rfl⟩
  rw [Lexer.dropKey, hspot, if_neg]
  intro hc
  rw [Bool.and_eq_true] at hc
  rw [hs hc.1] at hc
  simp at hc

/-- The end of a text is read, and with it the ends of the open block collections. -/
theorem Outside.readEnd (h : Outside ⟨sent, l⟩ ws cols loose s) (hs : s.Calm) :
    ∃ l', l.readEnd = .ok l' ∧ words ⟨sent, l'⟩ = ws ++ (ends (-1) cols ++ [.textEnd]) ∧
      (∀ r ∈ l'.spots, r.possible = false) ∧ l'.finished = true := by
  obtain ⟨l₁, hl₁, h₁⟩ : ∃ l₁, l₁ = (if l.mark.column = 0 then l else
      l.move { l.cursor with mark := ⟨l.mark.offset, l.mark.line + 1, 0⟩ }) ∧
      Outside ⟨sent, l₁⟩ ws cols loose s := by
    by_cases h0 : l.mark.column = 0
    · exact ⟨l, (if_pos h0).symm, h⟩
    · exact ⟨_, (if_neg h0).symm, h.move _⟩
  have hspots : l₁.spots = [s] := h₁.spots_eq
  have hany : ¬ (l₁.spots.any fun s => s.required && s.possible) = true := by
    rw [hspots, List.any_cons, List.any_nil, Bool.or_false, Bool.and_eq_true]
    intro hc
    rw [hs hc.2] at hc
    simp at hc
  have h₂ : Outside ⟨sent, { l₁ with spots := l₁.spots.map .clear }⟩ ws cols loose s.clear := by
    have : Outside ⟨sent, l₁.setSpot s.clear⟩ ws cols loose s.clear :=
      h₁.setSpot fun hp => by simp [KeySpot.clear] at hp
    have heq : l₁.setSpot s.clear = { l₁ with spots := l₁.spots.map .clear } := by
      simp [Lexer.setSpot, hspots]
    rwa [heq] at this
  obtain ⟨l₃, hclose, h₃, -⟩ := h₂.closeBlocks (-1)
  obtain ⟨l₄, hdrop, h₄, -⟩ := h₃.dropKey s.clear_calm
  refine ⟨({ l₄ with keyAllowed := false, finished := true }).push l₄.mark .textEnd, ?_, ?_, ?_, rfl⟩
  · rw [Lexer.readEnd]
    simp only [← hl₁, hany, hclose, if_false, bind, Except.bind, hdrop, Bool.false_eq_true]
    rfl
  · have hw : words ⟨sent, l₄⟩ = ws ++ List.replicate (closedAt (-1) cols) .blockEnd := h₄.words_eq
    rw [words_push]
    show words ⟨sent, l₄⟩ ++ _ = _
    rw [hw, List.append_assoc, ends]
  · intro r hr
    have h4 : l₄.spots = [s.clear.clear] := h₄.spots_eq
    have hr' : r ∈ l₄.spots := hr
    rw [h4, List.mem_singleton] at hr'
    rw [hr']
    rfl

/-- Where the text is over, the open block collections end, and so does the text. -/
theorem Ready.finish (h : Ready p ws cols column keys []) (fuel : Nat) :
    (Lexer.scanLoop (fuel + 1) p.sent p.lexer).tokens.map (·.item) =
      ws ++ (List.replicate cols.length .blockEnd ++ [.textEnd]) := by
  obtain ⟨loose, s, hout, hs⟩ := h.outside
  obtain ⟨gap, hg, hr, hcol, -⟩ := h.next
  obtain ⟨l₁, l₂, l₃, s', hskip, hdrop, hclose, ha⟩ :=
    hout.approach hr hg Solid.nil hcol (.inl hs)
  obtain ⟨l, hend, hwords, hspots, hfin⟩ :=
    (ha.outside.move (l₃.cursor.look 4)).readEnd (ha.calm hs)
  have hread : p.lexer.readToken = .ok l := by
    have hhead : (l₃.move (l₃.cursor.look 4)).cursor.head? = none := by
      show l₃.cursor.rest.head? = none
      rw [ha.rest_eq]
      rfl
    rw [Lexer.readToken, hskip]
    simp only [bind, Except.bind, hdrop, hclose, hhead]
    exact hend
  have hdrop' : l.dropStale = .ok { l with spots := freshSpots l } := by
    refine dropStale_eq fun r hr hst => ?_
    simp only [Lexer.isStale, hspots r hr, Bool.false_and] at hst
    exact absurd hst Bool.false_ne_true
  have hfresh : ∀ r ∈ freshSpots l, r.possible = false := by
    intro r hr
    obtain ⟨r₀, hr₀, rfl⟩ := List.mem_map.mp hr
    split
    · rfl
    · exact hspots r₀ hr₀
  rw [scanLoop_of_finished (l := { l with spots := freshSpots l }) (by rw [hread]; exact hdrop')
    hfin hfresh fuel]
  have hclosed := closedAt_add column cols
  have hw : (p.sent.reverse ++ l.queue.toList).map (·.item) = words ⟨p.sent, l⟩ := rfl
  rw [hw, hwords, ends, List.append_assoc, ← List.append_assoc (List.replicate _ _),
    List.replicate_append_replicate, hclosed]

/-- The words of a text, if a scan comes to its end. -/
theorem Reads.tokens {text : List Char}
    (h : Reads ⟨[], .ofList text⟩ fun q => Ready q ws cols column keys []) :
    (scan text).tokens.map (·.item) = ws ++ (List.replicate cols.length .blockEnd ++ [.textEnd]) := by
  obtain ⟨q, hsteps, hq⟩ := h
  have hrest : (⟨[], .ofList text⟩ : Progress).rest.length < text.length + 1 := by
    show (text.takeWhile (· != '\x00')).length < text.length + 1
    have := (List.takeWhile_sublist (· != '\x00') (l := text)).length_le
    omega
  obtain ⟨fuel, hlt, heq⟩ := scanLoop_of_steps hsteps hrest
  obtain ⟨fuel, rfl⟩ : ∃ n, fuel = n + 1 := ⟨fuel - 1, by omega⟩
  rw [scan]
  show (Lexer.scanLoop (text.length + 1) [] (.ofList text)).tokens.map _ = _
  rw [heq]
  exact hq.finish fuel

/-- The beginning of a text. -/
theorem Ready.start {text : List Char} (gap t : List Char) (heq : text = gap ++ t) (h0 : '\x00' ∉ text)
    (hg : IsSpace [] gap) : Ready ⟨[], .ofList text⟩ [] [] (columnAfter 0 gap) true t := by
  subst heq
  have hrest : (gap ++ t).takeWhile (· != '\x00') = gap ++ t :=
    List.takeWhile_eq_self_iff.mpr fun c hc => by
      have : c ≠ '\x00' := by
        rintro rfl
        exact h0 hc
      simpa using this
  refine ⟨⟨false, .none, ⟨⟨rfl, ?_⟩, rfl, ⟨rfl, rfl, rfl, by simp⟩, rfl, rfl, rfl⟩, fun hp => ?_⟩,
    fun hne => absurd rfl hne, gap, hg, hrest, rfl, rfl⟩
  · intro r hr hp
    obtain rfl : r = KeySpot.none := by simpa [Lexer.ofList] using hr
    simp [KeySpot.none] at hp
  · simp [KeySpot.none] at hp

end Progress

end TaggedYaml
