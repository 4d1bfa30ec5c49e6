import TaggedYaml.Proofs.Scan.Columns
import TaggedYaml.Proofs.Scan.Progress
import TaggedYaml.Proofs.Scan.Space

/-!
# Round — one token outside brackets

`Outside` is what holds of a scan outside brackets between two tokens.  A round comes to the next
token over spaces and line feeds (`Outside.face`), reads it, and hands tokens on (`Outside.behind`);
what lies between is the matter of the token.
-/

namespace TaggedYaml

/-- No key has to begin here. -/
def KeySpot.Calm (s : KeySpot) : Prop := s.possible = true → s.required = false

/-- The spot that is left when a key too far back is given up. -/
def Lexer.freshSpot (l : Lexer) (s : KeySpot) : KeySpot := if l.isStale s then s.clear else s

theorem KeySpot.Calm.fresh {s : KeySpot} (h : s.Calm) (l : Lexer) : (l.freshSpot s).Calm := by
  unfold Lexer.freshSpot
  split
  · intro hp
    simp [KeySpot.clear] at hp
  · exact h

theorem KeySpot.clear_calm (s : KeySpot) : s.clear.Calm := fun hp => by simp [KeySpot.clear] at hp

theorem Lexer.freshSpot_of_fresh {l : Lexer} {s : KeySpot} (h : l.isStale s = false) :
    l.freshSpot s = s := by
  simp [Lexer.freshSpot, h]

namespace Progress

/-- What holds of a scan outside brackets: the words read, the columns of the open block
collections, and the spot of a key. -/
structure Outside (p : Progress) (ws : List Token) (cols : List Nat) (loose : Bool) (s : KeySpot) :
    Prop where
  sound : Sound p
  words_eq : p.words = ws
  blocks : p.lexer.Blocks cols loose
  spots_eq : p.lexer.spots = [s]
  pair : p.lexer.inPair = false
  going : p.lexer.finished = false

/-- Where there are block collections, no anchor or tag that stands unindented waits. -/
def Clear (p : Progress) (cols : List Nat) : Prop := cols ≠ [] → p.lexer.loneProperty? = none

variable {p q : Progress} {sent : List (Marked Token)} {l : Lexer} {ws : List Token}
  {cols : List Nat} {loose : Bool} {s : KeySpot}

theorem Outside.count_eq (h : Outside p ws cols loose s) : p.lexer.count = ws.length := by
  rw [← h.words_eq, length_words p h.sound.sent_length]

theorem Outside.inFlow (h : Outside p ws cols loose s) : p.lexer.inFlow = false := h.blocks.inFlow

theorem Outside.spot_eq (h : Outside p ws cols loose s) : p.lexer.spot = s := by
  rw [Lexer.spot, h.spots_eq]
  rfl

/-! ### Parts of a lexer that change one at a time -/

/-- A lexer that differs in its place, in whether keys are allowed and in where a value may touch
its `:`. -/
theorem Outside.relocate (h : Outside ⟨sent, l⟩ ws cols loose s) (c : Cursor) (allowed : Bool)
    (offset : Nat) :
    Outside ⟨sent, { l with cursor := c, keyAllowed := allowed, valueOffset := offset }⟩ ws cols loose
      s :=
  ⟨⟨h.sound.1, h.sound.2⟩, h.words_eq, ⟨h.blocks.1, h.blocks.2, h.blocks.3, h.blocks.4⟩,
    h.spots_eq, h.pair, h.going⟩

theorem Outside.move (h : Outside ⟨sent, l⟩ ws cols loose s) (c : Cursor) :
    Outside ⟨sent, l.move c⟩ ws cols loose s :=
  h.relocate c l.keyAllowed l.valueOffset

theorem Outside.allowKey (h : Outside ⟨sent, l⟩ ws cols loose s) (b : Bool) :
    Outside ⟨sent, l.allowKey b⟩ ws cols loose s :=
  h.relocate l.cursor b l.valueOffset

/-- The levels of a lexer are told by its columns. -/
theorem Outside.relevel (h : Outside ⟨sent, l⟩ ws cols loose s) {i : Int} {ls : List Level}
    {cols' : List Nat} {loose' : Bool} (hb : { l with indent := i, levels := ls }.Blocks cols' loose') :
    Outside ⟨sent, { l with indent := i, levels := ls }⟩ ws cols' loose' s :=
  ⟨⟨h.sound.1, h.sound.2⟩, h.words_eq, hb, h.spots_eq, h.pair, h.going⟩

theorem Outside.setSpot (h : Outside ⟨sent, l⟩ ws cols loose s) {s' : KeySpot}
    (hs : s'.possible = true → l.sent ≤ s'.number ∧ s'.number ≤ l.count) :
    Outside ⟨sent, l.setSpot s'⟩ ws cols loose s' := by
  have hspots : (l.setSpot s').spots = [s'] := by
    have := h.spots_eq
    simp only at this
    simp [Lexer.setSpot, this]
  refine ⟨⟨h.sound.1, fun r hr hp => ?_⟩, h.words_eq, ⟨h.blocks.1, h.blocks.2, h.blocks.3, h.blocks.4⟩, hspots,
    h.pair, h.going⟩
  simp only [hspots, List.mem_singleton] at hr
  subst hr
  exact hs hp

theorem Outside.push (h : Outside ⟨sent, l⟩ ws cols loose s) (m : Mark) (t : Token) :
    Outside ⟨sent, l.push m t⟩ (ws ++ [t]) cols loose s := by
  refine ⟨⟨h.sound.1, fun r hr hp => ?_⟩, ?_, ⟨h.blocks.1, h.blocks.2, h.blocks.3, h.blocks.4⟩, h.spots_eq,
    h.pair, h.going⟩
  · have := h.sound.2 r hr hp
    simp only [Lexer.push, Lexer.count, Array.size_push] at this ⊢
    omega
  · rw [words_push, h.words_eq]

theorem clear_push_of_column {m : Mark} (hm : m.column ≠ 0) (t : Token) :
    Clear ⟨sent, l.push m t⟩ cols := by
  intro _
  simp only [Lexer.loneProperty?, Lexer.push, Array.back?_push]
  split <;> rename_i heq
  · simp only [Option.some.injEq, Marked.mk.injEq] at heq
    rw [if_neg]
    rw [← heq.1]
    exact hm
  · simp only [Option.some.injEq, Marked.mk.injEq] at heq
    rw [if_neg]
    rw [← heq.1]
    exact hm
  · rfl

/-- An anchor or a tag. -/
def isProperty : Token → Bool
  | .anchor _ | .tag _ _ => true
  | _ => false

theorem clear_push {t : Token} (ht : isProperty t = false) (m : Mark) :
    Clear ⟨sent, l.push m t⟩ cols := by
  intro _
  simp only [Lexer.loneProperty?, Lexer.push, Array.back?_push]
  cases t <;> simp_all [isProperty]

theorem Clear.of_queue {l' : Lexer} (h : Clear ⟨sent, l⟩ cols) (hq : l'.queue = l.queue) :
    Clear ⟨sent, l'⟩ cols := by
  intro hne
  have := h hne
  simp only [Lexer.loneProperty?, hq] at this ⊢
  exact this

/-! ### Up to the next token -/

/-- Text at a column ends the block collections further in. -/
theorem Outside.closeBlocks (h : Outside ⟨sent, l⟩ ws cols loose s) (column : Int) :
    ∃ l', l.closeBlocks column = l' ∧
      Outside ⟨sent, l'⟩ (ws ++ List.replicate (closedAt column cols) .blockEnd)
        (colsAt column cols) (loose && decide (edge cols < column)) s ∧
      (Clear ⟨sent, l⟩ cols → Clear ⟨sent, l'⟩ (colsAt column cols)) ∧
      l'.cursor = l.cursor ∧ l'.keyAllowed = l.keyAllowed := by
  obtain ⟨i, ls, heq, hb⟩ := h.blocks.close column
  have heq' : l.closeBlocks column = { l with
      indent := i, levels := ls
      queue := l.queue ++ Array.replicate (closedAt column cols) ⟨l.mark, .blockEnd⟩ } := heq
  refine ⟨_, heq', ⟨⟨h.sound.1, fun r hr hp => ?_⟩, ?_, ⟨hb.1, hb.2, hb.3, hb.4⟩, h.spots_eq, h.pair,
    h.going⟩, fun hlone hne => ?_, rfl, rfl⟩
  · have := h.sound.2 r hr hp
    simp only [Lexer.count, Array.size_append, Array.size_replicate] at this ⊢
    omega
  · have := words_append sent { l with indent := i, levels := ls } (closedAt column cols) l.mark
      .blockEnd
    exact this.trans (by rw [← h.words_eq]; rfl)
  · -- no collection is open behind the last token unless one was open before it
    have hcols : cols ≠ [] := by
      rintro rfl
      exact hne rfl
    cases hk : closedAt column cols with
    | zero =>
      have hempty : l.queue ++ Array.replicate 0 (⟨l.mark, .blockEnd⟩ : Marked Token) = l.queue := by
        simp
      exact hlone.of_queue hempty hcols
    | succ k =>
      have hback : (l.queue ++ Array.replicate (k + 1) (⟨l.mark, .blockEnd⟩ : Marked Token)).back? =
          some ⟨l.mark, .blockEnd⟩ := by
        rw [Array.replicate_succ, ← Array.push_append, Array.back?_push]
      simp only [Lexer.loneProperty?, hback]

theorem Outside.dropStale (h : Outside ⟨sent, l⟩ ws cols loose s)
    (hs : l.isStale s = true → s.required = false) :
    ∃ l', l.dropStale = .ok l' ∧ Outside ⟨sent, l'⟩ ws cols loose (l.freshSpot s) ∧
      l'.queue = l.queue ∧ l'.cursor = l.cursor ∧ l'.keyAllowed = l.keyAllowed := by
  have hfresh : freshSpots l = [l.freshSpot s] := by
    have := h.spots_eq
    simp only at this
    simp [freshSpots, this, Lexer.freshSpot]
  have hsp : ∀ r ∈ l.spots, l.isStale r → r.required = false := by
    intro r hr hst
    have := h.spots_eq
    simp only at this
    rw [this, List.mem_singleton] at hr
    subst hr
    exact hs hst
  have hsound := h.sound.fresh
  rw [hfresh] at hsound
  exact ⟨_, by rw [dropStale_eq hsp, hfresh], ⟨hsound, h.words_eq,
    ⟨h.blocks.1, h.blocks.2, h.blocks.3, h.blocks.4⟩, rfl, h.pair, h.going⟩, rfl, rfl, rfl⟩

/-- A text that begins with no directive and no document indicator. -/
def Inner (text : List Char) : Prop :=
  text.head? ≠ some '%' ∧ ¬ ['-', '-', '-'] <+: text ∧ ¬ ['.', '.', '.'] <+: text

theorem Inner.cons {c : Char} {text : List Char} (h : c ≠ '%' ∧ c ≠ '-' ∧ c ≠ '.') :
    Inner (c :: text) := by
  refine ⟨by simp [h.1], fun hp => ?_, fun hp => ?_⟩
  · exact h.2.1 (List.cons_prefix_cons.mp hp).1.symm
  · exact h.2.2 (List.cons_prefix_cons.mp hp).1.symm

theorem atDashes_of_not_prefix {c : Cursor} (h : ¬ ['-', '-', '-'] <+: c.rest) :
    c.atDashes = false := by
  have : c.rest.take 3 ≠ ['-', '-', '-'] := fun heq => h (heq ▸ List.take_prefix 3 c.rest)
  simp [Cursor.atDashes, this]

theorem atDots_of_not_prefix {c : Cursor} (h : ¬ ['.', '.', '.'] <+: c.rest) :
    c.atDots = false := by
  have : c.rest.take 3 ≠ ['.', '.', '.'] := fun heq => h (heq ▸ List.take_prefix 3 c.rest)
  simp [Cursor.atDots, this]

/-- A spot on the line of a cursor and at most 1024 characters before the character `n` places on. -/
def Near (c : Cursor) (s : KeySpot) (n : Nat) : Prop :=
  s.mark.line = c.mark.line ∧ c.mark.offset + n ≤ s.mark.offset + 1024

theorem isStale_of_near {n : Nat} (h : Near l.cursor s n) : l.isStale s = false := by
  obtain ⟨h1, h2⟩ := h
  have hline : ¬ s.mark.line < l.mark.line := by
    rw [Lexer.mark]
    omega
  have hoff : ¬ s.mark.offset + 1024 < l.mark.offset := by
    rw [Lexer.mark]
    omega
  simp [Lexer.isStale, hline, hoff]

/-- The indentation is no wider than the column of the next token. -/
theorem indent_le_column {column : Nat} (hb : l.Blocks (colsAt column cols)
    (loose && decide (edge cols < column))) : l.indent ≤ column := by
  rw [hb.indent_eq]
  have hle : edge (colsAt column cols) ≤ (column : Int) := edge_colsAt_le (by omega) cols
  by_cases hlt : edge cols < column
  · obtain ⟨h1, -⟩ := colsAt_of_edge_le (Int.le_of_lt hlt)
    rw [h1]
    split <;> omega
  · simp only [hlt, decide_false, Bool.and_false, Bool.false_eq_true, if_false]
    exact hle

/-- Behind space a token is told by its first character. -/
theorem readToken_eq {l l₁ l₂ l₃ : Lexer} (hskip : l.skipSpace = .ok l₁)
    (hdrop : l₁.dropStale = .ok l₂) (hclose : l₂.closeBlocks l₂.column = l₃) {c : Char}
    {text : List Char} (hrest : l₃.cursor.rest = c :: text) (hi : l₃.indent ≤ l₃.column)
    (hin : l₃.cursor.mark.column = 0 → Inner (c :: text)) :
    l.readToken = (l₃.move (l₃.cursor.look 4)).readTokenAt c := by
  have hhead : (l₃.move (l₃.cursor.look 4)).cursor.head? = some c := by
    show l₃.cursor.rest.head? = some c
    rw [hrest]
    rfl
  have hcol : ¬ (l₃.move (l₃.cursor.look 4)).column < (l₃.move (l₃.cursor.look 4)).indent :=
    Int.not_lt.mpr hi
  rw [Lexer.readToken, hskip]
  simp only [bind, Except.bind, hdrop, hclose, hhead, hcol, if_false]
  by_cases h0 : (l₃.move (l₃.cursor.look 4)).mark.column = 0
  · obtain ⟨hp, hda, hdo⟩ := hin h0
    have hc : (c == '%') = false := by simpa using hp
    have hda' : (l₃.move (l₃.cursor.look 4)).cursor.atDashes = false :=
      atDashes_of_not_prefix (by
        show ¬ ['-', '-', '-'] <+: l₃.cursor.rest
        rw [hrest]
        exact hda)
    have hdo' : (l₃.move (l₃.cursor.look 4)).cursor.atDots = false :=
      atDots_of_not_prefix (by
        show ¬ ['.', '.', '.'] <+: l₃.cursor.rest
        rw [hrest]
        exact hdo)
    simp [hc, hda', hdo']
  · simp [h0]

/-- A lexer that has come over space to a text: the block collections further in have ended, and a
key too far back was given up. -/
structure Approached (p : Progress) (l : Lexer) (ws : List Token) (cols : List Nat) (loose : Bool)
    (s s' : KeySpot) (gap t : List Char) (column : Nat) : Prop where
  outside : Outside ⟨p.sent, l⟩ (ws ++ List.replicate (closedAt column cols) .blockEnd)
    (colsAt column cols) (loose && decide (edge cols < column)) s'
  clear : Clear p cols → Clear ⟨p.sent, l⟩ (colsAt column cols)
  rest_eq : l.cursor.rest = t
  column_eq : l.cursor.mark.column = column
  mark_eq : gap.any isBreak = false → l.cursor.mark = p.lexer.cursor.mark.right gap.length
  allowed_eq : l.keyAllowed = p.lexer.keyAfter gap
  calm : s.Calm → s'.Calm
  near : gap.any isBreak = false → Near p.lexer.cursor s gap.length → s' = s

theorem Approached.indent_le {s' : KeySpot} {gap t : List Char} {column : Nat}
    (h : Approached p l ws cols loose s s' gap t column) : l.indent ≤ column :=
  indent_le_column h.outside.blocks

/-- A round passes space up to the next token or the end of the text. -/
theorem Outside.approach (h : Outside p ws cols loose s) {gap t : List Char}
    (hr : p.rest = gap ++ t) (hg : IsSpace cols gap) (ht : Solid t) {column : Nat}
    (hcol : columnAfter p.lexer.cursor.mark.column gap = column)
    (hs : s.Calm ∨ gap.any isBreak = false ∧ Near p.lexer.cursor s gap.length) :
    ∃ l₁ l₂ l₃ s', p.lexer.skipSpace = .ok l₁ ∧ l₁.dropStale = .ok l₂ ∧
      l₂.closeBlocks l₂.column = l₃ ∧ Approached p l₃ ws cols loose s s' gap t column := by
  obtain ⟨l₁, hskip, h₁, hq₁, hrest, hcolumn, hmark, hkey⟩ : ∃ l₁, p.lexer.skipSpace = .ok l₁ ∧
      Outside ⟨p.sent, l₁⟩ ws cols loose s ∧ l₁.queue = p.lexer.queue ∧ l₁.cursor.rest = t ∧
      l₁.cursor.mark.column = column ∧
      (gap.any isBreak = false → l₁.cursor.mark = p.lexer.cursor.mark.right gap.length) ∧
      l₁.keyAllowed = p.lexer.keyAfter gap := by
    obtain ⟨d, hskip, hpass⟩ := Lexer.skipSpace_gap hg h.blocks.indent_nonpos ht hr
    exact ⟨_, hskip, (Outside.move (l := p.lexer) h d).allowKey (p.lexer.keyAfter gap),
      rfl, hpass.rest_eq, hpass.column_eq.trans hcol, hpass.mark_eq, rfl⟩
  have hnear : gap.any isBreak = false → Near p.lexer.cursor s gap.length → l₁.isStale s = false := by
    rintro hnl ⟨ha, hb⟩
    refine isStale_of_near (n := 0) ?_
    rw [Near, hmark hnl]
    exact ⟨ha, hb⟩
  have hstale : l₁.isStale s = true → s.required = false := by
    intro hst
    rcases hs with hs | ⟨hnl, hs⟩
    · refine hs ?_
      simp only [Lexer.isStale, Bool.and_eq_true] at hst
      exact hst.1.1
    · rw [hnear hnl hs] at hst
      exact absurd hst (by simp)
  obtain ⟨l₂, hdrop, h₂, hq₂, hcur₂, hkey₂⟩ := h₁.dropStale hstale
  obtain ⟨l₃, hclose, h₃, hclear, hcur₃, hkey₃⟩ := h₂.closeBlocks column
  have hcur : l₃.cursor = l₁.cursor := hcur₃.trans hcur₂
  have hcol₂ : l₂.column = (column : Int) := by rw [Lexer.column, hcur₂, hcolumn]
  have hclear₂ : Clear p cols → Clear ⟨p.sent, l₂⟩ cols := fun hc =>
    Clear.of_queue (l := p.lexer) hc (hq₂.trans hq₁)
  refine ⟨l₁, l₂, l₃, l₁.freshSpot s, hskip, hdrop, by rw [hcol₂, hclose], h₃,
    fun hc => hclear (hclear₂ hc), ?_, ?_, fun hnl => ?_, ?_, fun hc => hc.fresh _,
    fun hnl hn => Lexer.freshSpot_of_fresh (hnear hnl hn)⟩
  · rw [hcur, hrest]
  · rw [hcur, hcolumn]
  · rw [hcur, hmark hnl]
  · exact (hkey₃.trans hkey₂).trans hkey

/-- A round comes to the next token. -/
theorem Outside.face (h : Outside p ws cols loose s) {gap r : List Char} {c : Char}
    (hr : p.rest = gap ++ c :: r) (hg : IsSpace cols gap) (ht : Solid (c :: r)) {column : Nat}
    (hcol : columnAfter p.lexer.cursor.mark.column gap = column)
    (hs : s.Calm ∨ gap.any isBreak = false ∧ Near p.lexer.cursor s gap.length)
    (hin : column = 0 → Inner (c :: r)) :
    ∃ l s', p.lexer.readToken = l.readTokenAt c ∧
      Approached p l ws cols loose s s' gap (c :: r) column := by
  obtain ⟨l₁, l₂, l₃, s', hskip, hdrop, hclose, ha⟩ := h.approach hr hg ht hcol hs
  have hcol₃ : l₃.column = (column : Int) := by rw [Lexer.column, ha.column_eq]
  refine ⟨l₃.move (l₃.cursor.look 4), s', ?_, ha.outside.move _, fun hc => (ha.clear hc).of_queue rfl,
    ha.rest_eq, ha.column_eq, ha.mark_eq, ha.allowed_eq, ha.calm, ha.near⟩
  refine readToken_eq hskip hdrop hclose ha.rest_eq (hcol₃ ▸ ha.indent_le) fun h0 => hin ?_
  rw [ha.column_eq] at h0
  exact h0

/-! ### Behind a token -/

/-- A token was read, and what need not wait is handed on. -/
theorem Outside.behind (h : Outside ⟨p.sent, l⟩ ws cols loose s) (hr : p.lexer.readToken = .ok l)
    (hlen : l.cursor.rest.length < p.rest.length)
    (hs : s.Calm ∨ Near l.cursor s 0) :
    ∃ q, Step p q ∧ Outside q ws cols loose (l.freshSpot s) ∧
      (Clear ⟨p.sent, l⟩ cols → Clear q cols) ∧ q.lexer.cursor = l.cursor ∧
      q.lexer.keyAllowed = l.keyAllowed := by
  have hspots : l.spots = [s] := h.spots_eq
  have hst : ∀ r ∈ l.spots, l.isStale r → r.required = false := by
    intro r hr hst
    rw [hspots, List.mem_singleton] at hr
    subst hr
    rcases hs with hs | hs
    · refine hs ?_
      simp only [Lexer.isStale, Bool.and_eq_true] at hst
      exact hst.1.1
    · rw [isStale_of_near hs] at hst
      exact absurd hst (by simp)
  obtain ⟨q, hq, hb⟩ := exists_step hr h.going hlen h.sound hst
  have heq := hb.lexer_eq
  have hb' := h.blocks
  refine ⟨q, hq, ⟨hb.sound, hb.words_eq.trans h.words_eq, ?_, ?_, ?_, ?_⟩, fun hc hne => ?_, ?_, ?_⟩
  · rw [heq]
    exact ⟨hb'.1, hb'.2, hb'.3, hb'.4⟩
  · rw [heq]
    simp [freshSpots, hspots, Lexer.freshSpot]
  · rw [heq]
    exact h.pair
  · rw [heq]
    exact h.going
  · rcases hb.lone with hl | hl
    · exact hl
    · exact hl.trans (hc hne)
  · rw [heq]
  · rw [heq]

/-! ### Behind a key -/

theorem head?_ne_tab {gap t : List Char} (hg : '\t' ∉ gap) (ht : Solid t) :
    (gap ++ t).head? ≠ some '\t' := by
  cases gap with
  | nil =>
    intro h
    exact absurd (ht '\t' h).1 (by decide)
  | cons x gap =>
    intro h
    obtain rfl : x = '\t' := by simpa using h
    exact hg (by simp)

/-- A lexer behind a `:` that ends a key. -/
def valued (l : Lexer) (c : Cursor) : Lexer :=
  (((((l.move c).insert l.spot.number l.spot.mark .key).openBlock l.spot.mark.column
    (some l.spot.number) .blockMappingStart l.mark).indentContent.setSpot l.spot.clear).allowKey
      false).push l.mark .value

/-- A `:` that ends a key puts the key token in front of it.  A tab may stand behind it only before
something that could not go on as a plain scalar. -/
theorem readColon_eq {l : Lexer} {cols : List Nat} {gap t : List Char}
    (hr : l.cursor.rest = ':' :: (gap ++ t)) (hg : IsSpace cols gap) (ht : Solid t)
    (htab : '\t' ∈ gap → ∀ c ∈ t.head?, c ≠ '-' ∧ isNameChar c = false)
    (hpair : (l.inFlow && !l.inBraces) = false) (hno : l.inPair = false)
    (hp : l.spot.possible = true) :
    ∃ d left, l.readColon = .ok (valued l d) ∧ (l.cursor.passInk 1).Trailed d gap left t := by
  have heq : ({ l with inPair := false } : Lexer) = l := by rw [← hno]
  set e := (l.cursor.passInk 1).look 1 with he
  have hrest : e.rest = gap ++ t := by simp [he, hr]
  have hcur : (l.move e).cursor.head? = e.head? := rfl
  by_cases hhead : e.head? = some '\t'
  · -- the blanks behind the colon are passed
    obtain ⟨tr, left, htr, -, htrail, hbreak⟩ :=
      trailing_gap hg ht hrest true fun h => absurd h (by decide)
    have hmem : '\t' ∈ gap := Decidable.byContradiction fun hn =>
      head?_ne_tab hn ht (by rw [← hrest]; exact hhead)
    have hgo : tr.cursor.head?.any (fun x => x == '-' || isNameChar x) = false := by
      rw [Option.any_eq_false]
      intro x hx
      rw [Cursor.head?, htrail.rest_eq, List.head?_append] at hx
      rcases Option.or_eq_some_iff.mp hx with hx | ⟨-, hx⟩
      · have hb := hbreak x hx
        simp only [isBreak, Bool.or_eq_true, beq_iff_eq] at hb
        rcases hb with rfl | rfl <;> decide
      · obtain ⟨h1, h2⟩ := htab hmem x hx
        simp [h1, h2]
    refine ⟨tr.cursor, left, ?_, htrail.split, htrail.rest_eq⟩
    have hhead' : (e.head? == some '\t') = true := by simp [hhead]
    have htr' : (l.move e).cursor.trailing true = .ok tr := htr
    rw [Lexer.readColon]
    simp only [hpair, heq, ← he, hcur, hhead', htr', hgo, hp, Bool.and_false, Bool.false_eq_true,
      if_false, if_true, bind, Except.bind, pure, Except.pure]
    rfl
  · have hhead' : (e.head? == some '\t') = false := by simp [hhead]
    refine ⟨e, gap, ?_, ⟨[], rfl, by simp, rfl⟩, hrest⟩
    rw [Lexer.readColon]
    simp only [hpair, heq, ← he, hcur, hhead', hp, Bool.false_eq_true, if_false, if_true, bind,
      Except.bind, pure, Except.pure]
    rfl

end Progress

end TaggedYaml
