import TaggedYaml.Proofs.Scan.Quoted
import TaggedYaml.Proofs.Scan.Round

/-!
# Flow — tokens between brackets

`Inside` is what holds of a scan between brackets.  Line breaks are of no consequence there, no
block collection opens or closes, and no key is given up; each bracket keeps the spot of the key
that may have begun since.
-/

namespace TaggedYaml

namespace Progress

/-- What holds of a scan inside `depth + 1` brackets: the words read, the spot of a key inside the
innermost bracket, and what is kept of the surroundings, which are the columns of the open block
collections and a spot. -/
structure Inside (p : Progress) (ws : List Token) (r : KeySpot) (depth : Nat) (cols : List Nat)
    (loose : Bool) (s : KeySpot) (braces : Bool) : Prop where
  sound : Sound p
  words_eq : p.words = ws
  depth_eq : p.lexer.flowDepth = depth + 1
  spots_eq : ∃ ss, p.lexer.spots = r :: (ss ++ [s]) ∧ ss.length = depth ∧
    ∀ x ∈ ss, x.required = false
  spot : r.required = false
  blocks : Lexer.Blocks { p.lexer with flowDepth := 0 } cols loose
  braces : braces = true → p.lexer.inBraces = true
  pair : p.lexer.inPair = false
  going : p.lexer.finished = false

variable {p q : Progress} {Q : KeySpot → Cursor → Bool → Nat → Prop}
  {sent : List (Marked Token)} {l : Lexer} {ws : List Token}
  {r s : KeySpot} {depth : Nat} {cols : List Nat} {loose braces : Bool}

theorem Inside.inFlow (h : Inside p ws r depth cols loose s braces) : p.lexer.inFlow = true := by
  simp [Lexer.inFlow, h.depth_eq]

/-- Where no block collection is open at a column, there is no indentation. -/
theorem Inside.indent_nonpos (h : Inside p ws r depth cols loose s braces) (hc : cols = []) :
    p.lexer.indent ≤ 0 :=
  h.blocks.indent_nonpos hc

theorem Inside.count_eq (h : Inside p ws r depth cols loose s braces) :
    p.lexer.count = ws.length := by
  rw [← h.words_eq, length_words p h.sound.sent_length]

theorem isStale_of_inFlow (h : l.inFlow = true) (x : KeySpot) : l.isStale x = false := by
  simp [Lexer.isStale, h]

theorem freshSpots_of_inFlow (h : l.inFlow = true) : freshSpots l = l.spots := by
  simp [freshSpots, isStale_of_inFlow h]

/-- A lexer that differs in its place, in whether keys are allowed and in where a value may touch
its `:`. -/
theorem Inside.relocate (h : Inside ⟨sent, l⟩ ws r depth cols loose s braces) (c : Cursor)
    (allowed : Bool) (offset : Nat) :
    Inside ⟨sent, { l with cursor := c, keyAllowed := allowed, valueOffset := offset }⟩ ws r depth
      cols loose s braces :=
  ⟨⟨h.sound.1, h.sound.2⟩, h.words_eq, h.depth_eq, h.spots_eq, h.spot,
    ⟨rfl, h.blocks.2, h.blocks.3, h.blocks.4⟩, h.braces, h.pair, h.going⟩

theorem Inside.push (h : Inside ⟨sent, l⟩ ws r depth cols loose s braces) (m : Mark) (t : Token) :
    Inside ⟨sent, l.push m t⟩ (ws ++ [t]) r depth cols loose s braces := by
  refine ⟨⟨h.sound.1, fun x hx hp => ?_⟩, ?_, h.depth_eq, h.spots_eq, h.spot,
    ⟨rfl, h.blocks.2, h.blocks.3, h.blocks.4⟩, h.braces, h.pair, h.going⟩
  · have := h.sound.2 x hx hp
    simp only [Lexer.push, Lexer.count, Array.size_push] at this ⊢
    omega
  · rw [words_push, h.words_eq]

theorem Inside.setSpot (h : Inside ⟨sent, l⟩ ws r depth cols loose s braces) {r' : KeySpot}
    (hr : r'.required = false)
    (hs : r'.possible = true → l.sent ≤ r'.number ∧ r'.number ≤ l.count) :
    Inside ⟨sent, l.setSpot r'⟩ ws r' depth cols loose s braces := by
  obtain ⟨ss, hss, hlen, hreq⟩ := h.spots_eq
  have hspots : (l.setSpot r').spots = r' :: (ss ++ [s]) := by
    simp only at hss
    simp [Lexer.setSpot, hss]
  refine ⟨⟨h.sound.1, fun x hx hp => ?_⟩, h.words_eq, h.depth_eq, ⟨ss, hspots, hlen, hreq⟩, hr,
    ⟨rfl, h.blocks.2, h.blocks.3, h.blocks.4⟩, h.braces, h.pair, h.going⟩
  simp only [hspots, List.mem_cons] at hx
  rcases hx with rfl | hx
  · exact hs hp
  · refine h.sound.2 x ?_ hp
    simp only at hss
    simp only [hss, List.mem_cons]
    exact .inr hx

theorem Inside.saveKey (h : Inside ⟨sent, l⟩ ws r depth cols loose s braces) :
    Inside ⟨sent, l.saveKey⟩ ws (if l.keyAllowed then ⟨true, false, ws.length, l.mark⟩ else r) depth
      cols loose s braces := by
  have hin : l.inFlow = true := h.inFlow
  have hcount : l.count = ws.length := h.count_eq
  rw [Lexer.saveKey]
  cases hk : l.keyAllowed with
  | false => exact h
  | true =>
    have hle : l.sent ≤ ws.length := by
      rw [← hcount, Lexer.count]
      exact Nat.le_add_right ..
    rw [if_pos rfl, if_pos rfl, hin, hcount]
    exact h.setSpot rfl fun _ => ⟨hle, Nat.le_of_eq hcount.symm⟩

theorem Inside.dropKey (h : Inside ⟨sent, l⟩ ws r depth cols loose s braces) :
    ∃ l', l.dropKey = .ok l' ∧ Inside ⟨sent, l'⟩ ws r.clear depth cols loose s braces ∧
      l'.cursor = l.cursor := by
  obtain ⟨ss, hss, -, -⟩ := h.spots_eq
  have hspot : l.spot = r := by
    simp only at hss
    simp [Lexer.spot, hss]
  refine ⟨l.setSpot r.clear, ?_, h.setSpot h.spot fun hp => by simp [KeySpot.clear] at hp, rfl⟩
  rw [Lexer.dropKey, hspot, if_neg (by simp [h.spot])]

/-- The columns kept for content are given up inside brackets as outside. -/
theorem Inside.closeContent (h : Inside ⟨sent, l⟩ ws r depth cols loose s braces) :
    ∃ l', l.closeContent = l' ∧ Inside ⟨sent, l'⟩ ws r depth cols false s braces ∧
      l'.indent = edge cols ∧ l'.cursor = l.cursor := by
  obtain ⟨i, ls, heq, hb⟩ := h.blocks.closeContent
  have hi : l.closeContent.indent = i := congrArg Lexer.indent heq
  have hl : l.closeContent.levels = ls := congrArg Lexer.levels heq
  refine ⟨_, rfl, ⟨⟨h.sound.1, h.sound.2⟩, h.words_eq, h.depth_eq, h.spots_eq, h.spot,
    ⟨rfl, hi.trans hb.2, hl.trans hb.3, hb.4⟩, h.braces, h.pair, h.going⟩, ?_, rfl⟩
  exact hi.trans (by simpa using hb.indent_eq)

theorem endPair_of_not (h : l.inPair = false) (m : Mark) : l.endPair m = l := by
  rw [Lexer.endPair, if_neg]
  simp [h]

/-! ### Rounds -/

/-- A round comes to the next token; inside brackets it passes line breaks like blanks. -/
theorem Inside.face (h : Inside p ws r depth cols loose s braces) {gap text : List Char} {c : Char}
    {column : Nat} (hr : p.rest = gap ++ c :: text) (hg : IsSpace cols gap) (ht : Solid (c :: text))
    (hcol : columnAfter p.lexer.cursor.mark.column gap = column) (hi : edge cols < column)
    (hin : column = 0 → Inner (c :: text)) :
    ∃ d, p.lexer.readToken = Lexer.readTokenAt { p.lexer with cursor := d } c ∧
      d.rest = c :: text ∧ d.mark.column = column ∧
      (gap.any isBreak = false → d.mark = p.lexer.cursor.mark.right gap.length) := by
  obtain ⟨d, hskip, hpass⟩ := Lexer.skipSpace_gap hg h.indent_nonpos ht hr
  have hkey : p.lexer.keyAfter gap = p.lexer.keyAllowed := by simp [Lexer.keyAfter, h.inFlow]
  rw [hkey] at hskip
  have hflow : Lexer.inFlow { p.lexer with cursor := d } = true := h.inFlow
  have hdrop : Lexer.dropStale { p.lexer with cursor := d } = .ok { p.lexer with cursor := d } := by
    rw [dropStale_eq fun x _ hst => by simp [isStale_of_inFlow hflow] at hst,
      freshSpots_of_inFlow hflow]
  have hclose : ∀ k, Lexer.closeBlocks { p.lexer with cursor := d } k =
      { p.lexer with cursor := d } := fun k => by
    rw [Lexer.closeBlocks, if_pos hflow]
  have hcolumn : d.mark.column = column := hpass.column_eq.trans hcol
  refine ⟨d.look 4, ?_, hpass.rest_eq, hcolumn, hpass.mark_eq⟩
  refine readToken_eq hskip hdrop (hclose _) hpass.rest_eq ?_ fun h0 => hin (hcolumn ▸ h0)
  show p.lexer.indent ≤ (d.mark.column : Int)
  have hle : p.lexer.indent ≤ edge cols + 1 := h.blocks.indent_le
  rw [hcolumn]
  omega

/-- A token was read, and what need not wait is handed on. -/
theorem Inside.behind (h : Inside ⟨p.sent, l⟩ ws r depth cols loose s braces)
    (hr : p.lexer.readToken = .ok l) (hlen : l.cursor.rest.length < p.rest.length) :
    ∃ q, Step p q ∧ Inside q ws r depth cols loose s braces ∧ q.lexer.cursor = l.cursor ∧
      q.lexer.keyAllowed = l.keyAllowed ∧ q.lexer.valueOffset = l.valueOffset := by
  have hflow : l.inFlow = true := h.inFlow
  obtain ⟨q, hq, hb⟩ := exists_step hr h.going hlen h.sound fun x _ hst => by
    simp [isStale_of_inFlow hflow] at hst
  have heq := hb.lexer_eq
  rw [freshSpots_of_inFlow hflow] at heq
  refine ⟨q, hq, ⟨hb.sound, hb.words_eq.trans h.words_eq, ?_, ?_, h.spot, ?_, ?_, ?_, ?_⟩, ?_, ?_,
    ?_⟩
  · rw [heq]
    exact h.depth_eq
  · rw [heq]
    exact h.spots_eq
  · rw [heq]
    exact ⟨rfl, h.blocks.2, h.blocks.3, h.blocks.4⟩
  · rw [heq]
    exact h.braces
  · rw [heq]
    exact h.pair
  · rw [heq]
    exact h.going
  · rw [heq]
  · rw [heq]
  · rw [heq]

/-- A lexer in front of the token that a scan reads next. -/
structure Fronts (p : Progress) (l : Lexer) (column : Nat) (text : List Char) : Prop where
  rest_eq : l.cursor.rest = text
  column_eq : l.cursor.mark.column = column
  allowed_eq : l.keyAllowed = p.lexer.keyAllowed
  touch : p.rest = text → l.valueOffset = p.lexer.valueOffset ∧ l.mark = p.lexer.mark

/-- A token between brackets is read where it stands. -/
theorem Inside.round (h : Inside p ws r depth cols loose s braces) {column : Nat} {c : Char}
    {text : List Char} (hf : p.lexer.cursor.Faces cols column (c :: text)) (ht : Solid (c :: text))
    (hi : edge cols < column) (hin : column = 0 → Inner (c :: text)) {ws' : List Token} {depth' : Nat}
    {loose' braces' : Bool}
    (hread : ∀ l, Inside ⟨p.sent, l⟩ ws r depth cols loose s braces →
      Fronts p l column (c :: text) → ∃ l' r', l.readTokenAt c = .ok l' ∧
        Inside ⟨p.sent, l'⟩ ws' r' depth' cols loose' s braces' ∧
        l'.cursor.rest.length ≤ text.length ∧ Q r' l'.cursor l'.keyAllowed l'.valueOffset) :
    Reads p fun q => ∃ r', Inside q ws' r' depth' cols loose' s braces' ∧
      Q r' q.lexer.cursor q.lexer.keyAllowed q.lexer.valueOffset := by
  obtain ⟨gap, hg, hr, hcol⟩ := hf
  obtain ⟨d, htok, hrest, hcolumn, hmark⟩ := h.face hr hg ht hcol hi hin
  have htouch : p.rest = c :: text → d.mark = p.lexer.cursor.mark := by
    intro heq
    have h0 : gap = [] := by
      rw [rest, hr] at heq
      exact List.append_left_eq_self.mp heq
    rw [hmark (by simp [h0]), h0]
    rfl
  have h₀ : Inside ⟨p.sent, { p.lexer with cursor := d }⟩ ws r depth cols loose s braces :=
    Inside.relocate (l := p.lexer) h d p.lexer.keyAllowed p.lexer.valueOffset
  obtain ⟨l, r', hl, hins, hlen, hq⟩ := hread _ h₀ ⟨hrest, hcolumn, rfl, fun heq => ⟨rfl, htouch heq⟩⟩
  obtain ⟨q, hstep, hq', hc, hk, hv⟩ := hins.behind (htok.trans hl) (by
    rw [rest, hr]
    simp only [List.length_append, List.length_cons]
    omega)
  refine Reads.of_step hstep ⟨r', hq', ?_⟩
  rw [hc, hk, hv]
  exact hq

/-! ### Tokens -/

section

variable {column : Nat} {gap t : List Char}

theorem Inside.reads_comma (h : Inside p ws r depth cols loose s braces)
    (hf : p.lexer.cursor.Faces cols column (',' :: (gap ++ t))) (hi : edge cols < column)
    (hg : IsSpace cols gap) (ht : Solid t) :
    Reads p fun q => ∃ r', Inside q (ws ++ [.flowEntry]) r' depth cols loose s braces ∧
      q.lexer.cursor.Faces cols (columnAfter (column + 1) gap) t ∧ q.lexer.keyAllowed = true := by
  refine h.round (Q := fun _ c k _ => c.Faces cols (columnAfter (column + 1) gap) t ∧ k = true) hf
    (Solid.cons (by decide) (by decide)) hi (fun _ => Inner.cons (by decide)) fun l hl hfr => ?_
  obtain ⟨l₁, hdrop, h₁, hc₁⟩ := hl.dropKey
  obtain ⟨e, left, htr, htrail⟩ := Lexer.skipTrailing_gap
    (l := (l₁.allowKey true).move (l.cursor.passInk 1)) hg ht (by simp [Lexer.move, hfr.rest_eq])
  have hcol : ((l₁.allowKey true).move (l.cursor.passInk 1)).cursor.mark.column = column + 1 := by
    show l.cursor.mark.column + 1 = _
    rw [hfr.column_eq]
  have hpair : ∀ m, (l₁.allowKey true).endPair m = l₁.allowKey true :=
    endPair_of_not (l := l₁.allowKey true) h₁.pair
  have hcur : (l₁.allowKey true).cursor = l.cursor := hc₁
  refine ⟨_, _, ?_, (h₁.relocate e true l₁.valueOffset).push l.mark .flowEntry, htrail.length_le,
    hcol ▸ htrail.faces hg, rfl⟩
  show l.readComma = _
  rw [Lexer.readComma, hdrop]
  simp only [bind, Except.bind, hpair, hcur, htr]
  rw [Lexer.mark, hcur]
  rfl

/-- The bracket that opens a mapping or a sequence. -/
def openChar (mapping : Bool) : Char := if mapping then '\x7b' else '['

/-- The bracket that closes a mapping or a sequence. -/
def closeChar (mapping : Bool) : Char := if mapping then '\x7d' else ']'

def openToken (mapping : Bool) : Token := if mapping then .flowMappingStart else .flowSequenceStart

def closeToken (mapping : Bool) : Token := if mapping then .flowMappingEnd else .flowSequenceEnd

theorem readTokenAt_open (l : Lexer) (mapping : Bool) :
    l.readTokenAt (openChar mapping) = l.openFlow (openToken mapping) := by
  cases mapping <;> rfl

theorem readTokenAt_close (l : Lexer) (mapping : Bool) :
    l.readTokenAt (closeChar mapping) = l.closeFlow (closeToken mapping) := by
  cases mapping <;> rfl

/-- A lexer behind an opening bracket. -/
def opened (l : Lexer) (mapping : Bool) : Lexer :=
  { l with
    spots := .none :: l.spots
    flowDepth := l.flowDepth + 1
    keyAllowed := true
    inBraces := l.inBraces || openToken mapping == .flowMappingStart }

theorem openFlow_eq {l l₁ : Lexer} (mapping : Bool) (hl : l.saveKey.indentContent = l₁)
    (hd : l₁.flowDepth < Lexer.maxFlowDepth) (hc : l₁.cursor = l.cursor) {gap t : List Char}
    (hr : l.cursor.rest = openChar mapping :: (gap ++ t)) (hg : IsSpace cols gap) (ht : Solid t) :
    ∃ d left, l.openFlow (openToken mapping) =
        .ok (((opened l₁ mapping).move d).push l.mark (openToken mapping)) ∧
      (l.cursor.passInk 1).Trailed d gap left t := by
  obtain ⟨d, left, htr, htrail⟩ := Lexer.skipTrailing_gap
    (l := (opened l₁ mapping).move (l.cursor.passInk 1)) hg ht (by simp [Lexer.move, hr])
  refine ⟨d, left, ?_, htrail⟩
  have hcur : (opened l₁ mapping).cursor = l.cursor := hc
  have hd' : ¬ l₁.flowDepth ≥ Lexer.maxFlowDepth := by omega
  rw [Lexer.openFlow, hl]
  simp only [hd', if_false]
  show ((opened l₁ mapping).move (l₁.cursor.passInk 1)).skipTrailing.bind _ = _
  rw [hc, htr]
  show Except.ok _ = Except.ok _
  rw [Lexer.mark, hc]
  rfl

theorem Inside.opened (h : Inside ⟨sent, l⟩ ws r depth cols loose s braces) (mapping : Bool) :
    Inside ⟨sent, opened l mapping⟩ ws .none (depth + 1) cols loose s (braces || mapping) := by
  obtain ⟨ss, hss, hlen, hreq⟩ := h.spots_eq
  refine ⟨⟨h.sound.1, fun x hx hp => ?_⟩, h.words_eq, ?_, ⟨r :: ss, ?_, ?_, ?_⟩, rfl,
    ⟨rfl, h.blocks.2, h.blocks.3, h.blocks.4⟩, fun hb => ?_, h.pair, h.going⟩
  · rcases List.mem_cons.mp hx with rfl | hx
    · simp [KeySpot.none] at hp
    · exact h.sound.2 x hx hp
  · exact congrArg (· + 1) h.depth_eq
  · exact congrArg (KeySpot.none :: ·) hss
  · exact congrArg (· + 1) hlen
  · intro x hx
    rcases List.mem_cons.mp hx with rfl | hx
    · exact h.spot
    · exact hreq x hx
  · rw [Bool.or_eq_true] at hb
    show (l.inBraces || openToken mapping == Token.flowMappingStart) = true
    rcases hb with hb | rfl
    · simp [show l.inBraces = true from h.braces hb]
    · simp [openToken]

theorem Inside.reads_open (h : Inside p ws r depth cols loose s braces) (mapping : Bool)
    (hd : depth + 1 < Lexer.maxFlowDepth)
    (hf : p.lexer.cursor.Faces cols column (openChar mapping :: (gap ++ t))) (hi : edge cols < column)
    (hg : IsSpace cols gap) (ht : Solid t) :
    Reads p fun q => ∃ r', Inside q (ws ++ [openToken mapping]) r' (depth + 1) cols loose s
        (braces || mapping) ∧
      q.lexer.cursor.Faces cols (columnAfter (column + 1) gap) t ∧ q.lexer.keyAllowed = true := by
  refine h.round (Q := fun _ c k _ => c.Faces cols (columnAfter (column + 1) gap) t ∧ k = true) hf
    (Solid.cons (by cases mapping <;> decide) (by cases mapping <;> decide)) hi
    (fun _ => Inner.cons (by cases mapping <;> decide)) fun l hl hfr => ?_
  have h₁ := hl.saveKey
  have hcontent : l.saveKey.indentContent = l.saveKey := by
    have hin : l.saveKey.inFlow = true := h₁.inFlow
    rw [Lexer.indentContent, if_neg (by simp [hin])]
  have hdepth : l.saveKey.flowDepth < Lexer.maxFlowDepth := by
    have : l.saveKey.flowDepth = depth + 1 := h₁.depth_eq
    omega
  obtain ⟨d, left, hopen, htrail⟩ := openFlow_eq mapping hcontent hdepth (Lexer.cursor_saveKey l)
    hfr.rest_eq hg ht
  refine ⟨_, _, (readTokenAt_open l mapping).trans hopen,
    ((h₁.opened mapping).relocate d true l.saveKey.valueOffset).push _ _, htrail.length_le, ?_, rfl⟩
  have hcol : (l.cursor.passInk 1).mark.column = column + 1 := by
    show l.cursor.mark.column + 1 = _
    rw [hfr.column_eq]
  exact hcol ▸ htrail.faces hg

/-- A lexer behind a closing bracket. -/
def closed (l : Lexer) : Lexer :=
  { l with flowDepth := l.flowDepth - 1, spots := l.spots.tail, keyAllowed := false }

theorem closeFlow_eq {l l₁ : Lexer} (mapping : Bool) (hl : l.dropKey = .ok l₁)
    (hin : l₁.inFlow = true) (hp : l₁.inPair = false) (hc : l₁.cursor = l.cursor)
    {gap t : List Char} (hr : l.cursor.rest = closeChar mapping :: (gap ++ t)) (hg : IsSpace cols gap)
    (ht : Solid t) :
    ∃ d left v, l.closeFlow (closeToken mapping) = .ok (({ closed l₁ with
        cursor := d, valueOffset := v }).push l.mark (closeToken mapping)) ∧
      (l.cursor.passInk 1).Trailed d gap left t := by
  obtain ⟨d, left, htr, htrail⟩ := Lexer.skipTrailing_gap
    (l := (closed l₁).move (l.cursor.passInk 1)) hg ht (by simp [Lexer.move, hr])
  have hpair : ∀ m, (Lexer.allowKey { l₁ with
      flowDepth := l₁.flowDepth - 1, spots := l₁.spots.tail } false).endPair m = closed l₁ :=
    endPair_of_not (l := closed l₁) hp
  have hcur : (closed l₁).cursor = l.cursor := hc
  have hmark : (closed l₁).mark = l.mark := congrArg Cursor.mark hc
  rw [Lexer.closeFlow, hl]
  simp only [bind, Except.bind, hin, if_true, hpair, hcur, htr, hmark]
  cases hfl : (((closed l₁).move (l.cursor.passInk 1)).move d).inFlow with
  | true => exact ⟨d, left, d.mark.offset, rfl, htrail⟩
  | false => exact ⟨d, left, l₁.valueOffset, rfl, htrail⟩

theorem Inside.closed (h : Inside ⟨sent, l⟩ ws r (depth + 1) cols loose s braces) {b : Bool}
    (hb : b = true → braces = true) :
    ∃ r', Inside ⟨sent, closed l⟩ ws r' depth cols loose s b := by
  obtain ⟨ss, hss, hlen, hreq⟩ := h.spots_eq
  obtain ⟨r', ss, rfl⟩ : ∃ r' ss', ss = r' :: ss' := by
    cases ss with
    | nil => simp at hlen
    | cons r' ss => exact ⟨r', ss, rfl⟩
  have hspots : (Progress.closed l).spots = r' :: (ss ++ [s]) := by
    simp only at hss
    simp [Progress.closed, hss]
  refine ⟨r', ⟨h.sound.1, fun x hx hp => ?_⟩, h.words_eq, ?_, ⟨ss, hspots, ?_, fun x hx => ?_⟩,
    hreq r' (by simp), ⟨rfl, h.blocks.2, h.blocks.3, h.blocks.4⟩, fun hb' => h.braces (hb hb'), h.pair, h.going⟩
  · exact h.sound.2 x (List.mem_of_mem_tail hx) hp
  · have : l.flowDepth = depth + 2 := h.depth_eq
    show l.flowDepth - 1 = depth + 1
    omega
  · simpa using hlen
  · exact hreq x (List.mem_cons_of_mem _ hx)

theorem Inside.reads_close (h : Inside p ws r (depth + 1) cols loose s braces) (mapping : Bool)
    {b : Bool} (hb : b = true → braces = true)
    (hf : p.lexer.cursor.Faces cols column (closeChar mapping :: (gap ++ t))) (hi : edge cols < column)
    (hg : IsSpace cols gap) (ht : Solid t) :
    Reads p fun q => ∃ r', Inside q (ws ++ [closeToken mapping]) r' depth cols loose s b ∧
      q.lexer.cursor.Faces cols (columnAfter (column + 1) gap) t := by
  refine h.round (Q := fun _ c _ _ => c.Faces cols (columnAfter (column + 1) gap) t) hf
    (Solid.cons (by cases mapping <;> decide) (by cases mapping <;> decide)) hi
    (fun _ => Inner.cons (by cases mapping <;> decide)) fun l hl hfr => ?_
  obtain ⟨l₁, hdrop, h₁, hc₁⟩ := hl.dropKey
  obtain ⟨d, left, v, hclose, htrail⟩ := closeFlow_eq mapping hdrop h₁.inFlow h₁.pair hc₁ hfr.rest_eq
    hg ht
  obtain ⟨r', h₂⟩ := h₁.closed hb
  refine ⟨_, r', (readTokenAt_close l mapping).trans hclose, (h₂.relocate d false v).push _ _,
    htrail.length_le, ?_⟩
  have hcol : (l.cursor.passInk 1).mark.column = column + 1 := by
    show l.cursor.mark.column + 1 = _
    rw [hfr.column_eq]
  exact hcol ▸ htrail.faces hg

/-- A quoted scalar between brackets; it may become a key. -/
theorem Inside.reads_quoted (h : Inside p ws r depth cols loose s braces)
    {units : List (List Char)} {v : List Char} (hw : Written '"' v units)
    (hf : p.lexer.cursor.Faces cols column ('"' :: (units.flatten ++ '"' :: (gap ++ t))))
    (hi : edge cols < column) (hg : IsSpace cols gap) (ht : Solid t)
    (hnext : ∀ c ∈ t.head?, FollowsQuote true c) :
    Reads p fun q => ∃ r', Inside q (ws ++ [.scalar .double (String.ofList v)]) r' depth cols loose s
        braces ∧
      q.lexer.cursor.rest = t ∧
      q.lexer.cursor.mark.column = columnAfter (column + (2 + units.flatten.length)) gap ∧
      q.lexer.valueOffset = q.lexer.cursor.mark.offset ∧
      (p.lexer.keyAllowed = true → r'.possible = true ∧ r'.number = ws.length) := by
  refine h.round (Q := fun r' c _ o => c.rest = t ∧
      c.mark.column = columnAfter (column + (2 + units.flatten.length)) gap ∧ o = c.mark.offset ∧
      (p.lexer.keyAllowed = true → r'.possible = true ∧ r'.number = ws.length)) hf
    (Solid.cons (by decide) (by decide)) hi (fun _ => Inner.cons (by decide)) fun l hl hfr => ?_
  have hin : l.inFlow = true := hl.inFlow
  have hle : l.indent ≤ l.column := by
    have h1 : l.indent ≤ edge cols + 1 := hl.blocks.indent_le
    rw [Lexer.column, hfr.column_eq]
    omega
  obtain ⟨d, hread, hrest, hcol, -⟩ := readQuotedScalar_written .double (by decide) hw hg
    hl.indent_nonpos ht (fun hq => absurd hq (by decide)) (.inr (hin ▸ hnext)) hfr.rest_eq hle
  refine ⟨_, _, hread, (hl.saveKey.relocate d _ d.mark.offset).push _ _, ?_, hrest, ?_, rfl,
    fun hk => ?_⟩
  · show d.rest.length ≤ _
    rw [hrest]
    simp only [List.length_append, List.length_cons]
    omega
  · rw [← hfr.column_eq]
    exact hcol
  · rw [hfr.allowed_eq, if_pos hk]
    exact ⟨rfl, rfl⟩

theorem Inside.insert {ws₀ ws₁ : List Token}
    (h : Inside ⟨sent, l⟩ (ws₀ ++ ws₁) r depth cols loose s braces) (hs : l.sent ≤ ws₀.length)
    (m : Mark) (tok : Token) :
    Inside ⟨sent, l.insert ws₀.length m tok⟩ (ws₀ ++ tok :: ws₁) r depth cols loose s braces :=
  ⟨h.sound.insert hs h.words_eq m tok, words_insert h.sound.sent_length hs h.words_eq m tok,
    h.depth_eq, h.spots_eq, h.spot, ⟨rfl, h.blocks.2, h.blocks.3, h.blocks.4⟩, h.braces, h.pair, h.going⟩

/-- The `:` behind a key in braces. -/
theorem Inside.reads_colon {ws₀ ws₁ : List Token}
    (h : Inside p (ws₀ ++ ws₁) r depth cols loose s true) (hp : r.possible = true)
    (hn : r.number = ws₀.length) (hr : p.lexer.cursor.rest = ':' :: (gap ++ t))
    (hcol : p.lexer.cursor.mark.column = column)
    (hv : p.lexer.valueOffset = p.lexer.cursor.mark.offset) (hi : edge cols < column)
    (hg : IsSpace cols gap) (ht : Solid t)
    (htab : '\t' ∈ gap → ∀ c ∈ t.head?, c ≠ '-' ∧ isNameChar c = false) :
    Reads p fun q => ∃ r', Inside q (ws₀ ++ .key :: (ws₁ ++ [.value])) r' depth cols loose s true ∧
      q.lexer.cursor.Faces cols (columnAfter (column + 1) gap) t := by
  have hf : p.lexer.cursor.Faces cols column (':' :: (gap ++ t)) :=
    ⟨[], fun c hc => by simp at hc, hr, hcol⟩
  refine h.round (Q := fun _ c _ _ => c.Faces cols (columnAfter (column + 1) gap) t) hf
    (Solid.cons (by decide) (by decide)) hi (fun _ => Inner.cons (by decide)) fun l hl hfr => ?_
  obtain ⟨ss, hss, -, -⟩ := hl.spots_eq
  have hspot : l.spot = r := by
    simp only at hss
    simp [Lexer.spot, hss]
  have hin : l.inFlow = true := hl.inFlow
  have hbr : l.inBraces = true := hl.braces rfl
  have hsent : l.sent ≤ ws₀.length := by
    rw [← hn]
    exact (hl.sound.2 r (by simp only at hss; simp [hss]) hp).1
  obtain ⟨hvo, hmark⟩ := hfr.touch hr
  have htouch : (l.mark.offset == l.valueOffset) = true := by
    rw [hvo, hv, hmark]
    exact beq_self_eq_true _
  have hcolon : l.readTokenAt ':' = l.readColon := by
    simp only [Lexer.readTokenAt, hin, htouch, Bool.or_true, Bool.and_true, if_true]
  obtain ⟨d, left, hread, htrail⟩ :=
    readColon_eq hfr.rest_eq hg ht htab (by simp [hin, hbr]) hl.pair (hspot ▸ hp)
  rw [valued, hspot, hn] at hread
  set l₁ := (l.move d).insert ws₀.length r.mark .key with hl₁
  have h₁ : Inside ⟨p.sent, l₁⟩ (ws₀ ++ .key :: ws₁) r depth cols loose s true :=
    Inside.insert (l := l.move d) (hl.relocate d l.keyAllowed l.valueOffset) hsent r.mark .key
  have hin₁ : l₁.inFlow = true := h₁.inFlow
  have hopen : (l₁.openBlock r.mark.column (some ws₀.length) .blockMappingStart l.mark).indentContent
      = l₁ := by
    rw [Lexer.openBlock, if_pos hin₁, Lexer.indentContent, if_neg (by simp [hin₁])]
  rw [hopen] at hread
  have hclear := Inside.setSpot (l := l₁) h₁ (show r.clear.required = false from h₁.spot) fun hc => by
    simp [KeySpot.clear] at hc
  have h₂ : Inside ⟨p.sent, (l₁.setSpot r.clear).allowKey false⟩ (ws₀ ++ .key :: ws₁) r.clear depth
      cols loose s true := hclear.relocate d false l₁.valueOffset
  refine ⟨_, r.clear, hcolon.trans hread, ?_, htrail.length_le, ?_⟩
  · have := h₂.push l.mark .value
    rwa [List.append_assoc, List.cons_append] at this
  · have hcol : (l.cursor.passInk 1).mark.column = column + 1 := by
      show l.cursor.mark.column + 1 = _
      rw [hfr.column_eq]
    exact hcol ▸ htrail.faces hg

end

end Progress

end TaggedYaml
