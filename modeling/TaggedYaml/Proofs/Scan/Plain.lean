import Mathlib.Data.List.Basic
import Mathlib.Data.List.TakeWhile
import Mathlib.Tactic.Set
import TaggedYaml.Proofs.Scan.Space
import TaggedYaml.Scalar.Write

/-!
# Plain text is read as it stands

A plain scalar is read word by word.  `PlainFrom` says of a text that it can be read so from the
beginning of a word on; `readPlain_stop` and `readPlain_line` give what is read where it is followed
by an indicator or by the end of its line.
-/

namespace TaggedYaml

/-- A dash stands at the end of a text, and nothing or a blank before it. -/
def endsInDash (s : List Char) : Bool := s.getLast? == some '-' && s.dropLast.getLast?.all isGap

theorem endsInDash_append {s u : List Char} (hs : ∀ c ∈ s.getLast?, isGap c = true) (hu : u ≠ []) :
    endsInDash (s ++ u) = endsInDash u := by
  rw [endsInDash, endsInDash, List.getLast?_append_of_ne_nil _ hu, List.dropLast_append_of_ne_nil hu]
  cases hd : u.dropLast with
  | nil =>
    rw [List.append_nil]
    cases hl : s.getLast? with
    | none => rfl
    | some c => simp [hs c hl]
  | cons d r => rw [List.getLast?_append_of_ne_nil _ (List.cons_ne_nil d r)]

/-- A text that can be read as the rest of a plain scalar, from the beginning of a word on. -/
structure PlainFrom (inFlow : Bool) (s : List Char) : Prop where
  head : ∃ c r, s = c :: r ∧ isGap c = false ∧ c ≠ '#'
  last : ∀ c ∈ s.getLast?, isGap c = false ∧ c ≠ ':'
  unbroken : ∀ c ∈ s, isBreak c = false
  pairs : breaksPlain s = false
  marks : inFlow = true → (∀ c ∈ s, isFlowMark c = false) ∧ endsInDash s = false

/-- A text that ends a plain scalar before it. -/
def PlainStop (inFlow : Bool) (tail : List Char) : Prop :=
  plainWord inFlow tail = []

theorem breaksPlain_cons {a : Char} {s : List Char} (h : breaksPlain (a :: s) = false) :
    breaksPlain s = false := by
  cases s with
  | nil => rfl
  | cons b s =>
    simp only [breaksPlain, Bool.or_eq_false_iff] at h
    exact h.2

theorem breaksPlain_append {s t : List Char} (h : breaksPlain (s ++ t) = false) :
    breaksPlain t = false := by
  induction s with
  | nil => exact h
  | cons a s ih => exact ih (breaksPlain_cons h)

/-- The first word goes up to the first blank. -/
theorem plainWord_append {inFlow : Bool} {tail : List Char} (hstop : PlainStop inFlow tail) :
    ∀ {s : List Char}, (∀ c ∈ s, isBreak c = false) → breaksPlain s = false →
      (inFlow = true → ∀ c ∈ s, isFlowMark c = false) → (∀ c ∈ s.getLast?, c ≠ ':') →
      plainWord inFlow (s ++ tail) = s.takeWhile (!isGap ·)
  | [], _, _, _, _ => hstop
  | [a], hb, _, hm, hl => by
    have ha : a ≠ ':' := hl a (by simp)
    have hm' : (inFlow && isFlowMark a) = false := by
      cases inFlow
      · rfl
      · exact hm rfl a (by simp)
    have hc : isPlainChar inFlow a tail.head? = !isGap a := by
      simp [isPlainChar, ha, hm']
    have hstop' : plainWord inFlow tail = [] := hstop
    simp only [List.cons_append, List.nil_append, plainWord, hc, hstop']
    cases h : isGap a <;> simp [h]
  | a :: b :: s, hb, hp, hm, hl => by
    have ih := plainWord_append hstop (s := b :: s)
      (fun c hc => hb c (List.mem_cons_of_mem _ hc)) (breaksPlain_cons hp)
      (fun h c hc => hm h c (List.mem_cons_of_mem _ hc)) (by simpa using hl)
    have hm' : ∀ x ∈ [a, b], (inFlow && isFlowMark x) = false := by
      intro x hx
      cases inFlow
      · rfl
      · refine hm rfl x ?_
        simp only [List.mem_cons, List.not_mem_nil, or_false] at hx
        rcases hx with rfl | rfl <;> simp
    have hab : (a == ':' && (isGap b || (inFlow && isFlowMark b))) = false := by
      have hbreak := hb b (by simp)
      simp only [breaksPlain, Bool.or_eq_false_iff] at hp
      rw [hm' b (by simp), isGap, hbreak]
      simpa using hp.1.2
    have hc : isPlainChar inFlow a ((b :: s) ++ tail).head? = !isGap a := by
      simp only [isPlainChar, List.cons_append, List.head?_cons, Option.all_some, Option.any_some,
        hab, hm' a (by simp), Bool.not_false, Bool.and_true]
    simp only [List.cons_append] at hc ih ⊢
    rw [plainWord, hc, ih]
    cases h : isGap a <;> simp [h]

/-! ### Gaps -/

/-- The cursor behind some characters of a line. -/
structure Cursor.Along (c : Cursor) (n : Nat) (tail : List Char) (d : Cursor) : Prop where
  rest_eq : d.rest = tail
  mark_eq : d.mark = c.mark.right n
  leading_eq : d.leading = c.leading

theorem Gap.addBlanks (bs : List Char) {g : Gap} (h : g.leading = false) :
    (bs.foldl Gap.addBlank g).leading = false ∧ (bs.foldl Gap.addBlank g).text = g.text ++ bs := by
  induction bs generalizing g with
  | nil => simp [h]
  | cons b bs ih =>
    have hb : (g.addBlank b).leading = false := by simp [Gap.addBlank, h]
    obtain ⟨h1, h2⟩ := ih hb
    refine ⟨h1, ?_⟩
    rw [List.foldl_cons, h2, Gap.text_addBlank h, List.append_assoc]
    rfl

/-- Blanks between two words are read as they are. -/
theorem readPlainGapLoop_blanks (indent : Int) (start : Mark) {bs u : List Char}
    (hb : ∀ b ∈ bs, isBlank b = true) (hu : ∃ c r, u = c :: r ∧ isGap c = false) :
    ∀ (fuel : Nat) (g : Gap) (c : Cursor), g.leading = false → c.rest = bs ++ u →
      bs.length < fuel →
      ∃ d, readPlainGapLoop indent start fuel g c = .ok (bs.foldl Gap.addBlank g, d) ∧
        c.Along bs.length u d := by
  induction bs with
  | nil =>
    intro fuel g c _ hc hf
    obtain ⟨n, rfl⟩ : ∃ n, fuel = n + 1 := ⟨fuel - 1, by simp at hf; omega⟩
    obtain ⟨x, r, rfl, hx⟩ := hu
    have hhead : (c.look 2).head? = some x := by simp [Cursor.head?, hc]
    simp only [isGap, Bool.or_eq_false_iff] at hx
    refine ⟨c.look 2, ?_, hc, by simp, rfl⟩
    rw [readPlainGapLoop]
    simp [hhead, hx.1, hx.2]
  | cons b bs ih =>
    intro fuel g c hg hc hf
    obtain ⟨n, rfl⟩ : ∃ n, fuel = n + 1 := ⟨fuel - 1, by simp at hf; omega⟩
    have hb1 := hb b (by simp)
    have hhead : (c.look 2).head? = some b := by simp [Cursor.head?, hc]
    obtain ⟨d, hd, ha⟩ := ih (fun x hx => hb x (List.mem_cons_of_mem _ hx)) n (g.addBlank b)
      ((c.look 2).pass 1) (by simp [Gap.addBlank, hg]) (by simp [hc]) (by simpa using hf)
    refine ⟨d, ?_, ha.rest_eq, ?_, ha.leading_eq⟩
    · rw [readPlainGapLoop]
      simp only [hhead, hb1, hg, Bool.false_and, Bool.false_eq_true, if_false, if_true]
      exact hd
    · rw [ha.mark_eq]
      simp [Cursor.pass, Cursor.look, Nat.add_comm 1]

theorem readPlainGapLoop_spaces (indent : Int) (start : Mark) {t : List Char} (ht : Solid t) :
    ∀ (n fuel : Nat) (g : Gap) (c : Cursor), c.rest = List.replicate n ' ' ++ t → n < fuel →
      ∃ g' d, readPlainGapLoop indent start fuel g c = .ok (g', d) ∧ c.Along n t d := by
  intro n
  induction n with
  | zero =>
    intro fuel g c hc hf
    obtain ⟨n, rfl⟩ : ∃ n, fuel = n + 1 := ⟨fuel - 1, by omega⟩
    refine ⟨g, c.look 2, ?_, hc, by simp, rfl⟩
    have hc' : c.rest = t := by simpa using hc
    rw [readPlainGapLoop]
    cases t with
    | nil => simp [Cursor.head?, hc']
    | cons x r =>
      have hx := (ht x (by simp)).1
      simp only [isGap, Bool.or_eq_false_iff] at hx
      simp [Cursor.head?, hc', hx.1, hx.2]
  | succ n ih =>
    intro fuel g c hc hf
    obtain ⟨m, rfl⟩ : ∃ m, fuel = m + 1 := ⟨fuel - 1, by omega⟩
    have hhead : (c.look 2).head? = some ' ' := by
      simp [Cursor.head?, hc, List.replicate_succ]
    obtain ⟨g', d, hd, ha⟩ := ih m (g.addBlank ' ') ((c.look 2).pass 1)
      (by simp [hc, List.replicate_succ]) (by omega)
    refine ⟨g', d, ?_, ha.rest_eq, ?_, ha.leading_eq⟩
    · have hblank : isBlank ' ' = true := by decide
      have hne : (' ' == '\t') = false := by decide
      rw [readPlainGapLoop]
      simp only [hhead, hblank, hne, Bool.and_false, Bool.false_and, Bool.false_eq_true, if_false,
        if_true]
      exact hd
    · rw [ha.mark_eq]
      simp [Cursor.pass, Cursor.look, Nat.add_comm 1]

/-- The end of a line and the indentation of the next one. -/
theorem readPlainGap_line (indent : Int) (start : Mark) {t : List Char} {n : Nat} (ht : Solid t)
    {c : Cursor} (hc : c.rest = '\n' :: (List.replicate n ' ' ++ t)) :
    ∃ g d, readPlainGap indent start c = .ok (g, d) ∧ d.rest = t ∧ d.mark.column = n ∧
      d.leading = true := by
  have hrest : (c.look 2).rest = '\n' :: (List.replicate n ' ' ++ t) := hc
  obtain ⟨g, d, hd, ha⟩ := readPlainGapLoop_spaces indent start ht n
    c.rest.length Gap.empty.addBreak (c.look 2).passBreak (by rw [passBreak_lineFeed hrest])
    (by rw [hc]; grind)
  refine ⟨g, d, ?_, ha.rest_eq, ?_, ?_⟩
  · have hb : isBlank '\n' = false := by decide
    have hb' : isBreak '\n' = true := by decide
    have hhead : (c.look 2).head? = some '\n' := by simp [Cursor.head?, hc]
    rw [readPlainGap, readPlainGapLoop]
    simp only [hhead, hb, hb', Bool.false_eq_true, if_false, if_true]
    exact hd
  · rw [ha.mark_eq, passBreak_lineFeed hrest]
    simp [Mark.right, Mark.nextLine]
  · rw [ha.leading_eq, passBreak_lineFeed hrest]

/-! ### Words -/

/-- A text that begins and ends with a word has no gap, or it goes on behind the first one. -/
theorem split_gap {s : List Char} (hh : ∃ c r, s = c :: r ∧ isGap c = false)
    (hl : ∀ c ∈ s.getLast?, isGap c = false) :
    (∀ c ∈ s, isGap c = false) ∨ ∃ w bs u, s = w ++ (bs ++ u) ∧ w = s.takeWhile (!isGap ·) ∧
      w ≠ [] ∧ bs ≠ [] ∧ (∀ b ∈ bs, isGap b = true) ∧ ∃ c r, u = c :: r ∧ isGap c = false := by
  by_cases hall : ∀ c ∈ s, isGap c = false
  · exact .inl hall
  right
  have hw0 : s.takeWhile (!isGap ·) ≠ [] := by
    obtain ⟨c, r, rfl, hc⟩ := hh
    simp [hc]
  have hsw : s.takeWhile (!isGap ·) ++ s.dropWhile (!isGap ·) = s := List.takeWhile_append_dropWhile
  set r := s.dropWhile (!isGap ·) with hr
  have hrb : r.takeWhile isGap ++ r.dropWhile isGap = r := List.takeWhile_append_dropWhile
  set u := r.dropWhile isGap with hu
  have hr0 : r ≠ [] := by
    intro h0
    rw [h0, List.append_nil] at hsw
    refine hall fun c hc => ?_
    rw [← hsw] at hc
    simpa using List.mem_takeWhile_imp hc
  obtain ⟨b, r₁, hbr⟩ : ∃ b r₁, r = b :: r₁ := List.exists_cons_of_ne_nil hr0
  have hb : isGap b = true := by
    have := List.head_dropWhile_not (!isGap ·) (l := s) (hr ▸ hr0)
    simpa [← hr, hbr] using this
  have hu0 : u ≠ [] := by
    intro h0
    rw [h0, List.append_nil] at hrb
    obtain ⟨x, hx⟩ : ∃ x, r.getLast? = some x := ⟨_, List.getLast?_eq_some_getLast hr0⟩
    have hgap : isGap x = true := by
      have hxr := List.mem_of_getLast? hx
      rw [← hrb] at hxr
      exact List.mem_takeWhile_imp hxr
    rw [hl x (by rw [← hsw, List.getLast?_append_of_ne_nil _ hr0]; exact hx)] at hgap
    exact absurd hgap Bool.false_ne_true
  obtain ⟨y, v, hyv⟩ : ∃ y v, u = y :: v := List.exists_cons_of_ne_nil hu0
  have hy : isGap y = false := by
    have := List.head_dropWhile_not isGap (l := r) (hu ▸ hu0)
    simpa [← hu, hyv] using this
  exact ⟨_, r.takeWhile isGap, u, by rw [hrb, hsw], rfl, hw0, by simp [hbr, hb],
    fun _ => List.mem_takeWhile_imp, y, v, hyv, hy⟩

/-- A plain text goes on behind blanks. -/
theorem PlainFrom.behind_blanks {inFlow : Bool} {w bs u : List Char}
    (h : PlainFrom inFlow (w ++ (bs ++ u))) (hbs : bs ≠ []) (hb : ∀ b ∈ bs, isBlank b = true)
    (hu : ∃ c r, u = c :: r ∧ isGap c = false) : PlainFrom inFlow u := by
  obtain ⟨y, v, rfl, hy⟩ := hu
  have hmem : ∀ c ∈ y :: v, c ∈ w ++ (bs ++ y :: v) := fun c hc =>
    List.mem_append_right w (List.mem_append_right bs hc)
  have hpairs := breaksPlain_append h.pairs
  refine ⟨⟨y, v, rfl, hy, ?_⟩, fun c hc => h.last c ?_, fun c hc => h.unbroken c (hmem c hc),
    breaksPlain_append hpairs, fun hf => ?_⟩
  · -- a `#` behind a blank would begin a comment
    rintro rfl
    rw [← List.dropLast_concat_getLast hbs, List.append_assoc] at hpairs
    have hp := breaksPlain_append hpairs
    simp [breaksPlain, hb _ (List.getLast_mem hbs)] at hp
  · rw [List.getLast?_append_of_ne_nil _ (by simp), List.getLast?_append_of_ne_nil _ (by simp)]
    exact hc
  · obtain ⟨h1, h2⟩ := h.marks hf
    refine ⟨fun c hc => h1 c (hmem c hc), ?_⟩
    rw [← List.append_assoc, endsInDash_append (fun c hc => ?_) (by simp)] at h2
    · exact h2
    · rw [List.getLast?_append_of_ne_nil _ hbs] at hc
      exact isGap_of_isBlank (hb c (List.mem_of_getLast? hc))

/-- A text from the beginning of a word on is a word, or a word, blanks and such a text. -/
theorem PlainFrom.split {inFlow : Bool} {s : List Char} (h : PlainFrom inFlow s) :
    (∀ c ∈ s, isGap c = false) ∨ ∃ w bs u, s = w ++ (bs ++ u) ∧ w = s.takeWhile (!isGap ·) ∧
      w ≠ [] ∧ bs ≠ [] ∧ (∀ b ∈ bs, isBlank b = true) ∧ PlainFrom inFlow u := by
  obtain ⟨c, r, hcr, hc, -⟩ := h.head
  rcases split_gap ⟨c, r, hcr, hc⟩ fun x hx => (h.last x hx).1 with
    hall | ⟨w, bs, u, hs, hw, hw0, hbs, hgap, hu⟩
  · exact .inl hall
  right
  have hblank : ∀ b ∈ bs, isBlank b = true := by
    intro b hb
    have hbreak := h.unbroken b (by simp [hs, hb])
    simpa [isGap, hbreak] using hgap b hb
  exact ⟨w, bs, u, hs, hw, hw0, hbs, hblank, (hs ▸ h).behind_blanks hbs hblank hu⟩

/-- A plain text in brackets does not begin with a dash before an indicator. -/
theorem PlainFrom.dash {inFlow : Bool} {s tail : List Char} {c : Cursor} (h : PlainFrom inFlow s)
    (hc : c.rest = s ++ tail) :
    (inFlow && c.head? == some '-' && c.second?.any isFlowMark) = false := by
  obtain ⟨x, r, rfl, -, -⟩ := h.head
  cases hf : inFlow with
  | false => rfl
  | true =>
    obtain ⟨hm, hl⟩ := h.marks hf
    by_cases hx : x = '-'
    · subst hx
      cases r with
      | nil => simp [endsInDash] at hl
      | cons y r => simp [Cursor.second?, hc, hm y (by simp)]
    · simp [Cursor.head?, hc, hx]

/-- What is done behind the last word of a line: the scalar ends or goes on below. -/
def plainEnd (inFlow : Bool) (indent : Int) (start : Mark) (fuel : Nat) (text : List Char)
    (c : Cursor) : Except Fault (List Char × Cursor) :=
  if c.head?.any isGap then do
    let (g, c) ← readPlainGap indent start c
    if !inFlow && (c.mark.column : Int) < indent then return (text, c)
    readPlainLoop inFlow indent start fuel g text c
  else .ok (text, c)

theorem readPlainLoop_word {inFlow : Bool} (indent : Int) (start : Mark) (fuel : Nat) (g : Gap)
    (text : List Char) {c : Cursor} (hd : c.atDocumentMark = false) (hh : c.head? ≠ some '#')
    (hf : (inFlow && c.head? == some '-' && c.second?.any isFlowMark) = false)
    (hw : plainWord inFlow c.rest ≠ []) :
    readPlainLoop inFlow indent start (fuel + 1) g text c =
      plainEnd inFlow indent start fuel
        ((plainWord inFlow c.rest).reverse ++ (g.text.reverse ++ text))
        (((c.look 4).passInk (plainWord inFlow c.rest).length).look 2) := by
  have h1 : (c.look 4).atDocumentMark = false := hd
  have h2 : ((c.look 4).head? == some '#') = false := by
    show (c.head? == some '#') = false
    simpa using hh
  have h3 : (inFlow && (c.look 4).head? == some '-' && (c.look 4).second?.any isFlowMark) = false :=
    hf
  rw [readPlainLoop]
  simp only [h1, h2, h3, Bool.or_self, Bool.false_eq_true, if_false, Cursor.rest_look,
    List.isEmpty_iff, hw]
  rfl

/-- The first word of a plain text is read. -/
theorem readPlainLoop_first {inFlow : Bool} (indent : Int) (start : Mark) (fuel : Nat) (g : Gap)
    (text : List Char) {s tail : List Char} {c : Cursor} (hstop : PlainStop inFlow tail)
    (hs : PlainFrom inFlow s) (hc : c.rest = s ++ tail) (hd : c.atDocumentMark = false) :
    readPlainLoop inFlow indent start (fuel + 1) g text c =
      plainEnd inFlow indent start fuel
        ((s.takeWhile (!isGap ·)).reverse ++ (g.text.reverse ++ text))
        (((c.look 4).passInk (s.takeWhile (!isGap ·)).length).look 2) := by
  obtain ⟨x, r, hxr, hx, hsharp⟩ := hs.head
  have hword : plainWord inFlow c.rest = s.takeWhile (!isGap ·) := by
    rw [hc]
    exact plainWord_append hstop hs.unbroken hs.pairs (fun h => (hs.marks h).1)
      fun y hy => (hs.last y hy).2
  have hstep := readPlainLoop_word indent start fuel g text hd
    (by simpa [Cursor.head?, hc, hxr] using hsharp) (hs.dash hc) (by simp [hword, hxr, hx])
  rwa [hword] at hstep

/-- Behind the blanks between two words of a line the next round begins. -/
theorem plainEnd_blanks {inFlow : Bool} (indent : Int) (start : Mark) (fuel : Nat)
    (text : List Char) {bs u : List Char} {c : Cursor} (hbs : bs ≠ []) (hb : ∀ b ∈ bs, isBlank b = true)
    (hu : ∃ x r, u = x :: r ∧ isGap x = false) (hc : c.rest = bs ++ u)
    (hi : indent ≤ c.mark.column) :
    ∃ g d, plainEnd inFlow indent start fuel text c =
        readPlainLoop inFlow indent start fuel g text d ∧
      g.text = bs ∧ c.Along bs.length u d ∧ d.atDocumentMark = false := by
  have hpos : 0 < bs.length := List.length_pos_of_ne_nil hbs
  obtain ⟨d, hread, ha⟩ := readPlainGapLoop_blanks indent start hb hu (c.rest.length + 1) .empty c
    rfl hc (by rw [hc]; grind)
  have hread' : readPlainGap indent start c = .ok (bs.foldl Gap.addBlank .empty, d) := hread
  have hcol : d.mark.column = c.mark.column + bs.length := by
    rw [ha.mark_eq]
    rfl
  have hin : (!inFlow && decide ((d.mark.column : Int) < indent)) = false := by
    have : ¬ (d.mark.column : Int) < indent := by omega
    simp [this]
  have hgap : c.head?.any isGap = true := by
    obtain ⟨b, bs, rfl⟩ := List.exists_cons_of_ne_nil hbs
    simp [Cursor.head?, hc, isGap_of_isBlank (hb b (by simp))]
  refine ⟨_, d, ?_, (Gap.addBlanks bs (g := .empty) rfl).2, ha, ?_⟩
  · rw [plainEnd, if_pos hgap, hread']
    show (if (!inFlow && decide ((d.mark.column : Int) < indent)) = true then _ else _) = _
    rw [hin, if_neg Bool.false_ne_true]
  · have : d.mark.column ≠ 0 := by omega
    simp [Cursor.atDocumentMark, this]

/-- A plain text on one line is read up to what ends it. -/
theorem readPlainLoop_line {inFlow : Bool} (indent : Int) (start : Mark) {tail : List Char}
    (hstop : PlainStop inFlow tail) :
    ∀ {k : Nat} {s : List Char}, s.length ≤ k → PlainFrom inFlow s →
      ∀ (fuel : Nat) (g : Gap) (text : List Char) (c : Cursor), c.rest = s ++ tail →
        s.length < fuel → c.atDocumentMark = false → indent ≤ c.mark.column + 1 →
        ∃ d n, d.rest = tail ∧ d.mark = c.mark.right s.length ∧ d.leading = false ∧
          fuel ≤ n + s.length ∧ readPlainLoop inFlow indent start fuel g text c =
            plainEnd inFlow indent start n (s.reverse ++ (g.text.reverse ++ text)) d
  | 0, s, hk, hs, _, _, _, _, _, _, _, _ => by
    obtain ⟨x, r, rfl, -⟩ := hs.head
    simp at hk
  | k + 1, s, hk, hs, fuel, g, text, c, hc, hf, hd, hi => by
    obtain ⟨m, rfl⟩ : ∃ m, fuel = m + 1 := ⟨fuel - 1, by omega⟩
    have hfirst := readPlainLoop_first indent start m g text hstop hs hc hd
    rcases hs.split with hall | ⟨w, bs, u, hsplit, hw, hwne, hbs0, hbs, hu⟩
    · -- a single word
      have heq : s.takeWhile (!isGap ·) = s := by
        rw [List.takeWhile_eq_self_iff]
        exact fun y hy => by simp [hall y hy]
      have hpos : s.length ≠ 0 := by
        obtain ⟨x, r, rfl, -⟩ := hs.head
        simp
      rw [heq] at hfirst
      exact ⟨_, m, by simp [hc], rfl, rfl, by omega, hfirst⟩
    · -- a word, blanks and the rest
      rw [← hw] at hfirst
      have hlen : s.length = w.length + (bs.length + u.length) := by simp [hsplit]
      have hwpos : 0 < w.length := List.length_pos_of_ne_nil hwne
      have hbpos : 0 < bs.length := List.length_pos_of_ne_nil hbs0
      obtain ⟨c₁, hc₁, hrest₁, hmark₁⟩ : ∃ c₁, c₁ = ((c.look 4).passInk w.length).look 2 ∧
          c₁.rest = bs ++ (u ++ tail) ∧ c₁.mark = c.mark.right w.length :=
        ⟨_, rfl, by simp [hc, hsplit], by simp⟩
      have hcol₁ : c₁.mark.column = c.mark.column + w.length := by
        rw [hmark₁]
        rfl
      obtain ⟨y, v, hyv, hy, -⟩ := hu.head
      obtain ⟨g₁, d₁, hnext, hg₁, ha, hdoc⟩ := plainEnd_blanks indent start m
        (w.reverse ++ (g.text.reverse ++ text)) hbs0 hbs ⟨y, v ++ tail, by simp [hyv], hy⟩ hrest₁
        (by omega)
      have hmark : d₁.mark = c.mark.right (w.length + bs.length) := by
        rw [ha.mark_eq, hmark₁, Mark.right_right]
      have hcol : d₁.mark.column = c.mark.column + (w.length + bs.length) := by
        rw [hmark]
        rfl
      obtain ⟨d, n, hr, hm, hl, hn, heq⟩ := readPlainLoop_line indent start hstop (k := k)
        (s := u) (by omega) hu m g₁ (w.reverse ++ (g.text.reverse ++ text)) d₁ ha.rest_eq
        (by omega) hdoc (by omega)
      refine ⟨d, n, hr, ?_, hl, by omega, ?_⟩
      · rw [hm, hmark, hlen, Mark.right_right, Nat.add_assoc]
      · rw [hfirst, ← hc₁, hnext, heq, hg₁, hsplit]
        simp

/-- A plain text is read up to an indicator behind it. -/
theorem readPlain_stop {inFlow : Bool} (indent : Int) {s tail : List Char} {c : Cursor}
    (hs : PlainFrom inFlow s) (hstop : PlainStop inFlow tail) (ht : tail.head?.any isGap = false)
    (hc : c.rest = s ++ tail) (hd : c.atDocumentMark = false) (hi : indent ≤ c.mark.column + 1)
    (hfl : inFlow = true → indent ≤ c.mark.column) :
    ∃ d, readPlain inFlow indent c = .ok (s.reverse, d) ∧ d.rest = tail ∧
      d.mark = c.mark.right s.length ∧ d.leading = false := by
  obtain ⟨d, n, hr, hm, hl, -, heq⟩ := readPlainLoop_line indent c.mark hstop (Nat.le_refl _) hs
    (c.rest.length + 1) .empty [] c hc (by rw [hc]; grind) hd hi
  refine ⟨d, ?_, hr, hm, hl⟩
  have hin : ¬ (inFlow && decide ((c.mark.column : Int) < indent)) = true := by
    intro h
    rw [Bool.and_eq_true, decide_eq_true_eq] at h
    have := hfl h.1
    omega
  have hgap : ¬ d.head?.any isGap = true := by
    rw [Cursor.head?, hr, ht]
    exact Bool.false_ne_true
  rw [readPlain, if_neg hin, heq, plainEnd, if_neg hgap, Gap.text_empty]
  simp

/-- A plain text is read up to the end of its line, and the cursor comes to the next token. -/
theorem readPlain_line (indent : Int) {s t : List Char} {n : Nat} {c : Cursor}
    (hs : PlainFrom false s) (ht : Solid t) (hn : (n : Int) < indent ∨ t = [])
    (hc : c.rest = s ++ '\n' :: (List.replicate n ' ' ++ t)) (hd : c.atDocumentMark = false)
    (hi : indent ≤ c.mark.column + 1) :
    ∃ d, readPlain false indent c = .ok (s.reverse, d) ∧ d.rest = t ∧ d.mark.column = n ∧
      d.leading = true := by
  have hstop : PlainStop false ('\n' :: (List.replicate n ' ' ++ t)) := by
    have hgap : isGap '\n' = true := by decide
    simp [PlainStop, plainWord, isPlainChar, hgap]
  have hspos : 0 < s.length := by
    obtain ⟨x, r, rfl, -⟩ := hs.head
    simp
  obtain ⟨d, m, hr, hm, hl, hfuel, heq⟩ := readPlainLoop_line indent c.mark hstop (Nat.le_refl _) hs
    (c.rest.length + 1) .empty [] c hc (by rw [hc]; grind) hd hi
  obtain ⟨g, e, he, hre, hce, hle⟩ := readPlainGap_line indent c.mark ht hr
  have hgap : d.head?.any isGap = true := by
    have hb : isGap '\n' = true := by decide
    simp [Cursor.head?, hr, hb]
  have hread : readPlain false indent c =
      if (e.mark.column : Int) < indent then .ok (s.reverse, e)
      else readPlainLoop false indent c.mark m g s.reverse e := by
    rw [readPlain, heq, plainEnd, if_pos hgap, he, Gap.text_empty]
    simp
    rfl
  rw [hread]
  by_cases hlt : (e.mark.column : Int) < indent
  · exact ⟨e, if_pos hlt, hre, hce, hle⟩
  · -- the text is over: one more round reads nothing
    have ht0 : t = [] := by
      rcases hn with hn | hn
      · rw [hce] at hlt
        exact absurd hn hlt
      · exact hn
    subst ht0
    obtain ⟨m', rfl⟩ : ∃ m', m = m' + 1 := by
      refine ⟨m - 1, ?_⟩
      rw [hc] at hfuel
      simp only [List.length_append, List.length_cons] at hfuel
      omega
    refine ⟨e.look 4, ?_, hre, hce, hle⟩
    have hdoc : (e.look 4).atDocumentMark = false := by
      simp [Cursor.atDocumentMark, Cursor.atDashes, Cursor.atDots, hre]
    rw [if_neg hlt, readPlainLoop]
    simp [hdoc, Cursor.head?, hre, plainWord]

/-! ### Texts that are written plain -/

theorem isHidden_of_isBreak {c : Char} (h : isBreak c = true) : isHidden c = true := by
  have hc := isControl_of_isBreak h
  simp only [isBreak, Bool.or_eq_true, beq_iff_eq] at h
  rcases h with rfl | rfl <;> simp [isHidden, hc]

theorem isBreak_of_not_isHidden {c : Char} (h : isHidden c = false) : isBreak c = false := by
  cases hb : isBreak c with
  | false => rfl
  | true =>
    rw [isHidden_of_isBreak hb] at h
    exact absurd h (by simp)

theorem isGap_of_not_isWhite {c : Char} (h : isWhite c = false) : isGap c = false := by
  cases hg : isGap c with
  | false => rfl
  | true => rw [isWhite_of_isGap hg] at h; exact absurd h (by simp)

/-- What is said of a text by its being written plain. -/
structure PlainHead (c : Char) (r : List Char) : Prop where
  gap : isGap c = false
  stop : c ∉ plainStops
  next : c = '-' ∨ c = '?' ∨ c = ':' → ∃ d r', r = d :: r' ∧ isGap d = false
  dashes : ¬ ['-', '-', '-'] <+: c :: r
  dots : ¬ ['.', '.', '.'] <+: c :: r

theorem plainHead_of_isPlainText {c : Char} {r : List Char} (h : isPlainText (c :: r) = true) :
    PlainHead c r := by
  simp only [isPlainText, Bool.and_eq_true, Bool.not_eq_true', Bool.and_eq_false_iff] at h
  obtain ⟨⟨⟨⟨⟨⟨⟨⟨hw, -⟩, -⟩, hs⟩, hn⟩, hda⟩, hdo⟩, -⟩, -⟩ := h
  refine ⟨isGap_of_not_isWhite hw, by simpa using hs, fun hc => ?_, ?_, ?_⟩
  · have hn' : r.head?.all isWhite = false := by
      rcases hn with hn | hn
      · simp only [Bool.or_eq_false_iff, beq_eq_false_iff_ne] at hn
        rcases hc with rfl | rfl | rfl <;> simp at hn
      · exact hn
    cases r with
    | nil => simp at hn'
    | cons d r =>
      refine ⟨d, r, rfl, isGap_of_not_isWhite ?_⟩
      simpa using hn'
  · intro hp
    rw [List.isPrefixOf_iff_prefix.mpr hp] at hda
    exact absurd hda (by simp)
  · intro hp
    rw [List.isPrefixOf_iff_prefix.mpr hp] at hdo
    exact absurd hdo (by simp)

theorem plainFrom_of_isPlainText {s : List Char} (h : isPlainText s = true) : PlainFrom false s := by
  cases s with
  | nil => simp [isPlainText] at h
  | cons c r =>
    have hh := plainHead_of_isPlainText h
    simp only [isPlainText, Bool.and_eq_true, Bool.not_eq_true'] at h
    obtain ⟨⟨⟨⟨⟨⟨⟨⟨-, hl⟩, hhid⟩, -⟩, -⟩, -⟩, -⟩, hp⟩, hcol⟩ := h
    refine ⟨⟨c, r, rfl, hh.gap, ?_⟩, fun x hx => ⟨?_, ?_⟩, fun x hx => ?_, hp, fun hf => by simp at hf⟩
    · rintro rfl
      exact hh.stop (by decide)
    · rw [Option.mem_def] at hx
      simp only [hx, Option.any_some] at hl
      exact isGap_of_not_isWhite hl
    · rintro rfl
      rw [Option.mem_def] at hx
      simp [hx] at hcol
    · cases hb : isBreak x with
      | false => rfl
      | true =>
        simp only [List.any_eq_false] at hhid
        exact absurd (isHidden_of_isBreak hb) (hhid x hx)

end TaggedYaml
