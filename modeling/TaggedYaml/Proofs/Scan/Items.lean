import TaggedYaml.Proofs.Scan.Block
import TaggedYaml.Proofs.Shape.Events

/-!
# Items — plain texts between brackets

A flow sequence of plain texts is read item by item.  Between brackets a plain text must not hold the
marks of flow collections, and neither a colon in front nor a lone dash at the end (`isPlainItem`).
-/

namespace TaggedYaml

/-- Whether a text can stand between brackets as it is. -/
def isPlainItem (a : List Char) : Bool :=
  isPlainText a && !a.any isFlowMark && a.head? != some ':' && !endsInDash a

/-- Texts with commas between them. -/
def itemsText : List (List Char) → List Char
  | [] => []
  | a :: rest => a ++ rest.flatMap (',' :: ' ' :: ·)

/-- A plain scalar. -/
def plainWords (a : List Char) : List Token := [.scalar .plain (String.ofList a)]

section

variable {a : List Char}

theorem isPlainText_of_item (h : isPlainItem a = true) : isPlainText a = true := by
  simp only [isPlainItem, Bool.and_eq_true] at h
  exact h.1.1.1

theorem plainFrom_of_isPlainItem (h : isPlainItem a = true) : PlainFrom true a := by
  have hfrom := plainFrom_of_isPlainText (isPlainText_of_item h)
  simp only [isPlainItem, Bool.and_eq_true, Bool.not_eq_true', List.any_eq_false] at h
  exact ⟨hfrom.head, hfrom.last, hfrom.unbroken, hfrom.pairs,
    fun _ => ⟨fun c hc => Bool.eq_false_iff.mpr (h.1.1.2 c hc), h.2⟩⟩

end

/-- A mark that ends an item. -/
def EndsItem (c : Char) : Prop := c = ',' ∨ c = ']'

theorem EndsItem.stop {c : Char} (hc : EndsItem c) (tail : List Char) :
    PlainStop true (c :: tail) := by
  have hchar : isPlainChar true c tail.head? = false := by
    rcases hc with rfl | rfl <;> simp [isPlainChar, isFlowMark]
  rw [PlainStop, plainWord, hchar]
  rfl

/-- What stands behind an item begins with a mark that ends it. -/
theorem exists_endsItem (rest : List (List Char)) (y : List Char) :
    ∃ c tail, rest.flatMap (',' :: ' ' :: ·) ++ ']' :: y = c :: tail ∧ EndsItem c := by
  cases rest with
  | nil => exact ⟨']', y, rfl, .inr rfl⟩
  | cons a rest => exact ⟨',', _, rfl, .inl rfl⟩

namespace Progress

variable {p : Progress} {ws : List Token} {r s : KeySpot} {depth column m : Nat} {cols : List Nat}
  {loose braces keys : Bool} {a t y : List Char}

/-- A plain scalar between brackets. -/
theorem Inside.reads_plain (h : Inside p ws r depth cols loose s braces) (ha : isPlainItem a = true)
    {x : Char} (hx : EndsItem x) (hf : p.lexer.cursor.Faces cols column (a ++ x :: t))
    (hi : edge cols < column) :
    Reads p fun q => ∃ r', Inside q (ws ++ plainWords a) r' depth cols false s braces ∧
      q.lexer.cursor.Faces cols (column + a.length) (x :: t) := by
  have hfrom := plainFrom_of_isPlainItem ha
  obtain ⟨c, u, rfl⟩ : ∃ c u, a = c :: u := by
    obtain ⟨c, u, hcu, -⟩ := hfrom.head
    exact ⟨c, u, hcu⟩
  have hhead := plainHead_of_isPlainText (isPlainText_of_item ha)
  have hcolon : c ≠ ':' := by
    simp only [isPlainItem, Bool.and_eq_true] at ha
    simpa using ha.1.2
  have hinner : Inner (c :: (u ++ x :: t)) := hhead.inner fun d hd => by
    obtain rfl := Option.some.inj hd
    rcases hx with rfl | rfl <;> decide
  rw [List.cons_append] at hf
  refine h.round (Q := fun _ c' _ _ => c'.Faces cols (column + (c :: u).length) (x :: t)) hf
    (hhead.solid _) hi (fun _ => hinner) fun l hl hfr => ?_
  obtain ⟨l₁, hl₁, h₁, hind, hcur⟩ :=
    (hl.saveKey.relocate l.saveKey.cursor false l.saveKey.valueOffset).closeContent
  have hcur' : l₁.cursor = l.cursor := hcur.trans (Lexer.cursor_saveKey l)
  have hrest : l.cursor.rest = (c :: u) ++ x :: t := hfr.rest_eq
  have hcol : l.cursor.mark.column = column := hfr.column_eq
  obtain ⟨d, hread, hdr, hdm, hlead⟩ := readPlain_stop (edge cols + 1) hfrom (hx.stop t)
    (by rcases hx with rfl | rfl <;> rfl) hrest (atDocumentMark_of_inner (hfr.rest_eq ▸ hinner))
    (by rw [hcol]; omega) fun _ => by rw [hcol]; omega
  have htok : l.readTokenAt c =
      .ok ((l₁.move d).push l.mark (.scalar .plain (String.ofList (c :: u)))) := by
    rw [readTokenAt_plain hhead (fun _ => hcolon) hrest,
      readPlainScalar_eq hl₁ hcur' (by rw [h₁.inFlow, hind]; exact hread), hlead,
      List.reverse_reverse, if_neg Bool.false_ne_true]
  refine ⟨_, _, htok, (h₁.relocate d l₁.keyAllowed l₁.valueOffset).push _ _, ?_, [], .nil, hdr, ?_⟩
  · show d.rest.length ≤ _
    rw [hdr, List.length_append]
    omega
  · show d.mark.column = _
    rw [hdm, ← hcol]
    rfl

/-- Plain items with a comma before each. -/
theorem Inside.reads_rest : ∀ {rest : List (List Char)}, (∀ a ∈ rest, isPlainItem a = true) →
    ∀ {p : Progress} {ws : List Token} {r : KeySpot} {loose : Bool} {column : Nat},
      Inside p ws r depth cols loose s braces →
      p.lexer.cursor.Faces cols column (rest.flatMap (',' :: ' ' :: ·) ++ ']' :: y) →
      edge cols < column →
      Reads p fun q => ∃ r' loose' column',
        Inside q (ws ++ (rest.map plainWords).flatMap (.flowEntry :: ·)) r' depth cols loose' s
          braces ∧
        q.lexer.cursor.Faces cols column' (']' :: y) ∧ edge cols < column'
  | [], _, p, ws, r, loose, column, h, hf, hi => Reads.here ⟨r, loose, column, by simpa using h, hf, hi⟩
  | a :: rest, hall, p, ws, r, loose, column, h, hf, hi => by
    rw [List.forall_mem_cons] at hall
    have hblank : IsSpace cols [' '] := IsSpace.replicate 1
    have hsolid : Solid (a ++ (rest.flatMap (',' :: ' ' :: ·) ++ ']' :: y)) := by
      obtain ⟨c, u, rfl, -⟩ := (plainFrom_of_isPlainItem hall.1).head
      exact (plainHead_of_isPlainText (isPlainText_of_item hall.1)).solid _
    have hf' : p.lexer.cursor.Faces cols column
        (',' :: ([' '] ++ (a ++ (rest.flatMap (',' :: ' ' :: ·) ++ ']' :: y)))) := by
      simpa using hf
    refine (h.reads_comma hf' hi hblank hsolid).trans fun q ⟨r₁, hq, hfq, _⟩ => ?_
    have hi₁ : edge cols < (columnAfter (column + 1) [' '] : Nat) := by
      rw [show columnAfter (column + 1) [' '] = column + 2 from rfl]
      omega
    obtain ⟨x, tail, htail, hx⟩ := exists_endsItem rest y
    rw [htail] at hfq
    refine (hq.reads_plain hall.1 hx hfq hi₁).trans fun q' ⟨r₂, hq', hfq'⟩ => ?_
    rw [← htail] at hfq'
    refine (Inside.reads_rest hall.2 hq' hfq' (by omega)).mono
      fun q'' ⟨r₃, loose', column', hq'', hrest⟩ => ⟨r₃, loose', column', ?_, hrest⟩
    simpa [plainWords] using hq''

/-- A flow sequence of plain texts. -/
theorem Ready.reads_items {rest : List (List Char)}
    (hall : ∀ b ∈ a :: rest, isPlainItem b = true)
    (h : Ready p ws cols column keys
      ('[' :: (itemsText (a :: rest) ++ ']' :: '\n' :: (pad m ++ t))))
    (hi : edge cols < column) (ht : Solid t) :
    Reads p fun q => Ready q
      (ws ++ .flowSequenceStart :: (commas ((a :: rest).map plainWords) ++ [.flowSequenceEnd]))
      cols m true t := by
  rw [List.forall_mem_cons] at hall
  obtain ⟨x, tail, htail, hx⟩ := exists_endsItem rest ('\n' :: (pad m ++ t))
  have htext : itemsText (a :: rest) ++ ']' :: '\n' :: (pad m ++ t) = a ++ x :: tail := by
    rw [itemsText, List.append_assoc, htail]
  rw [htext] at h
  have hsolid : Solid (a ++ x :: tail) := by
    obtain ⟨c, u, rfl, -⟩ := (plainFrom_of_isPlainItem hall.1).head
    exact (plainHead_of_isPlainText (isPlainText_of_item hall.1)).solid _
  have h' : Ready p ws cols column keys (openChar false :: ([] ++ (a ++ x :: tail))) := h
  refine (h'.reads_open false hi IsSpace.nil hsolid).trans
    fun q ⟨r, loose, s, hq, hs, hfq, _⟩ => ?_
  have hi₁ : edge cols < (columnAfter (column + 1) [] : Nat) := by
    rw [show columnAfter (column + 1) [] = column + 1 from rfl]
    omega
  refine (hq.reads_plain hall.1 hx hfq hi₁).trans fun q₁ ⟨r₁, hq₁, hfq₁⟩ => ?_
  rw [← htail] at hfq₁
  refine (Inside.reads_rest hall.2 hq₁ hfq₁ (by omega)).trans
    fun q₂ ⟨r₂, loose₂, column₂, hq₂, hfq₂, hi₂⟩ => ?_
  have hclose := hq₂.reads_close_last false ('\n' :: pad m) t hs hfq₂ hi₂ (IsSpace.line m) ht
  rw [columnAfter_line, any_isBreak_line] at hclose
  refine hclose.mono fun q₃ hq₃ => ?_
  simpa [commas, openToken, closeToken] using hq₃

end Progress

end TaggedYaml
