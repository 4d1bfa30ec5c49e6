import Mathlib.Data.List.Infix
import TaggedYaml.Proofs.Shape.Bare

/-!
# Freed — the rule for quotes on what is written of a shape

What the rule does to a part of a text depends on what stands behind it.  A part is `Freed` if, whatever
stands behind, the rule takes from it the quotes around each text that begins with an exclamation mark;
parts that are freed are freed one behind the other.  So all that is written of a calm shape is freed
(`Shape.freed_segments`).
-/

namespace TaggedYaml

theorem isQuote_pad (indent : Nat) : ∀ c ∈ pad indent, isQuote c = false :=
  fun _ hc => List.eq_of_mem_replicate hc ▸ rfl

theorem isQuote_gap (position : Position) : ∀ c ∈ position.gap, isQuote c = false := by
  rw [Position.gap]
  split
  · exact nofun
  · exact fun _ hc => List.mem_singleton.mp hc ▸ rfl

namespace Segment

/-- What follows the exclamation mark of a key between quotes. -/
def keyTag? : Segment → Option (List Char)
  | .quoted true ('!' :: text) => some text
  | _ => none

theorem keyTag?_eq_some {g : Segment} {text : List Char} (h : keyTag? g = some text) :
    g = .quoted true ('!' :: text) := by
  unfold keyTag? at h
  split at h
  · rw [Option.some.inj h]
  · cases h

/-- Behind a key between quotes that begins with an exclamation mark, no quote comes on the line. -/
def KeysAlone (gs : List Segment) : Prop :=
  ∀ before text after, gs = before ++ .quoted true ('!' :: text) :: after →
    ∀ c ∈ (render after).takeWhile (· != '\n'), isQuote c = false

instance (gs : List Segment) : Decidable (KeysAlone gs) :=
  decidable_of_iff ((gs.tails.all fun hs => (hs.head?.bind keyTag?).all fun _ =>
      ((render hs.tail).takeWhile (· != '\n')).all (!isQuote ·)) = true) <| by
    simp only [List.all_eq_true, Option.all_eq_true, Bool.not_eq_true', List.mem_tails]
    refine ⟨fun h before text after heq => ?_, fun h hs ⟨before, heq⟩ text htext => ?_⟩
    · exact h (.quoted true ('!' :: text) :: after) ⟨before, heq.symm⟩ text rfl
    · obtain ⟨g, hg, htag⟩ := Option.bind_eq_some_iff.mp htext
      obtain ⟨after, rfl⟩ := List.head?_eq_some_iff.mp hg
      exact h before text after (by rw [← heq, keyTag?_eq_some htag])

theorem KeysAlone.right {gs hs : List Segment} (h : KeysAlone (gs ++ hs)) : KeysAlone hs := by
  intro before text after heq
  exact h (gs ++ before) text after (by rw [heq, List.append_assoc])

/-- The rule frees segments of the quotes around texts that begin with an exclamation mark, whatever
stands behind them. -/
def Freed (gs : List Segment) : Prop :=
  ∀ rest, KeysAlone (gs ++ rest) →
    unquote (render gs ++ render rest) = bare gs ++ unquote (render rest)

theorem freed_nil : Freed [] := fun _ _ => rfl

theorem Freed.append {gs hs : List Segment} (hg : Freed gs) (hh : Freed hs) : Freed (gs ++ hs) := by
  intro rest h
  rw [List.append_assoc] at h
  have hfirst := hg (hs ++ rest) h
  rw [render_append] at hfirst
  rw [render_append, List.append_assoc, hfirst, hh rest h.right, bare_append, List.append_assoc]

/-- A calm text that does not end in a quote is left. -/
theorem freed_plain {cs : List Char} (h : calm cs = true)
    (hlast : ∀ c ∈ cs.getLast?, isQuote c = false) : Freed [.plain cs] := by
  intro rest _
  simp only [render_cons, render_nil, chars_plain, bare_cons, bare_nil, bareChars_plain,
    List.append_nil]
  exact unquote_append h fun c hc hq => absurd ((hlast c hc).symm.trans hq) Bool.false_ne_true

/-- A text without quotes is left. -/
theorem freed_of_forall {cs : List Char} (h : ∀ c ∈ cs, isQuote c = false) : Freed [.plain cs] :=
  freed_plain (calm_of_forall h) fun c hc => h c (List.mem_of_getLast? hc)

theorem freed_char {c : Char} (hc : isQuote c = false) : Freed [.plain [c]] :=
  freed_of_forall fun _ hmem => List.mem_singleton.mp hmem ▸ hc

theorem freed_padded (indent : Nat) : ∀ (onLine : Bool) {members : List (List Segment)},
    (∀ x ∈ members, Freed x) → Freed (padded indent onLine members)
  | _, [], _ => freed_nil
  | onLine, x :: rest, h => by
    rw [List.forall_mem_cons] at h
    have hpad : Freed [.plain (if onLine then [] else pad indent)] := by
      split
      · exact freed_of_forall nofun
      · exact freed_of_forall (isQuote_pad indent)
    exact hpad.append (h.1.append (freed_padded indent false h.2))

/-- Nothing comes behind a text at the end of a line. -/
theorem freed_line {p : List Char} {g : Segment} (hp : calm p = true) (hg : g.Calm) :
    Freed (join p g ++ [.plain ['\n']]) := by
  intro rest _
  have hjoin := unquote_join hp hg (u := '\n' :: render rest) (by simp) fun _ => rfl
  rw [unquote_lineFeed] at hjoin
  simpa using hjoin

/-- Behind a key comes its colon. -/
theorem freed_key {p : List Char} {g : Segment} (hp : calm p = true) (hg : g.Calm)
    (hkey : g.marked = true → ∃ text, g = .quoted true ('!' :: text)) :
    Freed (join p g ++ [.plain [':']]) := by
  intro rest h
  have hcolon : unquote (':' :: render rest) = ':' :: unquote (render rest) :=
    unquote_of_closing? rfl
  have hjoin := unquote_join hp hg (u := ':' :: render rest) (by simp) fun hm => by
    obtain ⟨before, hbefore⟩ := exists_join hm p
    obtain ⟨text, htext⟩ := hkey hm
    refine lastQuote?_eq_none_iff.mpr (h before text (.plain [':'] :: rest) ?_)
    rw [hbefore, htext]
    simp
  rw [hcolon] at hjoin
  simpa using hjoin

end Segment

/-! ### Scalars and keys -/

/-- Neither the text nor the labels of a node hold a quote before an exclamation mark. -/
structure Face.Calm (f : Face) : Prop where
  text : calm f.text.toList = true
  anchor : ∀ a ∈ f.anchor, calm a.toList = true
  tag : calm f.tag.toList = true

instance (f : Face) : Decidable f.Calm :=
  decidable_of_iff (calm f.text.toList = true ∧ f.anchor.all (calm ·.toList) = true ∧
      calm f.tag.toList = true) <| by
    rw [Option.all_eq_true]
    exact ⟨fun ⟨text, anchor, tag⟩ => ⟨text, anchor, tag⟩, fun h => ⟨h.text, h.anchor, h.tag⟩⟩

theorem calm_lines : ∀ {lines : List (List Char)} {line : List Char},
    calm (line ++ lines.flatMap ('\n' :: ·)) = true → ∀ l ∈ line :: lines, calm l = true
  | [], line, h, l, hl => by
    obtain rfl := List.mem_singleton.mp hl
    simpa using h
  | next :: lines, line, h, l, hl => by
    obtain ⟨hline, hrest⟩ := calm_of_append h
    rcases List.mem_cons.mp hl with rfl | hl
    · exact hline
    · rw [List.flatMap_cons, List.cons_append, calm_cons] at hrest
      exact calm_lines hrest.2 l hl

/-- The lines of a calm text are calm in a literal block. -/
theorem calm_blockLines (indent : Nat) {body : List Char} (h : calm body = true) :
    calm (blockLines indent body) = true := by
  obtain ⟨line, lines, hs, hjoin⟩ := splitLines_join body
  have hlines : ∀ l ∈ splitLines body, calm l = true := by
    rw [hs]
    exact calm_lines (hjoin ▸ h)
  rw [blockLines]
  generalize splitLines body = ls at hlines
  induction ls with
  | nil => rfl
  | cons l ls ih =>
    rw [List.forall_mem_cons] at hlines
    rw [List.flatMap_cons, List.append_assoc]
    refine calm_append_cons ?_ rfl (by decide) (ih hlines.2)
    split
    · rfl
    · exact calm_append_of_forall (isQuote_pad indent) hlines.1

theorem getLast?_blockLines (indent : Nat) (body : List Char) :
    (blockLines indent body).getLast? = some '\n' := by
  obtain ⟨line, lines, hs, -⟩ := splitLines_join body
  have hne : splitLines body ≠ [] := hs ▸ List.cons_ne_nil line lines
  rw [blockLines, ← List.dropLast_append_getLast hne, List.flatMap_append, List.flatMap_singleton,
    ← List.append_assoc, List.getLast?_concat]

namespace Face

variable {f : Face}

theorem Calm.properties (h : f.Calm) : calm f.node.properties = true := by
  have hanchor (a : String) (ha : f.node.anchor = some a) : calm ('&' :: a.toList) = true :=
    calm_cons_of_not rfl (h.anchor a ha)
  have htag : calm f.node.tag.toList = true := h.tag
  rw [Node.properties]
  cases ha : f.node.anchor with
  | none =>
    by_cases ht : (f.node.hasOwnTag && f.node.kind != .alias) = true
    · rw [if_pos ht]
      exact htag
    · rw [if_neg ht]
      rfl
  | some a =>
    by_cases ht : (f.node.hasOwnTag && f.node.kind != .alias) = true
    · rw [if_pos ht]
      exact calm_append_cons (hanchor a ha) rfl (by decide) htag
    · rw [if_neg ht]
      exact hanchor a ha

theorem Calm.literal (h : f.Calm) {header body : List Char}
    (hl : f.node.literalBlock? = some (header, body)) (indent : Nat) (position : Position) :
    Segment.Freed [.plain (f.written indent position)] := by
  obtain ⟨chomp, hheader, hleaves⟩ := leaves_of_literalBlock hl
  have htext : calm f.node.value.toList = true := h.text
  have hcalm : calm body = true := by
    rcases hleaves.eq_or_eq with hb | hb
    · exact hb ▸ htext
    · exact (calm_of_append (hb ▸ htext)).1
  have hhead : calm header = true := by
    rw [hheader]
    cases chomp <;> rfl
  have hlines := calm_blockLines (indent + indentStep) hcalm
  rw [written, hl]
  have hline := calm_append_of_forall (isQuote_gap position) (calm_joinProperties h.properties hhead)
  refine Segment.freed_plain (calm_append_cons hline rfl (by decide) hlines) ?_
  intro c hc
  rw [List.getLast?_append, List.getLast?_cons, getLast?_blockLines] at hc
  obtain rfl : '\n' = c := by simpa using hc
  rfl

theorem Calm.textSegment (h : f.Calm) : f.textSegment.Calm := by
  rw [Face.textSegment]
  split
  · exact h.text
  · exact Segment.calm_ofString h.text

theorem Calm.keySegment (h : f.Calm) : f.keySegment.Calm := by
  rw [Face.keySegment]
  split
  · exact h.text
  · exact Segment.calm_ofString h.text

theorem exists_keySegment (h : f.keySegment.marked = true) :
    ∃ text, f.keySegment = .quoted true ('!' :: text) := by
  rw [keySegment] at h ⊢
  split at h
  · cases h
  · rename_i hplain
    rw [if_neg hplain]
    exact Segment.exists_ofString h

/-- What is written of a calm scalar is freed. -/
theorem Calm.freed (h : f.Calm) (indent : Nat) (position : Position) :
    Segment.Freed (f.segments indent position) := by
  rw [segments]
  cases hl : f.node.literalBlock? with
  | some block => exact h.literal hl indent position
  | none =>
    have hline := Segment.freed_line h.properties h.textSegment
    simp only [Option.isSome_none, Bool.false_eq_true, if_false]
    split
    · exact Segment.freed_char rfl
    · exact (Segment.freed_of_forall (isQuote_gap position)).append hline

end Face

/-- Neither the text nor the labels of a key hold a quote before an exclamation mark. -/
def Key.Calm : Key → Prop
  | .scalar f => f.Calm
  | .alias name _ => calm name.toList = true
  | .other text => calm text.toList = true

/-- What is written of a calm key and its colon is freed. -/
theorem Key.Calm.freed {k : Key} (h : k.Calm) : Segment.Freed (k.segments ++ [.plain [':']]) := by
  cases k with
  | scalar f =>
    exact Segment.freed_key (Face.Calm.properties h) (Face.Calm.keySegment h) Face.exists_keySegment
  | «alias» name text =>
    have hname : calm ('*' :: name.toList ++ [' ']) = true :=
      calm_append_cons (calm_cons_of_not rfl h) rfl (by decide) rfl
    refine (Segment.freed_plain hname fun c hc => ?_).append (Segment.freed_char rfl)
    rw [List.getLast?_concat] at hc
    obtain rfl := Option.some.inj hc
    rfl
  | other text => exact Segment.freed_key (p := []) rfl (Segment.calm_ofString h) Segment.exists_ofString

/-! ### Shapes -/

namespace Shape

mutual

/-- No text, anchor, alias or tag of a shape holds a quote before an exclamation mark. -/
def Calm : Shape → Prop
  | .scalar f => f.Calm
  | .alias name => calm name.toList = true
  | .sequence f items => f.Calm ∧ CalmItems items
  | .mapping f entries => f.Calm ∧ CalmEntries entries

def CalmItems : List Shape → Prop
  | [] => True
  | s :: rest => Calm s ∧ CalmItems rest

def CalmEntries : List (Key × Shape) → Prop
  | [] => True
  | (k, s) :: rest => k.Calm ∧ Calm s ∧ CalmEntries rest

end

/-- A calm text on a line of its own. -/
theorem freed_textLine {cs : List Char} (h : calm cs = true) (position : Position) :
    Segment.Freed [.plain (position.gap ++ cs ++ ['\n'])] := by
  have hline := calm_append_of_forall (isQuote_gap position) h
  refine Segment.freed_plain (calm_append_cons hline rfl (by decide) rfl) fun c hc => ?_
  rw [List.getLast?_concat] at hc
  obtain rfl := Option.some.inj hc
  rfl

/-- What is written before the members of a collection. -/
theorem freed_open {p : List Char} (h : calm p = true) (indent : Nat) (position : Position) :
    Segment.Freed [.plain (position.open indent p).2.2] := by
  have hline := freed_textLine h position
  unfold Position.open
  split
  · exact Segment.freed_of_forall nofun
  · exact hline
  · exact Segment.freed_char rfl
  · exact hline
  · exact Segment.freed_char rfl
  · exact hline

mutual

/-- What is written of a calm shape is freed. -/
theorem freed_segments : ∀ {s : Shape}, s.Calm → ∀ (indent : Nat) (position : Position),
    Segment.Freed (s.segments indent position)
  | .scalar _, h, indent, position => Face.Calm.freed h indent position
  | .alias name, h, indent, position => by
    have hname : calm ('*' :: name.toList) = true := calm_cons_of_not rfl h
    exact freed_textLine hname position
  | .sequence f items, h, indent, position => by
    rw [segments]
    split
    · exact freed_textLine (calm_joinProperties h.1.properties rfl) position
    · exact (freed_open h.1.properties indent position).append
        (Segment.freed_padded _ _ (freed_segmentsItems h.2 _))
  | .mapping f entries, h, indent, position => by
    rw [segments]
    split
    · exact freed_textLine (calm_joinProperties h.1.properties rfl) position
    · exact (freed_open h.1.properties indent position).append
        (Segment.freed_padded _ _ (freed_segmentsEntries h.2 _))

theorem freed_segmentsItems : ∀ {items : List Shape}, CalmItems items → ∀ (indent : Nat),
    ∀ x ∈ segmentsItems indent items, Segment.Freed x
  | [], _, _, x, hx => by cases hx
  | s :: rest, h, indent, x, hx => by
    rcases List.mem_cons.mp hx with rfl | hx
    · exact (Segment.freed_char rfl).append (freed_segments h.1 indent .seqItem)
    · exact freed_segmentsItems h.2 indent x hx

theorem freed_segmentsEntries : ∀ {entries : List (Key × Shape)}, CalmEntries entries →
    ∀ (indent : Nat), ∀ x ∈ segmentsEntries indent entries, Segment.Freed x
  | [], _, _, x, hx => by cases hx
  | (k, s) :: rest, h, indent, x, hx => by
    rcases List.mem_cons.mp hx with rfl | hx
    · have hentry := h.1.freed.append (freed_segments h.2.1 indent .mapValue)
      rwa [List.append_assoc] at hentry
    · exact freed_segmentsEntries h.2.2 indent x hx

end

end Shape

end TaggedYaml
