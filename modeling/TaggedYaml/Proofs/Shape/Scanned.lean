import TaggedYaml.Proofs.Shape.Manner

/-!
# Scanned — the words of a written shape

From the first character of a legible shape a scan comes to the text behind it, and the words on the way
spell the shape as it is read back (`scans_node`), in whatever manner its scalars are written, as long as
this is so for each of them (`Manner`).  Block collections inside may still be open then; their ends are
the first words behind the shape.
-/

namespace TaggedYaml

open Progress

/-! ### Where a shape begins -/

/-- The column of the members of a collection. -/
def Position.inner (p : Position) (indent : Nat) : Nat :=
  match p with
  | .top => 0
  | .mapValue => indent + indentStep
  | .seqItem => indent + 2

/-- What stands between an indicator and the first member of a collection behind it. -/
def Position.lead (p : Position) (indent : Nat) : List Char :=
  match p with
  | .top => []
  | .mapValue => '\n' :: pad (indent + indentStep)
  | .seqItem => [' ']

/-- The labels of a collection on a line of their own, up to the column of the members. -/
def Face.line (f : Face) (column : Nat) : List Char :=
  if f.node.properties.isEmpty then [] else f.node.properties ++ '\n' :: pad column

theorem Position.open_inner (p : Position) (indent : Nat) (properties : List Char) :
    p.open indent properties =
      (p.inner indent, (p.open indent properties).2.1, (p.open indent properties).2.2) := by
  unfold Position.open inner
  cases p <;> cases properties.isEmpty <;> rfl

/-- The members of a collection stand behind its labels, or else behind the indicator. -/
theorem Position.open_members (p : Position) (indent : Nat) (f : Face) (x : List Char)
    (xs : List (List Char)) :
    (p.open indent f.node.properties).2.2 ++
        padded (p.inner indent) (p.open indent f.node.properties).2.1 (x :: xs) =
      (if f.node.properties.isEmpty then p.lead indent else p.gap) ++
        (f.line (p.inner indent) ++ padded (p.inner indent) true (x :: xs)) := by
  unfold Position.open Face.line
  cases f.node.properties.isEmpty <;> cases p <;> simp [padded, lead, inner, gap, pad]

namespace Shape

/-- A collection whose members begin right behind its indicator. -/
def isBlock : Shape → Bool
  | .sequence f items => !items.isEmpty && f.node.properties.isEmpty
  | .mapping f entries => !entries.isEmpty && f.node.properties.isEmpty
  | _ => false

/-- A scalar of which nothing is written. -/
def Bare (s : Shape) : Prop := s.reread = .empty

/-- What stands between an indicator and a shape behind it. -/
def lead (indent : Nat) (position : Position) (s : Shape) : List Char :=
  if s.isBlock then position.lead indent else position.gap

/-- A text that begins a token. -/
def Begins (text : List Char) : Prop := ∃ c r, text = c :: r ∧ isGap c = false ∧ c ≠ '#'

theorem Begins.solid {text : List Char} (h : Begins text) (tail : List Char) :
    Solid (text ++ tail) := by
  obtain ⟨c, r, rfl, hg, hc⟩ := h
  exact Solid.cons hg hc

theorem Begins.append {text : List Char} (h : Begins text) (tail : List Char) :
    Begins (text ++ tail) := by
  obtain ⟨c, r, rfl, hc⟩ := h
  exact ⟨c, r ++ tail, rfl, hc⟩

theorem begins_inline {style : Style} {v u : List Char} (h : Inline style v u) : Begins u := by
  cases h with
  | plain hv =>
    obtain ⟨c, r, rfl, hg, hc⟩ := (plainFrom_of_isPlainText hv).head
    exact ⟨c, r, rfl, hg, hc⟩
  | single hv => exact ⟨'\'', _, rfl, by decide, by decide⟩
  | double => exact ⟨'"', _, rfl, by decide, by decide⟩

theorem begins_labels {u : List Char} {us : List Token} (h : Labels u us) : Begins u := by
  obtain ⟨c, r, rfl, hg, hc, -⟩ := h.head
  exact ⟨c, r, rfl, hg, hc⟩

theorem begins_prelude {u text : List Char} {us : List Token} (h : Prelude u us)
    (ht : Begins text) : Begins (u ++ text) := by
  cases h with
  | none => exact ht
  | some hu => exact ((begins_labels hu).append _).append _

theorem begins_key {k : Key} {known : List Anchor} (h : k.Legible known) (tail : List Char) :
    Begins (k.written ++ ':' :: tail) := by
  obtain ⟨us, hkey, -⟩ := Key.exists_words h
  obtain ⟨c, r, hcr, hsolid, -⟩ := hkey.head tail
  obtain ⟨hg, hc⟩ := hsolid c rfl
  exact ⟨c, r, hcr, hg, hc⟩

theorem begins_line {f : Face} (h : f.Legible) {column : Nat} {text : List Char}
    (ht : Begins text) : Begins (f.line column ++ text) := by
  unfold Face.line
  rcases Face.labels_properties h with ⟨h0, -⟩ | hl
  · rw [h0]
    exact ht
  · split
    · exact ht
    · exact ((begins_labels hl).append _).append _

section Written

variable (w : Face → Nat → Position → List Char)

theorem writtenIn_sequence (f : Face) (items : List Shape) (indent : Nat) (position : Position) :
    (sequence f items).writtenIn w indent position = (sequence f items).lead indent position ++
      if items.isEmpty then joinProperties f.node.properties ['[', ']'] ++ ['\n']
      else f.line (position.inner indent) ++
        padded (position.inner indent) true (writtenItemsIn w (position.inner indent) items) := by
  rw [writtenIn, lead, isBlock]
  cases items with
  | nil => simp
  | cons s rest =>
    have hopen := position.open_members indent f
      ('-' :: s.writtenIn w (position.inner indent) .seqItem)
      (writtenItemsIn w (position.inner indent) rest)
    rw [position.open_inner indent]
    exact hopen

theorem writtenIn_mapping (f : Face) (entries : List (Key × Shape)) (indent : Nat)
    (position : Position) : (mapping f entries).writtenIn w indent position =
      (mapping f entries).lead indent position ++
        if entries.isEmpty then joinProperties f.node.properties ['\x7b', '\x7d'] ++ ['\n']
        else f.line (position.inner indent) ++
          padded (position.inner indent) true
            (writtenEntriesIn w (position.inner indent) entries) := by
  rw [writtenIn, lead, isBlock]
  cases entries with
  | nil => simp
  | cons e rest =>
    obtain ⟨k, s⟩ := e
    have hopen := position.open_members indent f
      (k.written ++ ':' :: s.writtenIn w (position.inner indent) .mapValue)
      (writtenEntriesIn w (position.inner indent) rest)
    rw [position.open_inner indent]
    exact hopen

end Written

theorem written_bare {s : Shape} (hb : s.Bare) (indent : Nat) (position : Position) :
    s.written indent position = ['\n'] := by
  rw [← written_reread, show s.reread = .empty from hb]
  rfl

/-! ### Members -/

theorem padded_last (indent m : Nat) (x t : List Char) :
    padded indent true [x] ++ (pad m ++ t) = x ++ (pad m ++ t) := by
  simp [padded]

theorem padded_more (indent : Nat) (x y : List Char) (xs : List (List Char)) (tail : List Char) :
    padded indent true (x :: y :: xs) ++ tail =
      x ++ (pad indent ++ (padded indent true (y :: xs) ++ tail)) := by
  simp [padded]

/-- The columns behind a member of a collection. -/
theorem colsAt_inner {c : Nat} {inner : List Nat} (cols : List Nat) (h : ∀ x ∈ inner, c < x) :
    colsAt c (inner ++ c :: cols) = c :: cols ∧ closedAt c (inner ++ c :: cols) = inner.length := by
  induction inner with
  | nil => exact colsAt_of_edge_le (by simp)
  | cons x inner ih =>
    have hx : c < x := h x (by simp)
    obtain ⟨h1, h2⟩ := ih fun y hy => h y (List.mem_cons_of_mem _ hy)
    constructor
    · simpa [colsAt, hx] using h1
    · simpa [closedAt, hx] using h2

/-! ### Words -/

/-- Where a shape stands: behind an indicator of the innermost collection, or at the beginning of a
text. -/
structure Placed (s : Shape) (position : Position) (indent : Nat) (cols : List Nat) (column : Nat)
    (keys : Bool) : Prop where
  place : (position = .top ∧ cols = [] ∧ indent = 0) ∨ (position ≠ .top ∧ edge cols = indent)
  lt : edge cols < column
  block : s.isBlock = true → column = position.inner indent ∧ keys = true

variable {s : Shape} {position : Position} {indent : Nat} {known : List Anchor} {ws us : List Token}
  {cols cols' : List Nat} {column c m : Nat} {keys : Bool} {t body : List Char} {p q : Progress}

theorem Placed.edge_lt (h : Placed s position indent cols column keys) :
    edge cols < indent + indentStep := by
  rcases h.place with ⟨-, rfl, rfl⟩ | ⟨-, he⟩
  · exact show (-1 : Int) < 4 by decide
  · rw [he, indentStep]
    omega

/-- Members stand further in than the collections around. -/
theorem Placed.inner_lt (h : Placed s position indent cols column keys) :
    edge cols < position.inner indent := by
  rcases h.place with ⟨rfl, rfl, rfl⟩ | ⟨hne, he⟩
  · decide
  · rw [he]
    cases position with
    | top => exact absurd rfl hne
    | mapValue =>
      simp only [Position.inner, indentStep]
      omega
    | seqItem =>
      simp only [Position.inner]
      omega

/-- What may stand behind a shape: a member of a collection around it, or nothing. -/
structure Follows (cols : List Nat) (m : Nat) (t : List Char) : Prop where
  le : (m : Int) ≤ edge cols ∨ t = [] ∧ m = 0
  solid : Solid t

theorem Follows.ends {k : Nat} (h : Follows cols m t) (hk : edge cols < k) (h0 : 0 < k) :
    EndsBlock k m t := by
  refine ⟨?_, h.solid⟩
  rcases h.le with hm | ⟨-, rfl⟩
  · omega
  · exact h0

theorem Follows.inside (h : Follows cols m t) (hc : edge cols < c) : Follows (c :: cols) m t :=
  ⟨h.le.imp_left fun hm => by simp only [edge_cons]; omega, h.solid⟩

/-- A shape is scanned behind some anchors: the words of it, and the columns of the collections in it
that are still open. -/
def Scans (s : Shape) (known : List Anchor) (ws : List Token) (cols : List Nat) (m : Nat)
    (t : List Char) (q : Progress) : Prop :=
  ∃ inner w, Ready q (ws ++ w) (inner ++ cols) m true t ∧ (∀ c ∈ inner, edge cols < c) ∧
    Spells true known s (w ++ List.replicate inner.length .blockEnd)

/-- Members of a collection at a column are scanned, from the first of them on or from a later one:
`before` are the words in front of them. -/
def ScansMembers (spells : List Token → Prop) (before : List Token) (ws : List Token)
    (cols : List Nat) (c m : Nat) (t : List Char) (q : Progress) : Prop :=
  ∃ inner w u, Ready q (ws ++ w) (inner ++ c :: cols) m true t ∧ (∀ x ∈ inner, c < x) ∧ spells u ∧
    w ++ List.replicate inner.length .blockEnd = before ++ u

theorem Scans.leaf {w : List Token} (h : Ready q (ws ++ w) cols m true t)
    (hs : Spells true known s w) : Scans s known ws cols m t q :=
  ⟨[], w, h, fun c hc => by simp at hc, by simpa using hs⟩

/-- A text from its first character on, wherever it stands: it begins a token, and its words spell a
shape. -/
structure Spoken (s : Shape) (indent : Nat) (body : List Char) : Prop where
  begins : Begins body
  nul : '\x00' ∉ body
  scans : ∀ {known : List Anchor} {ws : List Token} {cols : List Nat} {column : Nat} {keys : Bool}
    {m : Nat} {t : List Char} {p : Progress}, edge cols < column → edge cols < indent + indentStep →
    Follows cols m t → Ready p ws cols column keys (body ++ (pad m ++ t)) →
    Reads p (Scans s known ws cols m t)

/-- A text behind an indicator says a shape: nothing of an empty one, else a text that spells it. -/
inductive Told (s : Shape) (indent : Nat) (position : Position) : List Char → Prop where
  | empty : s = .empty → Told s indent position ['\n']
  | spoken {body : List Char} : s ≠ .empty → Spoken s indent body →
    Told s indent position (position.gap ++ body)

/-- A manner of writing scalars that can be read again, and what is read back of them. -/
structure Manner where
  written : Face → Nat → Position → List Char
  reread : Face → Shape
  anchors : ∀ f known, (reread f).anchors known = nameAnchor known f.anchor
  buildable : ∀ f known, (reread f).Buildable known
  told : ∀ {f : Face}, f.Legible → ∀ indent position,
    Told (reread f) indent position (written f indent position)

variable {manner : Manner}

/-- What is written of a shape stands behind its lead and begins a token. -/
theorem exists_body (h : s.Legible known) (hb : s.rereadIn manner.reread ≠ .empty) (indent : Nat)
    (position : Position) :
    ∃ body, s.writtenIn manner.written indent position = s.lead indent position ++ body ∧
      Begins body := by
  cases s with
  | scalar f =>
    have htold := manner.told h indent position
    rw [writtenIn]
    generalize manner.written f indent position = text at htold
    cases htold with
    | empty he => exact absurd he hb
    | spoken _ hspoken => exact ⟨_, rfl, hspoken.begins⟩
  | «alias» name => exact ⟨_, List.append_assoc .., '*', _, rfl, by decide, by decide⟩
  | sequence f items =>
    refine ⟨_, writtenIn_sequence manner.written f items indent position, ?_⟩
    obtain ⟨u, hu, hjoin⟩ := Face.exists_prelude h.1
    cases items with
    | nil =>
      rw [List.isEmpty_nil, if_pos rfl, hjoin _ (by simp)]
      exact (begins_prelude hu ⟨'[', _, rfl, by decide, by decide⟩).append _
    | cons s rest => exact begins_line h.1 ⟨'-', _, rfl, by decide, by decide⟩
  | mapping f entries =>
    refine ⟨_, writtenIn_mapping manner.written f entries indent position, ?_⟩
    obtain ⟨u, hu, hjoin⟩ := Face.exists_prelude h.1
    cases entries with
    | nil =>
      rw [List.isEmpty_nil, if_pos rfl, hjoin _ (by simp)]
      exact (begins_prelude hu ⟨'\x7b', _, rfl, by decide, by decide⟩).append _
    | cons e rest =>
      obtain ⟨k, s⟩ := e
      refine begins_line h.1 ?_
      have := begins_key h.2.1 (s.writtenIn manner.written (position.inner indent) .mapValue ++
        padded (position.inner indent) false
          (writtenEntriesIn manner.written (position.inner indent) rest))
      simpa [padded, writtenEntriesIn] using this

/-- Of a shape that is read back as an empty scalar nothing is written. -/
theorem writtenIn_of_empty (h : s.Legible known) (hb : s.rereadIn manner.reread = .empty)
    (indent : Nat) (position : Position) :
    s.writtenIn manner.written indent position = ['\n'] := by
  cases s with
  | scalar f =>
    have htold := manner.told h indent position
    rw [writtenIn]
    generalize manner.written f indent position = text at htold
    cases htold with
    | empty _ => rfl
    | spoken hne _ => exact absurd hb hne
  | «alias» name => cases hb
  | sequence f items => cases hb
  | mapping f entries => cases hb

theorem columnAfter_space (n : Nat) : columnAfter n [' '] = n + 1 := rfl

/-- Labels at the end of a line. -/
theorem reads_labels_line {u : List Char} (hu : Labels u us) {n : Nat}
    (hp : Ready p ws cols column keys (u ++ '\n' :: (pad n ++ t))) (hi : edge cols < column) :
    Reads p fun q => Ready q (ws ++ us) cols n true t := by
  have hline : IsSpace cols ('\n' :: pad n) := IsSpace.line n
  have hread := Ready.reads_labels hu hp hi hline (by simp)
  rwa [columnAfter_line, any_isBreak_line] at hread

/-- The labels of a collection before its members. -/
theorem reads_line {f : Face} (h : f.Legible) (hi : edge cols < column)
    (hblock : f.node.properties.isEmpty = true → column = c ∧ keys = true)
    (hp : Ready p ws cols column keys (f.line c ++ t)) :
    Reads p fun q => Ready q (ws ++ f.head.properties) cols c true t := by
  unfold Face.line at hp
  rcases Face.labels_properties h with ⟨h0, h1⟩ | hl
  · obtain ⟨rfl, rfl⟩ := hblock (by rw [h0]; rfl)
    rw [h0] at hp
    rw [h1, List.append_nil]
    exact .here hp
  · obtain ⟨x, r, hx, -⟩ := hl.head
    have hne : f.node.properties.isEmpty = false := by rw [hx]; rfl
    rw [hne, if_neg (by simp), List.append_assoc] at hp
    exact reads_labels_line hl hp hi

/-- An item is scanned, from its `-` on. -/
theorem scans_item (h : s.Legible known)
    (hcols : Lexer.colsWith c (colsAt c cols') = c :: cols) (hm : Follows (c :: cols) m t)
    (hp : Ready p ws cols' c true ('-' :: (s.writtenIn manner.written c .seqItem ++ (pad m ++ t))))
    (hs : ∀ {p ws column keys body}, Placed s .seqItem c (c :: cols) column keys →
      s.writtenIn manner.written c .seqItem = s.lead c .seqItem ++ body →
      s.rereadIn manner.reread ≠ .empty →
      Ready p ws (c :: cols) column keys (body ++ (pad m ++ t)) →
      Reads p (Scans (s.rereadIn manner.reread) known ws (c :: cols) m t)) :
    Reads p (ScansMembers
      (fun u => ∀ (rest : List Shape) (us : List Token),
        SpellsItems (anchors known s) (rereadItemsIn manner.reread rest) us →
        SpellsItems known (rereadItemsIn manner.reread (s :: rest)) (u ++ us))
      (ends c cols' ++ opening c (colsAt c cols') .blockSequenceStart) ws cols c m t) := by
  rw [← anchors_rereadIn manner.anchors]
  by_cases hb : s.rereadIn manner.reread = .empty
  · rw [writtenIn_of_empty h hb] at hp
    have hp' : Ready p ws cols' c true ('-' :: (('\n' :: pad m) ++ t)) := hp
    have hread := hp'.reads_dash (IsSpace.line m) (by simp) hm.solid
    rw [hcols, columnAfter_line] at hread
    refine hread.mono fun q hq => ⟨[], _, [.blockEntry], hq, fun x hx => by simp at hx,
      fun rest us hrest => ?_, by simp⟩
    rw [rereadItemsIn, hb]
    rw [hb, anchors_empty] at hrest
    exact .empty hrest
  · obtain ⟨body, hbody, hbegins⟩ := exists_body h hb c .seqItem
    have hlead : s.lead c .seqItem = [' '] := by
      unfold lead
      split
      · rfl
      · rfl
    rw [hbody, hlead, List.append_assoc] at hp
    have hread := hp.reads_dash (IsSpace.replicate 1) (by simp) (hbegins.solid _)
    rw [hcols] at hread
    refine hread.trans fun q hq => ?_
    have hplaced : Placed s .seqItem c (c :: cols) (columnAfter (c + 1) [' ']) true :=
      ⟨.inr ⟨by decide, rfl⟩, by rw [columnAfter_space, edge_cons]; omega, fun _ => ⟨rfl, rfl⟩⟩
    refine (hs hplaced hbody hb hq).mono ?_
    rintro q ⟨inner, w, hq, hinner, hspells⟩
    rw [List.append_assoc] at hq
    refine ⟨inner, _, .blockEntry :: (w ++ List.replicate inner.length .blockEnd), hq,
      fun x hx => by simpa using hinner x hx, fun rest us hrest => ?_, by simp⟩
    rw [rereadItemsIn, List.cons_append]
    exact .cons hspells hrest

/-- An entry is scanned, from its key on. -/
theorem scans_entry {k : Key} (hk : k.Legible known) (h : s.Legible (keyAnchors known k))
    (hcols : Lexer.colsWith c (colsAt c cols') = c :: cols) (hm : Follows (c :: cols) m t)
    (hp : Ready p ws cols' c true
      (k.written ++ ':' :: (s.writtenIn manner.written c .mapValue ++ (pad m ++ t))))
    (hs : ∀ {p ws column keys body}, Placed s .mapValue c (c :: cols) column keys →
      s.writtenIn manner.written c .mapValue = s.lead c .mapValue ++ body →
      s.rereadIn manner.reread ≠ .empty →
      Ready p ws (c :: cols) column keys (body ++ (pad m ++ t)) →
      Reads p (Scans (s.rereadIn manner.reread) (keyAnchors known k) ws (c :: cols) m t)) :
    Reads p (ScansMembers
      (fun u => ∀ (rest : List (Key × Shape)) (us : List Token),
        SpellsEntries (anchors (keyAnchors known k) s) (rereadEntriesIn manner.reread rest) us →
        SpellsEntries known (rereadEntriesIn manner.reread ((k, s) :: rest)) (u ++ us))
      (ends c cols' ++ opening c (colsAt c cols') .blockMappingStart) ws cols c m t) := by
  obtain ⟨vs, htext, hkey⟩ := Key.exists_words hk
  rw [← anchors_rereadIn manner.anchors]
  rw [← Key.keyAnchors_reread] at hs ⊢
  by_cases hb : s.rereadIn manner.reread = .empty
  · rw [writtenIn_of_empty h hb] at hp
    have hp' : Ready p ws cols' c true (k.written ++ ':' :: (('\n' :: pad m) ++ t)) := hp
    have hread := Ready.reads_key htext hp' hk.1 (IsSpace.line m) (by simp) hm.solid
    rw [hcols, columnAfter_line, any_isBreak_line] at hread
    refine hread.mono fun q hq => ⟨[], _, .key :: (vs ++ [.value]), hq, fun x hx => by simp at hx,
      fun rest us hrest => ?_, by simp⟩
    rw [rereadEntriesIn, hb]
    rw [hb, anchors_empty] at hrest
    simpa using SpellsEntries.empty hkey hrest
  · obtain ⟨body, hbody, hbegins⟩ := exists_body h hb c .mapValue
    have hspace : IsSpace (Lexer.colsWith c (colsAt c cols')) (s.lead c .mapValue) ∧
        s.lead c .mapValue ≠ [] := by
      unfold lead
      split
      · exact ⟨IsSpace.line _, by simp [Position.lead]⟩
      · exact ⟨IsSpace.replicate 1, by simp [Position.gap]⟩
    rw [hbody, List.append_assoc] at hp
    have hread := Ready.reads_key htext hp hk.1 hspace.1 hspace.2 (hbegins.solid _)
    rw [hcols] at hread
    refine hread.trans fun q hq => ?_
    have hplaced : Placed s .mapValue c (c :: cols)
        (columnAfter (c + k.written.length + 1) (s.lead c .mapValue))
        ((s.lead c .mapValue).any isBreak) := by
      refine ⟨.inr ⟨by decide, rfl⟩, ?_, fun hblock => ?_⟩
      · rw [edge_cons]
        unfold lead
        split
        · rw [Position.lead, columnAfter_line, indentStep]
          omega
        · show (c : Int) < (c + k.written.length + 1 + 1 : Nat)
          omega
      · simp only [lead, hblock, if_true, Position.lead, columnAfter_line, any_isBreak_line]
        simp [Position.inner]
    refine (hs hplaced hbody hb hq).mono ?_
    rintro q ⟨inner, w, hq, hinner, hspells⟩
    rw [List.append_assoc] at hq
    refine ⟨inner, _, .key :: (vs ++ .value :: (w ++ List.replicate inner.length .blockEnd)), hq,
      fun x hx => by simpa using hinner x hx, fun rest us hrest => ?_, by simp⟩
    rw [rereadEntriesIn]
    simpa using SpellsEntries.cons hkey hspells hrest

/-- Words of members go on behind those of the first of them. -/
theorem ScansMembers.later (tok : Token) {spells spells' : List Token → Prop}
    {before : List Token} {m' : Nat} {t' : List Char} {first : List Token → Prop}
    (h : ScansMembers first before ws cols c m' t' q)
    (hnext : ∀ (ws : List Token) (cols' : List Nat), Lexer.colsWith c (colsAt c cols') = c :: cols →
      Ready q ws cols' m' true t' →
      Reads q (ScansMembers spells (ends c cols' ++ opening c (colsAt c cols') tok) ws cols c m t))
    (hspells : ∀ u us, first u → spells us → spells' (u ++ us)) :
    Reads q (ScansMembers spells' before ws cols c m t) := by
  obtain ⟨inner, w, u, hq, hinner, hfirst, heq⟩ := h
  obtain ⟨h1, h2⟩ := colsAt_inner cols hinner
  have hwith : Lexer.colsWith c (c :: cols) = c :: cols := by simp [Lexer.colsWith]
  refine (hnext _ (inner ++ c :: cols) (by rw [h1, hwith]) hq).mono ?_
  rintro r ⟨inner', w', u', hr, hinner', hu', heq'⟩
  rw [ends, h1, h2, opening, if_neg (by simp), List.append_nil] at heq'
  rw [List.append_assoc] at hr
  refine ⟨inner', w ++ w', u ++ u', hr, hinner', hspells u u' hfirst hu', ?_⟩
  rw [List.append_assoc, heq', ← List.append_assoc, heq, List.append_assoc]

/-- The members of a collection are scanned behind its labels, and so is the collection. -/
theorem ScansMembers.block {spells : List Token → Prop} {tok : Token} (hc : edge cols < c)
    (h : ScansMembers spells (ends c cols ++ opening c (colsAt c cols) tok) (ws ++ us) cols c m t q)
    (hspells : ∀ u, spells u → Spells true known s (us ++ tok :: (u ++ [.blockEnd]))) :
    Scans s known ws cols m t q := by
  obtain ⟨inner, w, u, hq, hinner, hu, heq⟩ := h
  obtain ⟨h1, h2⟩ := colsAt_of_edge_le (Int.le_of_lt hc)
  rw [ends, h1, h2, opening, if_pos hc] at heq
  refine ⟨inner ++ [c], us ++ w, by simpa using hq, fun x hx => ?_, ?_⟩
  · rcases List.mem_append.mp hx with hx | hx
    · have := hinner x hx
      omega
    · obtain rfl := List.mem_singleton.mp hx
      exact hc
  · rw [List.length_append, List.length_singleton, List.replicate_succ', ← List.append_assoc,
      List.append_assoc us, heq, List.append_assoc]
    exact hspells u hu

theorem colsWith_of_edge_lt (h : edge cols < c) :
    Lexer.colsWith c (colsAt c cols) = c :: cols := by
  rw [(colsAt_of_edge_le (Int.le_of_lt h)).1, Lexer.colsWith, if_pos h]

/-- A scalar is scanned. -/
theorem scans_scalar {f : Face} (h : f.Legible)
    (hplace : Placed (.scalar f) position indent cols column keys) (hm : Follows cols m t)
    (hbody : manner.written f indent position = position.gap ++ body)
    (hb : manner.reread f ≠ .empty) (hp : Ready p ws cols column keys (body ++ (pad m ++ t))) :
    Reads p (Scans (manner.reread f) known ws cols m t) := by
  have htold := manner.told h indent position
  generalize manner.written f indent position = text at htold hbody
  cases htold with
  | empty he => exact absurd he hb
  | spoken _ hspoken =>
    obtain rfl := List.append_cancel_left hbody
    exact hspoken.scans hplace.lt hplace.edge_lt hm hp

/-- An alias is scanned. -/
theorem scans_alias {name : String} (h : (Shape.alias name).Legible known)
    (hplace : Placed (.alias name) position indent cols column keys)
    (hbody : (Shape.alias name).writtenIn manner.written indent position = position.gap ++ body)
    (hp : Ready p ws cols column keys (body ++ (pad m ++ t))) :
    Reads p (Scans (.alias name) known ws cols m t) := by
  rw [writtenIn, List.append_assoc] at hbody
  obtain rfl := List.append_cancel_left hbody
  have hlabel := IsLabel.alias h.1
  rw [String.ofList_toList] at hlabel
  have hp' : Ready p ws cols column keys (('*' :: name.toList) ++ '\n' :: (pad m ++ t)) := by
    simpa using hp
  exact (reads_labels_line (.one hlabel) hp' hplace.lt).mono fun q hq => .leaf hq (.alias h.2)

/-- An empty collection is scanned. -/
theorem scans_empty {f : Face} (h : f.Legible) (mapping : Bool) {s' : Shape}
    (hplace : Placed s position indent cols column keys) (hm : Follows cols m t)
    (hspells : Spells true known s' (f.head.properties ++ [openToken mapping, closeToken mapping]))
    (hp : Ready p ws cols column keys (joinProperties f.node.properties
      [openChar mapping, closeChar mapping] ++ ['\n'] ++ (pad m ++ t))) :
    Reads p (Scans s' known ws cols m t) := by
  obtain ⟨u, hu, hjoin⟩ := Face.exists_prelude h
  rw [hjoin _ (by simp)] at hp
  simp only [List.append_assoc] at hp
  refine (Ready.reads_prelude hu hp hplace.lt).trans ?_
  rintro q ⟨column', keys', hlt, hq⟩
  refine (Ready.reads_empty mapping hq hlt hm.solid).mono fun q hq => ?_
  rw [List.append_assoc] at hq
  exact .leaf hq hspells

mutual

/-- A legible shape is scanned, from its first character on. -/
theorem scans_node (manner : Manner) : ∀ {s : Shape} {known : List Anchor}, s.Legible known →
    ∀ {position : Position} {indent : Nat} {ws : List Token} {cols : List Nat} {column : Nat}
    {keys : Bool} {m : Nat} {t body : List Char} {p : Progress},
    Placed s position indent cols column keys → Follows cols m t →
    s.writtenIn manner.written indent position = s.lead indent position ++ body →
    s.rereadIn manner.reread ≠ .empty → Ready p ws cols column keys (body ++ (pad m ++ t)) →
    Reads p (Scans (s.rereadIn manner.reread) known ws cols m t)
  | .scalar f, known, h, position, indent, ws, cols, column, keys, m, t, body, p, hplace, hm, hbody,
      hb, hp => by
    exact scans_scalar h hplace hm hbody hb hp
  | .alias name, known, h, position, indent, ws, cols, column, keys, m, t, body, p, hplace, hm, hbody,
      hb, hp => by
    exact scans_alias h hplace hbody hp
  | .sequence f items, known, h, position, indent, ws, cols, column, keys, m, t, body, p, hplace, hm,
      hbody, hb, hp => by
    have htag := Face.isSpelledTag_writtenTag h.1
    rw [writtenIn_sequence] at hbody
    obtain rfl := List.append_cancel_left hbody
    by_cases hi : items = []
    · subst hi
      exact scans_empty h.1 false hplace hm (.flowSequence (f := f.head) htag .nil) hp
    · have he : items.isEmpty = false := by simpa using hi
      have hc := hplace.inner_lt
      rw [he, if_neg (by simp), List.append_assoc] at hp
      refine (reads_line h.1 hplace.lt (fun hf => hplace.block ?_) hp).trans fun q hq => ?_
      · rw [isBlock, he, hf]
        rfl
      exact (scans_items manner h.2 hi (colsWith_of_edge_lt hc) hc hm hq).mono fun q hq =>
        hq.block hc fun u hu => .blockSequence (f := f.head) htag hu
  | .mapping f entries, known, h, position, indent, ws, cols, column, keys, m, t, body, p, hplace, hm,
      hbody, hb, hp => by
    have htag := Face.isSpelledTag_writtenTag h.1
    rw [writtenIn_mapping] at hbody
    obtain rfl := List.append_cancel_left hbody
    by_cases hi : entries = []
    · subst hi
      exact scans_empty h.1 true hplace hm (.flowMapping (f := f.head) htag .nil) hp
    · have he : entries.isEmpty = false := by simpa using hi
      have hc := hplace.inner_lt
      rw [he, if_neg (by simp), List.append_assoc] at hp
      refine (reads_line h.1 hplace.lt (fun hf => hplace.block ?_) hp).trans fun q hq => ?_
      · rw [isBlock, he, hf]
        rfl
      exact (scans_entries manner h.2 hi (colsWith_of_edge_lt hc) hc hm hq).mono fun q hq =>
        hq.block hc fun u hu => .blockMapping (f := f.head) htag hu

/-- Items are scanned, from the `-` of the first on. -/
theorem scans_items (manner : Manner) : ∀ {items : List Shape} {known : List Anchor},
    LegibleItems known items → items ≠ [] → ∀ {c : Nat} {ws : List Token} {cols cols' : List Nat}
    {m : Nat} {t : List Char} {p : Progress}, Lexer.colsWith c (colsAt c cols') = c :: cols →
    edge cols < c → Follows cols m t → Ready p ws cols' c true
      (padded c true (writtenItemsIn manner.written c items) ++ (pad m ++ t)) →
    Reads p (ScansMembers (SpellsItems known (rereadItemsIn manner.reread items))
      (ends c cols' ++ opening c (colsAt c cols') .blockSequenceStart) ws cols c m t)
  | [], _, _, hne, _, _, _, _, _, _, _, _, _, _, _ => absurd rfl hne
  | [s], known, h, _, c, ws, cols, cols', m, t, p, hcols, hc, hm, hp => by
    rw [writtenItemsIn, writtenItemsIn, padded_last] at hp
    refine (scans_item h.1 hcols (hm.inside hc) hp fun hpl hbody hb hp =>
      scans_node manner h.1 hpl (hm.inside hc) hbody hb hp).mono ?_
    rintro q ⟨inner, w, u, hq, hinner, hu, heq⟩
    exact ⟨inner, w, u, hq, hinner, by simpa using hu [] [] .nil, heq⟩
  | s :: s' :: rest, known, h, _, c, ws, cols, cols', m, t, p, hcols, hc, hm, hp => by
    rw [writtenItemsIn, writtenItemsIn, padded_more] at hp
    have hfollows : Follows (c :: cols) c
        (padded c true (('-' :: s'.writtenIn manner.written c .seqItem) ::
          writtenItemsIn manner.written c rest) ++ (pad m ++ t)) :=
      ⟨.inl (Int.le_refl _), Solid.cons (by decide) (by decide)⟩
    refine (scans_item h.1 hcols hfollows hp fun hpl hbody hb hp =>
      scans_node manner h.1 hpl hfollows hbody hb hp).trans fun q hq => ?_
    refine hq.later .blockSequenceStart (fun _ _ hcols' hq => ?_) fun u us hu hus => hu _ us hus
    exact scans_items manner h.2 (by simp) hcols' hc hm hq

/-- Entries are scanned, from the key of the first on. -/
theorem scans_entries (manner : Manner) : ∀ {entries : List (Key × Shape)} {known : List Anchor},
    LegibleEntries known entries → entries ≠ [] → ∀ {c : Nat} {ws : List Token}
    {cols cols' : List Nat} {m : Nat} {t : List Char} {p : Progress},
    Lexer.colsWith c (colsAt c cols') = c :: cols → edge cols < c → Follows cols m t →
    Ready p ws cols' c true
      (padded c true (writtenEntriesIn manner.written c entries) ++ (pad m ++ t)) →
    Reads p (ScansMembers (SpellsEntries known (rereadEntriesIn manner.reread entries))
      (ends c cols' ++ opening c (colsAt c cols') .blockMappingStart) ws cols c m t)
  | [], _, _, hne, _, _, _, _, _, _, _, _, _, _, _ => absurd rfl hne
  | [(k, s)], known, h, _, c, ws, cols, cols', m, t, p, hcols, hc, hm, hp => by
    rw [writtenEntriesIn, writtenEntriesIn, padded_last, List.append_assoc] at hp
    refine (scans_entry h.1 h.2.1 hcols (hm.inside hc) hp fun hpl hbody hb hp =>
      scans_node manner h.2.1 hpl (hm.inside hc) hbody hb hp).mono ?_
    rintro q ⟨inner, w, u, hq, hinner, hu, heq⟩
    exact ⟨inner, w, u, hq, hinner, by simpa using hu [] [] .nil, heq⟩
  | (k, s) :: (k', s') :: rest, known, h, _, c, ws, cols, cols', m, t, p, hcols, hc, hm, hp => by
    rw [writtenEntriesIn, writtenEntriesIn, padded_more, List.append_assoc] at hp
    have hfollows : Follows (c :: cols) c (padded c true
        ((k'.written ++ ':' :: s'.writtenIn manner.written c .mapValue) ::
          writtenEntriesIn manner.written c rest) ++ (pad m ++ t)) := by
      refine ⟨.inl (Int.le_refl _), ?_⟩
      have := begins_key h.2.2.1 (s'.writtenIn manner.written c .mapValue ++
        padded c false (writtenEntriesIn manner.written c rest))
      simpa [padded] using this.solid (pad m ++ t)
    refine (scans_entry h.1 h.2.1 hcols hfollows hp fun hpl hbody hb hp =>
      scans_node manner h.2.1 hpl hfollows hbody hb hp).trans fun q hq => ?_
    refine hq.later .blockMappingStart (fun _ _ hcols' hq => ?_) fun u us hu hus => hu _ us hus
    exact scans_entries manner h.2.2 (by simp) hcols' hc hm hq

end

end Shape

end TaggedYaml
