import TaggedYaml.Proofs.Shape.Scanned

/-!
# Said — the events of a written shape

What is written of a legible shape says the events of the shape as it is read back, in whatever manner its
scalars are written (`Shape.events_writtenIn`).  A tree is written in one such manner
(`Shape.Manner.quoted`).
-/

namespace TaggedYaml

open Progress

/-! ### No U+0000 is written -/

theorem nul_not_mem_inline {style : Style} {v u : List Char} (h : Inline style v u) : '\x00' ∉ u := by
  have hnul : isHidden '\x00' = true := by decide
  cases h with
  | plain hv =>
    intro hm
    cases v with
    | nil => simp at hm
    | cons c r =>
      simp only [isPlainText, Bool.and_eq_true, Bool.not_eq_true'] at hv
      have hhid := hv.1.1.1.1.1.1.2
      rw [List.any_eq_false] at hhid
      exact hhid _ hm hnul
  | single hv =>
    intro hm
    simp only [singleQuote, List.mem_cons, List.mem_append, List.mem_flatMap, List.not_mem_nil,
      or_false] at hm
    rcases hm with hm | ⟨c, hc, hm⟩ | hm
    · exact absurd hm (by decide)
    · rw [eq_of_mem_singleChar hm, hv c hc] at hnul
      exact absurd hnul (by simp)
    · exact absurd hm (by decide)
  | double =>
    intro hm
    simp only [doubleQuote, List.mem_cons, List.mem_append, List.mem_flatMap, List.not_mem_nil,
      or_false] at hm
    rcases hm with hm | ⟨c, -, hm⟩ | hm
    · exact absurd hm (by decide)
    · exact absurd (isControl_doubleChar hm) (by decide)
    · exact absurd hm (by decide)

theorem nul_not_mem_pad (n : Nat) : '\x00' ∉ pad n := by
  intro hm
  exact absurd (List.eq_of_mem_replicate hm) (by decide)

theorem nul_not_mem_gap (position : Position) : '\x00' ∉ position.gap := by
  cases position <;> decide

theorem nul_not_mem_rows {k : Nat} {lines : List (List Char)}
    (h : ∀ l ∈ lines, ∀ c ∈ l, isHidden c = false) : '\x00' ∉ rows k lines := by
  intro hm
  obtain ⟨line, hline, hm⟩ := List.mem_flatMap.mp hm
  rcases List.mem_append.mp hm with hm | hm
  · split at hm
    · simp at hm
    · rcases List.mem_append.mp hm with hm | hm
      · exact nul_not_mem_pad k hm
      · exact absurd (h line hline _ hm) (by decide)
  · exact absurd hm (by decide)

theorem nul_not_mem_label {u : List Char} {tok : Token} (h : IsLabel u tok) : '\x00' ∉ u := by
  have htag : isTagChar '\x00' = false := by decide
  cases h with
  | anchor hname =>
    rw [List.mem_cons, not_or]
    exact ⟨by decide, fun hm => (hname.2 _ hm).2 rfl⟩
  | «alias» hname =>
    rw [List.mem_cons, not_or]
    exact ⟨by decide, fun hm => (hname.2 _ hm).2 rfl⟩
  | tag hsuffix =>
    rw [List.mem_cons, not_or]
    exact ⟨by decide, fun hm => isTagChar_ne (hsuffix _ hm).1 htag rfl⟩

theorem nul_not_mem_labels {u : List Char} {us : List Token} (h : Labels u us) : '\x00' ∉ u := by
  induction h with
  | one hl => exact nul_not_mem_label hl
  | more hl _ ih =>
    rw [List.mem_append, List.mem_cons, not_or, not_or]
    exact ⟨nul_not_mem_label hl, by decide, ih⟩

theorem nul_not_mem_prelude {u : List Char} {us : List Token} (h : Prelude u us) : '\x00' ∉ u := by
  cases h with
  | none => simp
  | some hu =>
    rw [List.mem_append, not_or]
    exact ⟨nul_not_mem_labels hu, by decide⟩

theorem nul_not_mem_keyText {u : List Char} {us : List Token} (h : KeyText u us) : '\x00' ∉ u := by
  induction h with
  | scalar hu => exact nul_not_mem_inline hu
  | «alias» hname =>
    rw [List.mem_append, not_or]
    exact ⟨nul_not_mem_label (.alias hname), by decide⟩
  | label hl _ ih =>
    rw [List.mem_append, List.mem_cons, not_or, not_or]
    exact ⟨nul_not_mem_label hl, by decide, ih⟩

namespace Face

variable {f : Face}

theorem nul_not_mem_line (h : f.Legible) (column : Nat) : '\x00' ∉ f.line column := by
  unfold line
  rcases labels_properties h with ⟨h0, -⟩ | hl
  · rw [h0]
    simp
  · split
    · simp
    · simp only [List.mem_append, List.mem_cons, not_or]
      exact ⟨nul_not_mem_labels hl, by decide, nul_not_mem_pad column⟩

theorem nul_not_mem_join (h : f.Legible) {text : List Char} (hne : text ≠ [])
    (ht : '\x00' ∉ text) : '\x00' ∉ joinProperties f.node.properties text := by
  obtain ⟨u, hu, hjoin⟩ := exists_prelude h
  rw [hjoin _ hne, List.mem_append, not_or]
  exact ⟨nul_not_mem_prelude hu, ht⟩

end Face

theorem nul_not_mem_padded (indent : Nat) : ∀ (onLine : Bool) {texts : List (List Char)},
    (∀ x ∈ texts, '\x00' ∉ x) → '\x00' ∉ padded indent onLine texts
  | _, [], _ => by simp [padded]
  | onLine, x :: rest, h => by
    simp only [padded, List.mem_append, not_or]
    refine ⟨?_, h x (List.mem_cons_self ..),
      nul_not_mem_padded indent false fun y hy => h y (List.mem_cons_of_mem _ hy)⟩
    cases onLine with
    | true => simp
    | false => exact nul_not_mem_pad indent

namespace Shape

theorem nul_not_mem_lead (indent : Nat) (position : Position) (s : Shape) :
    '\x00' ∉ s.lead indent position := by
  unfold lead
  split
  · cases position with
    | top => simp [Position.lead]
    | mapValue =>
      simp only [Position.lead, List.mem_cons, not_or]
      exact ⟨by decide, nul_not_mem_pad _⟩
    | seqItem => simp [Position.lead]
  · exact nul_not_mem_gap position

variable {manner : Manner}

theorem nul_not_mem_scalar {f : Face} (h : f.Legible) (indent : Nat) (position : Position) :
    '\x00' ∉ manner.written f indent position := by
  have htold := manner.told h indent position
  generalize manner.written f indent position = text at htold
  cases htold with
  | empty _ => decide
  | spoken _ hspoken =>
    rw [List.mem_append, not_or]
    exact ⟨nul_not_mem_gap position, hspoken.nul⟩

mutual

theorem nul_not_mem_writtenIn : ∀ {s : Shape} {known : List Anchor}, s.Legible known →
    ∀ (indent : Nat) (position : Position), '\x00' ∉ s.writtenIn manner.written indent position
  | .scalar _, _, h, indent, position => nul_not_mem_scalar h indent position
  | .alias _, _, h, _, position => by
    simp only [writtenIn, List.mem_append, List.mem_cons, not_or]
    exact ⟨⟨nul_not_mem_gap position, by decide, fun hm => (h.1.2 _ hm).2 rfl⟩, by decide, by simp⟩
  | .sequence f items, _, h, indent, position => by
    rw [writtenIn_sequence, List.mem_append, not_or]
    refine ⟨nul_not_mem_lead _ _ _, ?_⟩
    split
    · rw [List.mem_append, not_or]
      exact ⟨Face.nul_not_mem_join h.1 (by simp) (by decide), by decide⟩
    · rw [List.mem_append, not_or]
      exact ⟨Face.nul_not_mem_line h.1 _, nul_not_mem_padded _ _ (nul_not_mem_items h.2 _)⟩
  | .mapping f entries, _, h, indent, position => by
    rw [writtenIn_mapping, List.mem_append, not_or]
    refine ⟨nul_not_mem_lead _ _ _, ?_⟩
    split
    · rw [List.mem_append, not_or]
      exact ⟨Face.nul_not_mem_join h.1 (by simp) (by decide), by decide⟩
    · rw [List.mem_append, not_or]
      exact ⟨Face.nul_not_mem_line h.1 _, nul_not_mem_padded _ _ (nul_not_mem_entries h.2 _)⟩

theorem nul_not_mem_items : ∀ {items : List Shape} {known : List Anchor}, LegibleItems known items →
    ∀ (indent : Nat), ∀ x ∈ writtenItemsIn manner.written indent items, '\x00' ∉ x
  | [], _, _, _, _, hx => by simp [writtenItemsIn] at hx
  | s :: rest, _, h, indent, x, hx => by
    rw [writtenItemsIn] at hx
    rcases List.mem_cons.mp hx with rfl | hx
    · rw [List.mem_cons, not_or]
      exact ⟨by decide, nul_not_mem_writtenIn h.1 indent .seqItem⟩
    · exact nul_not_mem_items h.2 indent x hx

theorem nul_not_mem_entries : ∀ {entries : List (Key × Shape)} {known : List Anchor},
    LegibleEntries known entries → ∀ (indent : Nat),
      ∀ x ∈ writtenEntriesIn manner.written indent entries, '\x00' ∉ x
  | [], _, _, _, _, hx => by simp [writtenEntriesIn] at hx
  | (k, s) :: rest, _, h, indent, x, hx => by
    obtain ⟨us, hkey, -⟩ := Key.exists_words h.1
    rw [writtenEntriesIn] at hx
    rcases List.mem_cons.mp hx with rfl | hx
    · rw [List.mem_append, List.mem_cons, not_or, not_or]
      exact ⟨nul_not_mem_keyText hkey, by decide, nul_not_mem_writtenIn h.2.1 indent .mapValue⟩
    · exact nul_not_mem_entries h.2.2 indent x hx

end

/-! ### Scalars as a tree is written -/

section Scalars

variable {f : Face} {u v : List Char}

/-- Labels on a line of their own. -/
theorem spoken_labels (htag : IsSpelledTag f.tag) (hu : Labels u f.properties) (hbare : f.IsBare)
    (indent : Nat) : Spoken (.scalar f) indent (u ++ ['\n']) := by
  refine ⟨(begins_labels hu).append _, ?_, ?_⟩
  · rw [List.mem_append, not_or]
    exact ⟨nul_not_mem_labels hu, by decide⟩
  · intro known ws cols column keys m t p hlt _ _ hp
    have hne : f.properties ≠ [] := by
      intro h0
      rw [h0] at hu
      cases hu
    have hp' : Ready p ws cols column keys (u ++ '\n' :: (pad m ++ t)) := by simpa using hp
    exact (reads_labels_line hu hp' hlt).mono fun q hq => .leaf hq (.scalar (.bare htag hbare hne))

/-- A text on one line behind its labels. -/
theorem spoken_inline (htag : IsSpelledTag f.tag) (hu : Prelude u f.properties)
    (hv : Inline f.style f.text.toList v) (indent : Nat) :
    Spoken (.scalar f) indent (u ++ (v ++ ['\n'])) := by
  refine ⟨begins_prelude hu ((begins_inline hv).append _), ?_, ?_⟩
  · simp only [List.mem_append, not_or]
    exact ⟨nul_not_mem_prelude hu, nul_not_mem_inline hv, by decide⟩
  · intro known ws cols column keys m t p hlt _ hm hp
    simp only [List.append_assoc] at hp
    refine (Ready.reads_prelude hu hp hlt).trans ?_
    rintro q ⟨column', keys', hlt', hq⟩
    refine (Ready.reads_inline hv hq hlt' (hm.le.imp_right And.left) hm.solid).mono fun q hq => ?_
    rw [List.append_assoc, String.ofList_toList] at hq
    exact .leaf hq (.scalar (.written htag))

/-- A text in a literal block behind its labels. -/
theorem spoken_literal {chomp : Chomp} {line : List Char} {lines : List (List Char)}
    (htag : IsSpelledTag f.tag) (hu : Prelude u f.properties) (hstyle : f.style = .literal)
    (hchomp : Chomps chomp (line ++ lines.flatMap ('\n' :: ·)) f.text.toList)
    (hshown : ∀ l ∈ line :: lines, ∀ c ∈ l, isHidden c = false) (hhead : ∃ x r, line = x :: r ∧ x ≠ ' ')
    (indent : Nat) : Spoken (.scalar f) indent
      (u ++ '|' :: (chomp.text ++ '\n' :: rows (indent + indentStep) (line :: lines))) := by
  refine ⟨begins_prelude hu ⟨'|', _, rfl, by decide, by decide⟩, ?_, ?_⟩
  · simp only [List.mem_append, List.mem_cons, not_or]
    exact ⟨nul_not_mem_prelude hu, by decide, by cases chomp <;> decide, by decide,
      nul_not_mem_rows hshown⟩
  · intro known ws cols column keys m t p hlt hedge hm hp
    simp only [List.append_assoc] at hp
    refine (Ready.reads_prelude hu hp hlt).trans ?_
    rintro q ⟨column', keys', hlt', hq⟩
    simp only [List.cons_append, List.append_assoc] at hq
    refine (Ready.reads_literal _ hq hchomp
      (fun l hl c hc => isBreak_of_not_isHidden (hshown l hl c hc)) hhead hlt' hedge
      (hm.ends hedge (Nat.lt_of_lt_of_le (by decide : 0 < 4) (Nat.le_add_left ..)))).mono
        fun q hq => ?_
    rw [List.append_assoc, String.ofList_toList, ← hstyle] at hq
    exact .leaf hq (.scalar (.written htag))

/-- What is written of a scalar says it as it is read back. -/
theorem told_written (h : f.Legible) (indent : Nat) (position : Position) :
    Told (.scalar f.reread) indent position (f.written indent position) := by
  have hlies := Face.lies h indent position
  have htag : IsSpelledTag f.reread.tag := Face.isSpelledTag_writtenTag h
  generalize f.written indent position = text at hlies
  cases hlies with
  | empty he => exact .empty (congrArg Shape.scalar he)
  | @bare u hl hbare =>
    refine .spoken (fun he => ?_) (spoken_labels htag hl hbare indent)
    rw [Shape.scalar.inj he] at hl
    cases hl
  | inline hu hv _ =>
    refine .spoken (fun he => ?_) (spoken_inline htag hu hv indent)
    have hf : f.reread = {} := Shape.scalar.inj he
    rw [show f.writtenStyle = .plain from congrArg Face.style hf,
      show f.text = "" from congrArg Face.text hf] at hv
    cases hv with
    | plain hplain => cases hplain
  | literal hu hl hchomp hshown hhead =>
    refine .spoken (fun he => ?_) (spoken_literal htag hu hl hchomp hshown hhead indent)
    have hstyle : f.writtenStyle = .plain := congrArg Face.style (Shape.scalar.inj he)
    rw [hl] at hstyle
    cases hstyle

end Scalars

/-- The manner in which a tree is written. -/
def Manner.quoted : Manner where
  written := Face.written
  reread f := .scalar f.reread
  anchors _ _ := rfl
  buildable _ _ := trivial
  told := told_written

/-! ### Texts -/

/-- What is written of a legible shape that is not read back as an empty scalar says the shape as it is
read back. -/
theorem events_writtenIn (manner : Manner) {s : Shape} (h : s.Legible [])
    (hb : s.rereadIn manner.reread ≠ .empty) :
    ∃ es, (scan (s.writtenIn manner.written 0 .top)).namedEvents = .ok es ∧
      es.map (·.item) = (s.rereadIn manner.reread).events [] := by
  obtain ⟨body, hbody, -⟩ := exists_body h hb 0 .top
  have hlead : s.lead 0 .top = [] := by
    unfold lead
    split
    · rfl
    · rfl
  rw [hlead, List.nil_append] at hbody
  have hbody' : body ++ (pad 0 ++ []) = body := by simp [pad]
  have hready : Ready ⟨[], .ofList body⟩ [] [] 0 true (body ++ (pad 0 ++ [])) := by
    refine Ready.start [] _ hbody'.symm ?_ (fun c hc => by simp at hc)
    rw [← hbody]
    exact nul_not_mem_writtenIn h 0 .top
  have hplaced : Placed s .top 0 [] 0 true :=
    ⟨.inl ⟨rfl, rfl, rfl⟩, by decide, fun _ => ⟨rfl, rfl⟩⟩
  have hfollows : Follows [] 0 [] := ⟨.inr ⟨rfl, rfl⟩, Solid.nil⟩
  obtain ⟨q, hsteps, inner, w, hq, -, hspells⟩ := scans_node manner h hplaced hfollows
    (by rw [hlead, hbody]; rfl) hb hready
  rw [List.append_nil, List.nil_append] at hq
  have htokens := Reads.tokens ⟨q, hsteps, hq⟩
  rw [← List.append_assoc] at htokens
  rw [hbody]
  exact Scan.events_of_spells hspells htokens

/-- What is written of a legible shape that is not bare says the shape as it is read back. -/
theorem events_written {s : Shape} (h : s.Legible []) (hb : ¬ s.Bare) :
    ∃ es, (scan (s.written 0 .top)).namedEvents = .ok es ∧
      es.map (·.item) = s.reread.events [] := by
  have hevents := events_writtenIn .quoted h ((rereadIn_reread s).symm ▸ hb)
  rwa [Manner.quoted, writtenIn_written, rereadIn_reread] at hevents

end Shape

end TaggedYaml
