import TaggedYaml.Proofs.Scan.Ready

/-!
# Label — anchors, aliases and tags before a space

A name or a tag without escapes is one token (`IsLabel`), which a lexer reads up to the space behind it
(`IsLabel.readTokenAt`).  Labels stand before the content of a node on its line, or on a line of their
own (`Ready.reads_prelude`, `Ready.reads_labels`).
-/

namespace TaggedYaml

/-- The name of an anchor. -/
def IsName (name : List Char) : Prop := name ≠ [] ∧ ∀ c ∈ name, isAnchorChar c = true ∧ c ≠ '\x00'

/-- What may stand behind the `!` of a tag without an address or an escape. -/
def IsSuffix (suffix : List Char) : Prop := ∀ c ∈ suffix, isTagChar c = true ∧ c ≠ '%'

-- by name, for characters are finitely many, and there is an instance that tries each of them
instance (suffix : List Char) : Decidable (IsSuffix suffix) :=
  List.decidableBAll (fun c => isTagChar c = true ∧ c ≠ '%') suffix

/-- The token of a tag of one `!`. -/
def suffixToken (suffix : List Char) : Token :=
  if suffix.isEmpty then .tag "" "!" else .tag "!" (String.ofList suffix)

/-- A text that is read as an anchor, an alias or a tag. -/
inductive IsLabel : List Char → Token → Prop where
  | anchor {name : List Char} : IsName name → IsLabel ('&' :: name) (.anchor (String.ofList name))
  | alias {name : List Char} : IsName name → IsLabel ('*' :: name) (.alias (String.ofList name))
  | tag {suffix : List Char} : IsSuffix suffix → IsLabel ('!' :: suffix) (suffixToken suffix)

/-- Labels with a blank between them, and their tokens. -/
inductive Labels : List Char → List Token → Prop where
  | one {u : List Char} {tok : Token} : IsLabel u tok → Labels u [tok]
  | more {u t : List Char} {tok : Token} {us : List Token} : IsLabel u tok → Labels t us →
    Labels (u ++ ' ' :: t) (tok :: us)

/-- What stands before the content of a node: nothing, or labels and a blank. -/
inductive Prelude : List Char → List Token → Prop where
  | none : Prelude [] []
  | some {u : List Char} {us : List Token} : Labels u us → Prelude (u ++ [' ']) us

variable {l : Lexer} {u tail name suffix : List Char} {tok : Token} {us : List Token}

/-- The first character of a label. -/
theorem IsLabel.head (h : IsLabel u tok) : ∃ c r, u = c :: r ∧ isGap c = false ∧ c ≠ '#' ∧
    (c ≠ '%' ∧ c ≠ '-' ∧ c ≠ '.') := by
  cases h with
  | anchor _ => exact ⟨_, _, rfl, by decide, by decide, by decide⟩
  | «alias» _ => exact ⟨_, _, rfl, by decide, by decide, by decide⟩
  | tag _ => exact ⟨_, _, rfl, by decide, by decide, by decide⟩

theorem Labels.head (h : Labels u us) : ∃ c r, u = c :: r ∧ isGap c = false ∧ c ≠ '#' ∧
    (c ≠ '%' ∧ c ≠ '-' ∧ c ≠ '.') := by
  cases h with
  | one hu => exact hu.head
  | more hu _ =>
    obtain ⟨c, r, rfl, hc⟩ := hu.head
    exact ⟨c, _, rfl, hc⟩

theorem isTagChar_ne {c x : Char} (h : isTagChar c = true) (hx : isTagChar x = false) : c ≠ x := by
  rintro rfl
  rw [h] at hx
  exact Bool.noConfusion hx

theorem isTagChar_of_isGap {c : Char} (h : isGap c = true) : isTagChar c = false := by
  simp only [isGap, isBlank, isBreak, Bool.or_eq_true, beq_iff_eq] at h
  rcases h with (rfl | rfl) | rfl | rfl <;> decide

theorem isNameChar_of_isGap {c : Char} (h : isGap c = true) : isNameChar c = false := by
  simp only [isGap, isBlank, isBreak, Bool.or_eq_true, beq_iff_eq] at h
  rcases h with (rfl | rfl) | rfl | rfl <;> decide

/-- A run ends where a space stands. -/
theorem takeWhile_name {p : Char → Bool} (hp : ∀ c ∈ name, p c = true)
    (hgap : ∀ c, isGap c = true → p c = false) (ht : tail.head?.all isGap = true) :
    (name ++ tail).takeWhile p = name := by
  rw [List.takeWhile_append_of_pos hp]
  cases tail with
  | nil => simp
  | cons c r =>
    have hc : isGap c = true := by simpa using ht
    simp [hgap c hc]

/-- A name is read up to the space behind it. -/
theorem readName_isName (token : String → Token) {c : Char} (h : IsName name)
    (ht : tail.head?.all isGap = true) (hr : l.cursor.rest = c :: (name ++ tail)) :
    ∃ d, l.readName token =
        .ok (((l.saveKey.allowKey false).move d).push l.mark (token (String.ofList name))) ∧
      d.rest = tail ∧ d.mark = l.cursor.mark.right (1 + name.length) := by
  have hcur : (l.saveKey.allowKey false).cursor = l.cursor := Lexer.cursor_saveKey l
  have hrun : (l.cursor.passInk 1).run isAnchorChar = name := by
    rw [Cursor.run, Cursor.rest_passInk, hr]
    refine takeWhile_name (fun c hc => (h.2 c hc).1) (fun c hc => ?_) ht
    simp [isAnchorChar, hc]
  have hne : name.isEmpty = false := by simpa using h.1
  refine ⟨(l.cursor.passInk (1 + name.length)).look 1, ?_, ?_, ?_⟩
  · simp only [Lexer.readName, hcur, hrun, hne, Bool.false_eq_true, if_false]
    rw [Lexer.mark, hcur]
    rfl
  · simp [hr, Nat.add_comm 1]
  · rfl

/-- The text of a tag is read up to the space behind it. -/
theorem readTagText_isSuffix (ht : tail.head?.all isGap = true) : ∀ {suffix : List Char},
    IsSuffix suffix → readTagText isTagChar 0 0 (suffix ++ tail) = .ok (suffix, suffix.length)
  | [], _ => by
    cases tail with
    | nil => rfl
    | cons c r =>
      have hc : isTagChar c = false := isTagChar_of_isGap (by simpa using ht)
      rw [List.nil_append, readTagText.eq_def]
      simp [hc]
  | c :: suffix, h => by
    obtain ⟨hc, hne⟩ := h c (List.mem_cons_self ..)
    have hs : IsSuffix suffix := fun x hx => h x (List.mem_cons_of_mem _ hx)
    have ih := readTagText_isSuffix ht hs
    rw [List.cons_append, readTagText.eq_def]
    simp [hc, hne, ih, bind, Except.bind, pure, Except.pure]

/-- What is behind the first character of a tag, and behind a part of its suffix. -/
theorem head?_suffix {x : Char} (h : IsSuffix suffix) (ht : tail.head?.all isGap = true)
    (hx : isTagChar x = false) (hg : isGap x = false) : (suffix ++ tail).head? ≠ some x := by
  cases suffix with
  | nil =>
    intro hc
    rw [List.nil_append] at hc
    rw [hc, Option.all_some, hg] at ht
    exact Bool.noConfusion ht
  | cons c r =>
    intro hc
    obtain rfl : c = x := by simpa using hc
    exact isTagChar_ne (h c (List.mem_cons_self ..)).1 hx rfl

/-- The handle of a tag without an address is a `!` and the letters behind it. -/
theorem tagHandle_isSuffix {c : Cursor} (h : IsSuffix suffix) (ht : tail.head?.all isGap = true)
    (hr : c.rest = '!' :: (suffix ++ tail)) : ∃ name rest d, suffix = name ++ rest ∧
      c.tagHandle false = .ok ('!' :: name, d) ∧ d.rest = rest ++ tail ∧
      d.mark = c.mark.right (1 + name.length) ∧ ∀ x ∈ name, isNameChar x = true := by
  have hrun : (c.passInk 1).run isNameChar = suffix.takeWhile isNameChar := by
    rw [Cursor.run, Cursor.rest_passInk, hr, List.drop_one, List.tail_cons]
    have hsplit : suffix ++ tail =
        suffix.takeWhile isNameChar ++ (suffix.dropWhile isNameChar ++ tail) := by
      rw [← List.append_assoc, List.takeWhile_append_dropWhile]
    rw [hsplit, List.takeWhile_append_of_pos fun x hx => List.mem_takeWhile_imp hx]
    cases hd : suffix.dropWhile isNameChar with
    | nil =>
      cases tail with
      | nil => simp
      | cons x r =>
        have hx : isNameChar x = false := isNameChar_of_isGap (by simpa using ht)
        simp [hx]
    | cons x r =>
      have hx : isNameChar x = false := by
        have := List.head?_dropWhile_not isNameChar suffix
        rw [hd] at this
        simpa using this
      simp [hx]
  set name := suffix.takeWhile isNameChar with hname
  have hrest : (c.passInk (1 + name.length)).rest = suffix.dropWhile isNameChar ++ tail := by
    have hlen : suffix ++ tail = name ++ (suffix.dropWhile isNameChar ++ tail) := by
      rw [← List.append_assoc, hname, List.takeWhile_append_dropWhile]
    rw [Cursor.rest_passInk, hr, Nat.add_comm, List.drop_succ_cons, hlen, List.drop_left]
  have hhead : ((c.passInk (1 + name.length)).look 1).head? ≠ some '!' := by
    rw [Cursor.head?, Cursor.rest_look, hrest]
    exact head?_suffix (fun x hx => h x ((List.dropWhile_sublist _).subset hx)) ht (by decide)
      (by decide)
  refine ⟨name, suffix.dropWhile isNameChar, (c.passInk (1 + name.length)).look 1,
    (List.takeWhile_append_dropWhile ..).symm, ?_, hrest, rfl,
    fun x hx => List.mem_takeWhile_imp hx⟩
  have hbang : c.head? = some '!' := by rw [Cursor.head?, hr]; rfl
  have hno : (((c.passInk (1 + name.length)).look 1).head? == some '!') = false := by
    simpa using hhead
  simp only [Cursor.tagHandle, hbang, hrun, hno, bne_self_eq_false, Bool.false_eq_true, if_false,
    Bool.false_and]

/-- A tag without an address is read up to the space behind it. -/
theorem readTag_isSuffix (h : IsSuffix suffix) (ht : tail.head?.all isGap = true)
    (hr : l.cursor.rest = '!' :: (suffix ++ tail)) :
    ∃ d, l.readTag =
        .ok (((l.saveKey.allowKey false).move d).push l.mark (suffixToken suffix)) ∧
      d.rest = tail ∧ d.mark = l.cursor.mark.right (1 + suffix.length) := by
  have hcur : (l.saveKey.allowKey false).cursor = l.cursor := Lexer.cursor_saveKey l
  obtain ⟨name, rest, d, rfl, hhandle, hdr, hdm, hname⟩ :=
    tagHandle_isSuffix (c := l.cursor.look 2) h ht hr
  have hrest : IsSuffix rest := fun x hx => h x (List.mem_append_right _ hx)
  have hlt : ((l.cursor.look 2).second? == some '<') = false := by
    have := head?_suffix h ht (x := '<') (by decide) (by decide)
    simpa [Cursor.second?, hr] using this
  have hlast : (decide (('!' :: name).length ≥ 2) && ('!' :: name).getLast? == some '!') = false := by
    rcases List.eq_nil_or_concat name with rfl | ⟨as, x, rfl⟩
    · rfl
    · have hx : isNameChar x = true := hname x (by simp)
      have hne : x ≠ '!' := by
        rintro rfl
        exact absurd hx (by decide)
      rw [List.concat_eq_append, ← List.cons_append, List.getLast?_concat]
      simp [hne]
  have htext : d.tagText isTagChar = .ok (rest, (d.passInk rest.length).look 1) := by
    rw [Cursor.tagText, hdr, readTagText_isSuffix ht hrest]
    rfl
  have hshort : (l.cursor.look 2).shorthandTag =
      .ok (suffixToken (name ++ rest), (d.passInk rest.length).look 1) := by
    unfold Cursor.shorthandTag suffixToken
    simp only [hhandle, htext, hlast, bind, Except.bind, Bool.false_eq_true, if_false]
    show (if (name ++ rest).isEmpty = true then _ else _) = _
    by_cases he : (name ++ rest).isEmpty = true
    · rw [if_pos he, if_pos he]
      rfl
    · rw [if_neg he, if_neg he]
      rfl
  have hend : ((d.passInk rest.length).look 1).head?.all isGap = true := by
    rw [Cursor.head?, Cursor.rest_look, Cursor.rest_passInk, hdr, List.drop_left]
    exact ht
  refine ⟨((d.passInk rest.length).look 1).look 1, ?_, ?_, ?_⟩
  · have htag : l.cursor.tag (l.saveKey.allowKey false).inFlow =
        .ok (suffixToken (name ++ rest), ((d.passInk rest.length).look 1).look 1) := by
      unfold Cursor.tag
      simp only [hlt, hshort, bind, Except.bind, Bool.false_eq_true, if_false]
      rw [if_pos]
      · rfl
      · rw [Bool.or_eq_true]
        exact .inl hend
    unfold Lexer.readTag
    simp only [hcur, htag]
    rw [Lexer.mark, hcur]
    rfl
  · show (d.rest.drop rest.length) = tail
    rw [hdr, List.drop_left]
  · show d.mark.right rest.length = _
    rw [hdm, Cursor.mark_look, Mark.right_right, List.length_append, Nat.add_assoc]

/-- A label is read as its token. -/
theorem IsLabel.readTokenAt (h : IsLabel u tok) (ht : tail.head?.all isGap = true)
    (hr : l.cursor.rest = u ++ tail) : ∃ c r d, u = c :: r ∧
      l.readTokenAt c = .ok (((l.saveKey.allowKey false).move d).push l.mark tok) ∧
      d.rest = tail ∧ d.mark = l.cursor.mark.right u.length := by
  cases h with
  | anchor hname =>
    obtain ⟨d, hread, hdr, hdm⟩ := readName_isName .anchor hname ht hr
    exact ⟨_, _, d, rfl, hread, hdr, by rw [hdm, List.length_cons, Nat.add_comm]⟩
  | «alias» hname =>
    obtain ⟨d, hread, hdr, hdm⟩ := readName_isName .alias hname ht hr
    exact ⟨_, _, d, rfl, hread, hdr, by rw [hdm, List.length_cons, Nat.add_comm]⟩
  | tag hsuffix =>
    obtain ⟨d, hread, hdr, hdm⟩ := readTag_isSuffix hsuffix ht hr
    exact ⟨_, _, d, rfl, hread, hdr, by rw [hdm, List.length_cons, Nat.add_comm]⟩

namespace Progress

variable {p : Progress} {ws : List Token} {cols : List Nat} {column : Nat} {keys : Bool}
  {gap t : List Char}

theorem head?_space (hg : IsSpace cols gap) (hne : gap ≠ []) : (gap ++ t).head?.all isGap = true := by
  obtain ⟨x, r, rfl⟩ := List.exists_cons_of_ne_nil hne
  exact (hg x (by simp)).1

/-- A label that begins no key. -/
theorem Ready.reads_label (hu : IsLabel u tok) (h : Ready p ws cols column keys (u ++ (gap ++ t)))
    (hi : edge cols < column) (hg : IsSpace cols gap) (hne : gap ≠ []) :
    Reads p fun q => Ready q (ws ++ [tok]) cols (columnAfter (column + u.length) gap)
      (gap.any isBreak) t := by
  obtain ⟨c, r, rfl, hgap, hhash, hin⟩ := hu.head
  refine h.round (Solid.cons hgap hhash) (fun _ => Inner.cons hin) fun l hl => ?_
  obtain ⟨⟨loose, s, hout, hs, -⟩, -, hrest, hcol, -, -⟩ := hl.of_edge_lt hi
  obtain ⟨c', r', d, hcr, hread, hdr, hdm⟩ := hu.readTokenAt (head?_space hg hne) hrest
  obtain ⟨rfl, rfl⟩ := List.cons.inj hcr
  obtain ⟨s', hsave, -, -, hcalm⟩ := hout.saveKey
  have hout' := ((hsave.allowKey false).move d).push l.mark tok
  refine ⟨_, hread, ⟨⟨loose, s', hout', hcalm hs (by rw [hcol]; exact hi)⟩, ?_, gap, hg, hdr, ?_, ?_⟩,
    ?_⟩
  · -- a label at column 0 stands outside all block collections
    intro hcols
    obtain ⟨x, xs, rfl⟩ := List.exists_cons_of_ne_nil hcols
    have hm : l.mark.column ≠ 0 := by
      rw [Lexer.mark, hcol]
      simp only [edge_cons] at hi
      omega
    exact clear_push_of_column hm tok hcols
  · show columnAfter d.mark.column gap = _
    rw [hdm, ← hcol]
    rfl
  · show (false || (!(l.saveKey).inFlow && _)) = _
    rw [show l.saveKey.inFlow = false from hsave.inFlow]
    simp
  · show d.rest.length ≤ _
    rw [hdr]
    simp

/-- Labels that begin no key. -/
theorem Ready.reads_labels (hu : Labels u us) : ∀ {p : Progress} {ws : List Token} {column : Nat}
    {keys : Bool}, Ready p ws cols column keys (u ++ (gap ++ t)) → edge cols < column →
    IsSpace cols gap → gap ≠ [] →
    Reads p fun q => Ready q (ws ++ us) cols (columnAfter (column + u.length) gap)
      (gap.any isBreak) t := by
  induction hu with
  | one hu =>
    intro p ws column keys h hi hg hne
    exact h.reads_label hu hi hg hne
  | @more u rest tok us hu _ ih =>
    intro p ws column keys h hi hg hne
    have h' : Ready p ws cols column keys (u ++ ([' '] ++ (rest ++ (gap ++ t)))) := by
      simpa using h
    refine (h'.reads_label hu hi (IsSpace.replicate 1) (by simp)).trans fun q hq => ?_
    have hcol : columnAfter (column + u.length) [' '] + rest.length =
        column + (u ++ ' ' :: rest).length := by
      simp only [columnAfter, List.length_append, List.length_cons]
      simp only [show isBreak ' ' = false by decide, Bool.false_eq_true, if_false]
      omega
    have hlt : edge cols < columnAfter (column + u.length) [' '] := by
      show edge cols < (column + u.length + 1 : Nat)
      omega
    have hread := ih hq hlt hg hne
    rw [hcol] at hread
    simpa only [List.append_assoc, List.singleton_append] using hread

/-- What stands before the content of a node. -/
theorem Ready.reads_prelude (hu : Prelude u us) (h : Ready p ws cols column keys (u ++ t))
    (hi : edge cols < column) :
    Reads p fun q => ∃ (column' : Nat) (keys' : Bool), edge cols < column' ∧
      Ready q (ws ++ us) cols column' keys' t := by
  cases hu with
  | none => exact .here ⟨column, keys, hi, by simpa using h⟩
  | @some v _ hv =>
    rw [List.append_assoc] at h
    refine (Ready.reads_labels hv h hi (IsSpace.replicate 1) (by simp)).mono fun q hq => ?_
    refine ⟨_, _, ?_, hq⟩
    show edge cols < (column + v.length + 1 : Nat)
    omega

end Progress

end TaggedYaml
