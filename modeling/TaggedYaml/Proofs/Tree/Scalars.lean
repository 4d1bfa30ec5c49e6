import TaggedYaml.Proofs.Tree.Places

/-!
# Scalars — texts and their types as they are read back

A scalar is a string by its style or by a core tag, or else its text may be read as a number, a truth
value or nothing.  The style in which it is written keeps that apart: a string is written plain only if
its text has no other meaning (`Face.style_of_string`), and a text that is no string and can be plain is
plain (`Face.style_of_plain`).  So is what is read back at its place (`Tree.scalars_write`).
-/

namespace TaggedYaml

/-! ### Styles -/

theorem stringStyle_eq_plain {s : List Char} :
    stringStyle s = .plain ↔ isPlainText s = true ∧ hasOtherMeaning s = false := by
  have hquoted : (if s.any isHidden = true then Style.double else Style.single) ≠ .plain := by
    split
    · decide
    · decide
  by_cases h : (isPlainText s && !hasOtherMeaning s) = true
  · rw [stringStyle, if_pos h]
    simpa using h
  · rw [stringStyle, if_neg h]
    simp only [hquoted, false_iff]
    simpa using h

theorem isPlainText_ne_nil {s : List Char} (h : isPlainText s = true) : s ≠ [] := by
  rintro rfl
  cases h

theorem newline_of_isPlainText {s : List Char} (h : isPlainText s = true) : '\n' ∉ s := by
  intro hs
  have hhidden : s.any isHidden = true := List.any_eq_true.mpr ⟨'\n', hs, by decide⟩
  cases s with
  | nil => cases hs
  | cons c rest => simp [isPlainText, hhidden] at h

namespace Face

variable {f : Face}

/-- A text on one line is no literal block. -/
theorem literalBlock?_eq_none (h : '\n' ∉ f.text.toList) : f.node.literalBlock? = none := by
  have hcontains : f.node.value.toList.contains '\n' = false := by
    show f.text.toList.contains '\n' = false
    simpa using h
  simp only [Node.literalBlock?, hcontains, Bool.not_false, Bool.true_or, if_true]

/-- The style of a scalar as a value or as a key. -/
def styleAt (f : Face) (isKey : Bool) : Style := if isKey then f.keyStyle else f.writtenStyle

/-- A string is written in a style that is not plain, or as a text that has no other meaning. -/
theorem style_of_string (h : f.node.isString = true) (isKey : Bool) :
    f.styleAt isKey ≠ .plain ∨ f.text ≠ "" ∧ hasOtherMeaning f.text.toList = false := by
  have hplain : f.isPlain = false := by
    rw [isPlain, h]
    rfl
  have hstring : stringStyle f.text.toList ≠ .plain ∨
      f.text ≠ "" ∧ hasOtherMeaning f.text.toList = false := by
    by_cases hs : stringStyle f.text.toList = .plain
    · obtain ⟨htext, hmeaning⟩ := stringStyle_eq_plain.mp hs
      exact .inr ⟨fun he => isPlainText_ne_nil htext (by simp [he]), hmeaning⟩
    · exact .inl hs
  cases isKey with
  | true =>
    have hstyle : f.styleAt true = stringStyle f.text.toList := by simp [styleAt, keyStyle, hplain]
    rwa [hstyle]
  | false =>
    by_cases hb : f.node.literalBlock?.isSome = true
    · have hstyle : f.styleAt false = .literal := by simp [styleAt, writtenStyle, hb]
      rw [hstyle]
      exact .inl (by decide)
    · have hstyle : f.styleAt false = stringStyle f.text.toList := by
        simp [styleAt, writtenStyle, hb, hplain]
      rwa [hstyle]

/-- A text that is no string is written plain if it can be; an empty one can, but not as a key. -/
theorem style_of_plain {isKey : Bool} (h : f.node.isString = false)
    (htext : isPlainText f.text.toList = true ∨ f.text = "" ∧ isKey = false) :
    f.styleAt isKey = .plain := by
  have hplain : f.isPlain = true := by
    rcases htext with ht | ⟨he, -⟩
    · simp [isPlain, h, ht]
    · simp [isPlain, h, he]
  cases isKey with
  | true =>
    have ht : isPlainText f.text.toList = true := by simpa using htext
    have hne : f.text.toList.isEmpty = false := by simpa using isPlainText_ne_nil ht
    simp [styleAt, keyStyle, hplain, hne]
  | false =>
    have hline : '\n' ∉ f.text.toList := by
      rcases htext with ht | ⟨he, -⟩
      · exact newline_of_isPlainText ht
      · simp [he]
    simp [styleAt, writtenStyle, hplain, literalBlock?_eq_none hline]

end Face

/-! ### Shapes without names -/

theorem Face.ties_of_unadorned {f : Face} (h : f.Unadorned) : f.ties = [] := by
  rw [Face.ties, h.1]
  rfl

theorem Key.ties_of_unadorned {k : Key} (h : k.Unadorned) : k.ties = [] := by
  cases k with
  | scalar f => exact Face.ties_of_unadorned h.2
  | «alias» name text => exact h.2.elim
  | other text => rfl

namespace Shape

mutual

theorem ties_of_unadorned : ∀ {s : Shape}, s.Unadorned → s.ties = []
  | .scalar _, h => Face.ties_of_unadorned h
  | .alias _, h => h.elim
  | .sequence f items, h => by rw [ties, Face.ties_of_unadorned h.1, tiesItems_of_unadorned h.2]; rfl
  | .mapping f entries, h => by rw [ties, Face.ties_of_unadorned h.1, tiesEntries_of_unadorned h.2]; rfl

theorem tiesItems_of_unadorned : ∀ {items : List Shape}, UnadornedItems items → tiesItems items = []
  | [], _ => rfl
  | _ :: _, h => by rw [tiesItems, ties_of_unadorned h.1, tiesItems_of_unadorned h.2]; rfl

theorem tiesEntries_of_unadorned : ∀ {entries : List (Key × Shape)}, UnadornedEntries entries →
    tiesEntries entries = []
  | [], _ => rfl
  | (_, _) :: _, h => by
    rw [tiesEntries, Key.ties_of_unadorned h.1, ties_of_unadorned h.2.1, tiesEntries_of_unadorned h.2.2]
    rfl

end

end Shape

namespace Tree

variable {t t' : Tree} {maxDepth : Nat} {y : String} {id id' : NodeId} {n : Node}
  {place : List Member}

/-- Whether a place is that of a key. -/
def isKey (place : List Member) : Bool := place.any fun m => m matches .key _

theorem isKey_eq_true : isKey place = true ↔ ∃ i, .key i ∈ place := by
  rw [isKey, List.any_eq_true]
  constructor
  · rintro ⟨m, hm, h⟩
    cases m with
    | key i => exact ⟨i, hm⟩
    | item i => cases h
    | value i => cases h
  · rintro ⟨i, hi⟩
    exact ⟨_, hi, rfl⟩

/-- A scalar is read back as one with its text, in the style in which it was written. -/
theorem Rereads.scalar (h : Rereads t t' place id id') (hn : t.get? id = some n)
    (hk : n.kind = .scalar) : ∃ n', t'.get? id' = some n' ∧ n'.kind = .scalar ∧
      n'.face = n.face.restyled (n.face.styleAt (isKey place)) := by
  cases h with
  | value hp hd hb =>
    rename_i s
    have hplace : isKey place = false := by
      rw [Bool.eq_false_iff, ne_eq, isKey_eq_true, not_exists]
      exact hp
    cases s with
    | scalar f =>
      obtain ⟨m, hm, -, rfl⟩ := hd
      obtain ⟨n', hn', hk', hf⟩ := hb
      obtain rfl := Option.some.inj (hn.symm.trans hm)
      exact ⟨n', hn', hk', by rw [hplace]; exact hf⟩
    | _ => cases hk.symm.trans (kind_of_denotes hd hn)
  | key hp hd hb =>
    rename_i k i
    have hplace : isKey place = true := isKey_eq_true.mpr ⟨i, hp⟩
    cases k with
    | scalar f =>
      obtain ⟨m, hm, -, rfl⟩ := hd
      obtain ⟨n', hn', hk', hf⟩ := hb
      obtain rfl := Option.some.inj (hn.symm.trans hm)
      exact ⟨n', hn', hk', by rw [hplace]; exact hf⟩
    | «alias» name text =>
      obtain ⟨m, r, m', hm, hk', -⟩ := hd
      obtain rfl := Option.some.inj (hn.symm.trans hm)
      cases hk.symm.trans hk'
    | other text =>
      obtain ⟨m, hm, -, hns, -⟩ := hd
      obtain rfl := Option.some.inj (hn.symm.trans hm)
      exact absurd hk hns

/-! ### Trees without names and tags -/

theorem Shown.writes (h : t.Shown id) : t.WritesValue id ∨
    t.WritesKey id ∧ ∃ n, t.get? id = some n ∧ (n.kind = .scalar ∨ n.kind = .alias) := by
  have hcollection {id : NodeId} {n : Node} (hn : t.get? id = some n) (hk : n.kind.isCollection = true)
      (h : t.WritesValue id ∨
        t.WritesKey id ∧ ∃ n, t.get? id = some n ∧ (n.kind = .scalar ∨ n.kind = .alias)) :
      t.WritesValue id := by
    rcases h with h | ⟨-, m, hm, hkey⟩
    · exact h
    · obtain rfl := Option.some.inj (hn.symm.trans hm)
      rcases hkey with hkey | hkey <;> rw [hkey] at hk <;> cases hk
  induction h with
  | value hv => exact .inl (.root hv)
  | item _ hn hk hc ih => exact .inl (.item (hcollection hn (by rw [hk]; rfl) ih) hn hk (by simpa using hc))
  | key _ hn hk hc hm hkey ih =>
    exact .inr ⟨⟨_, _, _, hcollection hn (by rw [hk]; rfl) ih, hn, hk, hc⟩, _, hm, hkey⟩
  | entry _ hn hk hc ih => exact .inl (.value (hcollection hn (by rw [hk]; rfl) ih) hn hk hc)

theorem TagFree.shown (h : t.TagFree) (hs : t.Shown id) (hn : t.get? id = some n) :
    n.kind ≠ .alias ∧ n.anchor = none ∧ n.hasOwnTag = false := by
  rcases hs.writes with hw | ⟨hw, m, hm, hkey⟩
  · exact h.values id n hw hn
  · obtain rfl := Option.some.inj (hn.symm.trans hm)
    obtain ⟨hna, hscalar⟩ := h.keys id n hw hn
    exact ⟨hna, hscalar (hkey.resolve_right hna)⟩

/-- Where there are neither names nor tags, all that is written is legible. -/
theorem TagFree.legible (h : t.TagFree) (hkeys : t.ShortKeys) : t.Legible where
  anchors id n name hs hn ha := by
    rw [(h.shown hs hn).2.1] at ha
    cases ha
  aliases id n hs hn hk := absurd hk (h.shown hs hn).1
  tags id n hs hn _ htag := by
    rw [(h.shown hs hn).2.2] at htag
    cases htag
  keys := hkeys

theorem TagFree.anchorsFirst (h : t.TagFree) (hkeys : t.ShortKeys) : t.AnchorsFirst maxDepth := by
  intro before a name behind hpieces
  cases hv : t.rootValue? with
  | none =>
    rw [writePieces, hv] at hpieces
    simp at hpieces
  | some v =>
    rw [writePieces, hv] at hpieces
    obtain ⟨s, hd, -⟩ := writeValue_eq_ok.mp (Eq.trans (render_valuePieces t maxDepth maxDepth v 0 .top).symm
      (congrArg (Except.map Piece.render) hpieces))
    have hties := ties_value hd hpieces
    rw [Shape.ties_of_unadorned (unadorned_of_denotes h hkeys (.root hv) hd), Piece.ties_append] at hties
    cases (List.append_eq_nil_iff.mp hties).2

/-- What is written of a tree can be read, and every scalar is found in it at its place, with its text.
If it was a string, it is no plain one or its text has no other meaning; if it was none and its text can
be plain, it is plain, whatever the text means.  Only an empty text that is the whole document is left
out.  What else is written must be legible: names are names, tags are written without escapes, keys are
short enough to be found, and anchors come before their aliases. -/
theorem scalars_write (h : t.Legible) (hfirst : t.AnchorsFirst maxDepth)
    (hwrite : t.write maxDepth = .ok y) :
    ∃ t', read maxDepth y = .ok t' ∧
      ∀ place id n, t.WrittenAt place id → t.get? id = some n → n.kind = .scalar →
        ¬ (place = [] ∧ n.value = "" ∧ n.isString = false) →
        ∃ id' n', t'.WrittenAt place id' ∧ t'.get? id' = some n' ∧ n'.kind = .scalar ∧
          n'.value = n.value ∧
          (n.isString = true → n'.style ≠ .plain ∨
            n'.value ≠ "" ∧ hasOtherMeaning n'.value.toList = false) ∧
          (n.isString = false → isPlainText n.value.toList = true ∨
            n.value = "" ∧ isKey place = false → n'.style = .plain) := by
  cases hv : t.rootValue? with
  | none =>
    obtain rfl : "" = y := by
      rw [write, hv] at hwrite
      exact Except.ok.inj hwrite
    refine ⟨.empty, read_nothing maxDepth, ?_⟩
    rintro place id n ⟨v, hv', -⟩
    rw [hv] at hv'
    cases hv'
  | some v =>
    obtain ⟨s, hd, hroom, rfl⟩ := (write_eq_ok hv).mp hwrite
    by_cases hb : s.Bare
    · rw [Shape.written_bare hb]
      refine ⟨.empty, read_line maxDepth, ?_⟩
      rintro place id n ⟨v', hv', hleads⟩ hn - hne
      obtain rfl := Option.some.inj (hv.symm.trans hv')
      obtain ⟨hplace, hface⟩ := hleads.of_bare hd hb hn
      exact absurd ⟨hplace, text_of_bare hface⟩ hne
    · obtain ⟨t', v', ht', hroot, hbears, -⟩ := Shape.exists_read (h.shape hfirst hv hd hroom) hb hroom
      refine ⟨t', ht', ?_⟩
      rintro place id n ⟨w, hw, hleads⟩ hn hk -
      obtain rfl := Option.some.inj (hv.symm.trans hw)
      obtain ⟨id', hleads', hreads⟩ := hleads.rereads hd hbears
      obtain ⟨n', hn', hk', hface⟩ := hreads.scalar hn hk
      have hvalue : n'.value = n.value := congrArg Face.text hface
      have hstyle : n'.style = n.face.styleAt (isKey place) := congrArg Face.style hface
      refine ⟨id', n', ⟨v', hroot, hleads'⟩, hn', hk', hvalue, fun hs => ?_, fun hs htext => ?_⟩
      · rw [hstyle, hvalue]
        exact Face.style_of_string (f := n.face) hs (isKey place)
      · rw [hstyle]
        exact Face.style_of_plain (f := n.face) hs htext

/-- A key that looks like a number, and in a sequence under it a string by its tag and a number. -/
theorem scalars_write_numbers : ∃ t t' : Tree, t.write 128 = .ok "'10':\n    - '10'\n    - 10\n" ∧
    read 128 "'10':\n    - '10'\n    - 10\n" = .ok t' ∧
    (∃ id n, t'.WrittenAt [.key 0] id ∧ t'.get? id = some n ∧ n.value = "10" ∧ n.style ≠ .plain) ∧
    (∃ id n, t'.WrittenAt [.value 0, .item 0] id ∧ t'.get? id = some n ∧ n.value = "10" ∧
      n.style ≠ .plain) ∧
    ∃ id n, t'.WrittenAt [.value 0, .item 1] id ∧ t'.get? id = some n ∧ n.value = "10" ∧
      n.style = .plain := by
  obtain ⟨t, ht⟩ : ∃ t : Tree, t = ⟨#[{ kind := .document, children := #[1] },
      { kind := .mapping, children := #[2, 3] }, { kind := .scalar, value := "10", style := .double },
      { kind := .sequence, children := #[4, 5] }, { kind := .scalar, value := "10", tag := "!!str" },
      { kind := .scalar, value := "10" }], by decide⟩ := ⟨_, rfl⟩
  have hwrite : t.write 128 = .ok "'10':\n    - '10'\n    - 10\n" := by
    subst ht
    decide +kernel
  have hfree : t.TagFree := tagFree_of_nodes (by subst ht; decide)
  have hkeys : t.ShortKeys := shortKeys_of_size (by subst ht; decide +kernel)
  have hfirst : t.WrittenAt [.key 0] 2 ∧ ∃ n, t.get? 2 = some n ∧ n.kind = .scalar ∧
      n.isString = true ∧ n.value = "10" := by
    subst ht
    exact ⟨⟨1, rfl, .key rfl rfl rfl rfl (.inl rfl)⟩, _, rfl, rfl, by decide, rfl⟩
  have hsecond : t.WrittenAt [.value 0, .item 0] 4 ∧ ∃ n, t.get? 4 = some n ∧ n.kind = .scalar ∧
      n.isString = true ∧ n.value = "10" := by
    subst ht
    exact ⟨⟨1, rfl, .value rfl rfl rfl (.item rfl rfl rfl (.here 4))⟩, _, rfl, rfl, by decide, rfl⟩
  have hthird : t.WrittenAt [.value 0, .item 1] 5 ∧ ∃ n, t.get? 5 = some n ∧ n.kind = .scalar ∧
      n.isString = false ∧ n.value = "10" := by
    subst ht
    exact ⟨⟨1, rfl, .value rfl rfl rfl (.item rfl rfl rfl (.here 5))⟩, _, rfl, rfl, by decide, rfl⟩
  clear ht
  obtain ⟨t', hread, hplaces⟩ :=
    scalars_write (hfree.legible hkeys) (hfree.anchorsFirst hkeys) hwrite
  have hmeaning : hasOtherMeaning "10".toList = true := by decide
  have hstring {place : List Member} {id : NodeId} (h : t.WrittenAt place id ∧ ∃ n,
      t.get? id = some n ∧ n.kind = .scalar ∧ n.isString = true ∧ n.value = "10") :
      ∃ id n, t'.WrittenAt place id ∧ t'.get? id = some n ∧ n.value = "10" ∧ n.style ≠ .plain := by
    obtain ⟨hat, n, hn, hk, hs, hv⟩ := h
    obtain ⟨id', n', hat', hn', -, hv', hstyle, -⟩ :=
      hplaces place id n hat hn hk fun hempty => by rw [hs] at hempty; cases hempty.2.2
    refine ⟨id', n', hat', hn', hv'.trans hv, (hstyle hs).resolve_right fun hother => ?_⟩
    rw [hv', hv, hmeaning] at hother
    cases hother.2
  obtain ⟨hat, n, hn, hk, hs, hv⟩ := hthird
  obtain ⟨id', n', hat', hn', -, hv', -, hstyle⟩ :=
    hplaces _ 5 n hat hn hk fun hempty => by cases hempty.1
  have hplain : isPlainText n.value.toList = true := by
    rw [hv]
    decide
  exact ⟨t, t', hwrite, hread, hstring hfirst, hstring hsecond, id', n', hat', hn', hv'.trans hv,
    hstyle hs (.inl hplain)⟩

end Tree

end TaggedYaml
