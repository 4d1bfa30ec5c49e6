import TaggedYaml.Proofs.Scan.Key
import TaggedYaml.Proofs.Shape.Events
import TaggedYaml.Proofs.Shape.Written

/-!
# Face — a scalar as it is read back

What is read back of a scalar has the style that was chosen in writing (`Face.reread`), and it is written
in the same way again.  On the page stand the labels of the scalar and its text on one line or in a
literal block (`Face.lies`), or both as a key (`Face.keyText_writtenKey`).
-/

namespace TaggedYaml

/-! ### Styles -/

/-- The style in which a string is written on one line. -/
def stringStyle (s : List Char) : Style :=
  if isPlainText s && !hasOtherMeaning s then .plain
  else if s.any isHidden then .double
  else .single

theorem inline_writeString (s : List Char) : Progress.Inline (stringStyle s) s (writeString s) := by
  unfold stringStyle writeString
  by_cases hp : (isPlainText s && !hasOtherMeaning s) = true
  · rw [if_pos hp, if_pos hp]
    rw [Bool.and_eq_true] at hp
    exact .plain hp.1
  · rw [if_neg hp, if_neg hp]
    by_cases hh : s.any isHidden = true
    · rw [if_pos hh, if_pos hh]
      exact .double
    · rw [if_neg hh, if_neg hh]
      refine .single fun c hc => ?_
      simp only [Bool.not_eq_true, List.any_eq_false] at hh
      exact hh c hc

theorem writeString_ne_nil (s : List Char) : writeString s ≠ [] := by
  unfold writeString
  split
  · rename_i h
    rintro rfl
    simp [isPlainText] at h
  · split
    · simp [doubleQuote]
    · simp [singleQuote]

/-! ### Literal blocks -/

theorem eq_of_replicate_ends {text body : List Char} {n : Nat}
    (h : text ++ List.replicate n '\n' = body) (hb : body.getLast? ≠ some '\n') :
    n = 0 ∧ text = body := by
  cases n with
  | zero => exact ⟨rfl, by simpa using h⟩
  | succ n =>
    refine absurd ?_ hb
    rw [← h, List.replicate_succ', ← List.append_assoc]
    simp

/-- What a text leaves for the lines of a block with a chomping indicator. -/
def Chomp.Leaves : Chomp → List Char → List Char → Prop
  | .strip, v, body => v = body ∧ body.getLast? ≠ some '\n'
  | .clip, v, body => v = body ++ ['\n'] ∧ body.getLast? ≠ some '\n'
  | .keep, v, body => v = body ++ ['\n']

theorem leaves_of_literalBlock {n : Node} {header body : List Char}
    (h : n.literalBlock? = some (header, body)) :
    ∃ chomp : Chomp, header = '|' :: chomp.text ∧ chomp.Leaves n.value.toList body := by
  set s := n.value.toList with hs
  simp only [Node.literalBlock?, ← hs] at h
  split at h
  · exact absurd h nofun
  have hlast (hl : s.getLast? = some '\n') : s = s.dropLast ++ ['\n'] :=
    (List.dropLast_append_getLast? _ hl).symm
  split at h
  · rename_i hsuf
    obtain ⟨rfl, rfl⟩ := Prod.mk.inj (Option.some.inj h)
    rw [List.isSuffixOf_iff_suffix] at hsuf
    have hl : s.getLast? = some '\n' := by
      obtain ⟨r, hr⟩ := hsuf
      rw [← hr]
      simp
    exact ⟨.keep, rfl, hlast hl⟩
  · rename_i hsuf
    split at h
    · rename_i hl
      obtain ⟨rfl, rfl⟩ := Prod.mk.inj (Option.some.inj h)
      have hl : s.getLast? = some '\n' := by simpa using hl
      refine ⟨.clip, rfl, hlast hl, fun hd => hsuf ?_⟩
      rw [List.isSuffixOf_iff_suffix]
      refine ⟨s.dropLast.dropLast, ?_⟩
      have h1 := List.dropLast_append_getLast? _ hd
      rw [hlast hl]
      simp only [List.dropLast_concat]
      rw [← List.singleton_append (l := ['\n']), ← List.append_assoc, h1]
    · rename_i hl
      obtain ⟨rfl, rfl⟩ := Prod.mk.inj (Option.some.inj h)
      exact ⟨.strip, rfl, rfl, by simpa using hl⟩

namespace Chomp.Leaves

variable {chomp : Chomp} {v body : List Char}

theorem eq_or_eq (h : chomp.Leaves v body) : v = body ∨ v = body ++ ['\n'] := by
  cases chomp with
  | strip => exact .inl h.1
  | clip => exact .inr h.1
  | keep => exact .inr h

/-- The chomping indicator makes a text of its lines again. -/
theorem chomps (h : chomp.Leaves v body) : Progress.Chomps chomp body v := by
  intro text k hk
  cases chomp with
  | strip =>
    obtain ⟨rfl, hlast⟩ := h
    obtain ⟨rfl, rfl⟩ := eq_of_replicate_ends hk hlast
    simp [Chomp.tail, LineEnd.tail]
  | clip =>
    obtain ⟨rfl, hlast⟩ := h
    obtain ⟨rfl, rfl⟩ := eq_of_replicate_ends hk hlast
    rfl
  | keep =>
    have htail : Chomp.keep.tail k = List.replicate k '\n' ++ ['\n'] := by
      rw [← List.replicate_succ', Nat.add_comm]
      rfl
    rw [htail, ← List.append_assoc, hk]
    exact (show v = body ++ ['\n'] from h).symm

end Chomp.Leaves

/-- A text in a literal block begins with no space and no break, and its control characters are tabs and
line feeds. -/
theorem shows_of_literalBlock {n : Node} {header body : List Char}
    (h : n.literalBlock? = some (header, body)) :
    (∃ x r, n.value.toList = x :: r ∧ x ≠ ' ' ∧ x ≠ '\n') ∧
      ∀ c ∈ n.value.toList, isHidden c = true → c = '\n' := by
  set s := n.value.toList with hs
  have hno : (!s.contains '\n' || s.head? == some ' ' || s.head? == some '\n' ||
      s.any (fun c => isHidden c && c != '\n')) = false := by
    cases hc : (!s.contains '\n' || s.head? == some ' ' || s.head? == some '\n' ||
      s.any (fun c => isHidden c && c != '\n')) with
    | false => rfl
    | true =>
      simp only [Node.literalBlock?, ← hs, hc, if_true] at h
      exact absurd h nofun
  simp only [Bool.or_eq_false_iff, Bool.not_eq_false', beq_eq_false_iff_ne, List.any_eq_false,
    Bool.and_eq_true, bne_iff_ne, not_and, not_not] at hno
  obtain ⟨⟨⟨hin, hsp⟩, hnl⟩, hhid⟩ := hno
  refine ⟨?_, hhid⟩
  cases hx : s with
  | nil => simp [hx] at hin
  | cons x r =>
    rw [hx] at hsp hnl
    exact ⟨x, r, rfl, by simpa using hsp, by simpa using hnl⟩

/-- The lines of a literal block. -/
theorem lines_of_literalBlock {n : Node} {header body : List Char}
    (h : n.literalBlock? = some (header, body)) :
    ∃ line lines, splitLines body = line :: lines ∧ body = line ++ lines.flatMap ('\n' :: ·) ∧
      (∀ l ∈ line :: lines, ∀ c ∈ l, isHidden c = false) ∧ ∃ x r, line = x :: r ∧ x ≠ ' ' := by
  obtain ⟨chomp, -, hleaves⟩ := leaves_of_literalBlock h
  obtain ⟨⟨x, r, hxr, hsp, hnl⟩, hhid⟩ := shows_of_literalBlock h
  obtain ⟨line, lines, hsplit, hjoin⟩ := splitLines_join body
  have hsub : ∀ c ∈ body, c ∈ n.value.toList := by
    intro c hc
    rcases hleaves.eq_or_eq with hb | hb
    · exact hb ▸ hc
    · exact hb ▸ List.mem_append_left _ hc
  refine ⟨line, lines, hsplit, hjoin, fun l hl c hc => ?_, ?_⟩
  · obtain ⟨h1, h2⟩ := mem_splitLines (hsplit ▸ hl) c hc
    exact Bool.eq_false_iff.mpr fun hb => h2 (hhid c (hsub c h1) hb)
  · obtain ⟨r', hbr⟩ : ∃ r', body = x :: r' := by
      rcases hleaves.eq_or_eq with hb | hb
      · exact ⟨r, hb.symm.trans hxr⟩
      · rw [hxr] at hb
        cases body with
        | nil => exact absurd (List.cons.inj hb).1 hnl
        | cons y r' => exact ⟨r', by rw [(List.cons.inj hb).1]⟩
    cases line with
    | nil =>
      cases lines with
      | nil => simp [hbr] at hjoin
      | cons l lines =>
        rw [hbr] at hjoin
        exact absurd (List.cons.inj hjoin).1 hnl
    | cons y line =>
      rw [hbr] at hjoin
      exact ⟨x, line, by rw [(List.cons.inj hjoin).1], hsp⟩

namespace Face

variable {f : Face}

/-- A text that is written without quotes wherever it stands. -/
def isPlain (f : Face) : Bool :=
  !f.node.isString && (f.text.toList.isEmpty || isPlainText f.text.toList)

theorem inlineText_eq (f : Face) :
    f.node.inlineText = if f.isPlain then f.text.toList else writeString f.text.toList := rfl

/-- The style in which a scalar is written. -/
def writtenStyle (f : Face) : Style :=
  if f.node.literalBlock?.isSome then .literal
  else if f.isPlain then .plain
  else stringStyle f.text.toList

/-- The style in which a key is written. -/
def keyStyle (f : Face) : Style :=
  if f.isPlain && !f.text.toList.isEmpty then .plain else stringStyle f.text.toList

/-- Neither an anchor nor a tag is written with a scalar. -/
def Unadorned (f : Face) : Prop := f.anchor = none ∧ f.node.hasOwnTag = false

/-- The anchor and the tag that are written with a scalar are labels. -/
structure Legible (f : Face) : Prop where
  anchor : ∀ a ∈ f.anchor, IsName a.toList
  tag : f.node.hasOwnTag = true → ∃ suffix, f.tag.toList = '!' :: suffix ∧ IsSuffix suffix

theorem Unadorned.legible (h : f.Unadorned) : f.Legible := by
  refine ⟨fun a ha => ?_, fun ht => ?_⟩
  · rw [h.1] at ha
    exact absurd ha (by simp)
  · rw [h.2] at ht
    exact absurd ht (by simp)

/-- The tag that is written with a scalar. -/
def writtenTag (f : Face) : String := if f.node.hasOwnTag then f.tag else ""

/-- What is read back of the line on which a collection begins. -/
def head (f : Face) : Face := { tag := f.writtenTag, anchor := f.anchor }

/-- What is read back of a scalar that is written in a style. -/
def restyled (f : Face) (style : Style) : Face := { f.head with text := f.text, style }

/-- A text in a style. -/
def plainly (text : String) (style : Style) : Face := { text, style }

theorem unadorned_plainly (text : String) (style : Style) : (plainly text style).Unadorned :=
  ⟨rfl, rfl⟩

/-- What is read back of a scalar. -/
def reread (f : Face) : Face := f.restyled f.writtenStyle

/-- What is read back of a key. -/
def rereadKey (f : Face) : Face := f.restyled f.keyStyle

/-! #### What is read back is written as before -/

/-- The properties of a node are its anchor and the tag that is written. -/
theorem properties_eq (f : Face) : f.node.properties = f.head.node.properties := by
  have ha : f.head.node.anchor = f.node.anchor := rfl
  have ht : (f.head.node.hasOwnTag && f.head.node.kind != .alias) =
      (f.node.hasOwnTag && f.node.kind != .alias) := by
    unfold head writtenTag
    by_cases h : f.node.hasOwnTag = true
    · rw [if_pos h]
      rfl
    · rw [if_neg h, Bool.not_eq_true] at *
      rw [h]
      rfl
  unfold Node.properties
  rw [ha, ht]
  by_cases h : f.node.hasOwnTag = true
  · have htag : f.head.node.tag = f.node.tag := if_pos h
    rw [htag]
  · rw [Bool.not_eq_true] at h
    rw [h]
    rfl

theorem properties_restyled (f : Face) (style : Style) :
    (f.restyled style).node.properties = f.node.properties :=
  (properties_eq f).symm

/-- No tag that is written makes a scalar a string. -/
theorem isPlain_restyled (f : Face) (style : Style) :
    (f.restyled style).isPlain = (plainly f.text style).isPlain := by
  have hstr : (f.writtenTag == "!!str") = false := by
    unfold writtenTag
    by_cases h : f.node.hasOwnTag = true
    · rw [if_pos h, beq_eq_false_iff_ne]
      intro ht
      have hown : f.node.hasOwnTag = (f.tag != "" && !isCoreTag f.tag) := rfl
      rw [hown, ht] at h
      exact absurd h (by decide)
    · rw [if_neg h]
      decide
  have hs : (f.restyled style).node.isString = (plainly f.text style).node.isString := by
    show (style.isQuoted || f.writtenTag == "!!str") = (style.isQuoted || "" == "!!str")
    rw [hstr]
    rfl
  unfold isPlain
  rw [hs]
  rfl

theorem inlineText_restyled (f : Face) (style : Style) :
    (f.restyled style).node.inlineText = (plainly f.text style).node.inlineText := by
  rw [inlineText_eq, inlineText_eq, isPlain_restyled]
  rfl

/-- A text that was written as a string is written as a string again. -/
theorem isPlain_stringStyle (text : String) :
    ((plainly text (stringStyle text.toList)).isPlain = true →
      isPlainText text.toList = true ∧ writeString text.toList = text.toList) := by
  intro h
  unfold isPlain at h
  rw [Bool.and_eq_true] at h
  have hstyle : stringStyle text.toList = .plain := by
    have := h.1
    simp only [Node.isString, node, plainly, Style.isQuoted, Bool.not_eq_true', Bool.or_eq_false_iff]
      at this
    simpa using this.1
  unfold stringStyle at hstyle
  by_cases hp : (isPlainText text.toList && !hasOtherMeaning text.toList) = true
  · refine ⟨(Bool.and_eq_true _ _ ▸ hp).1, ?_⟩
    rw [writeString, if_pos hp]
  · rw [if_neg hp] at hstyle
    split at hstyle <;> exact absurd hstyle (by decide)

theorem inlineText_stringStyle (text : String) :
    (plainly text (stringStyle text.toList)).node.inlineText = writeString text.toList := by
  rw [inlineText_eq]
  split
  · rename_i h
    exact (isPlain_stringStyle text h).2.symm
  · rfl

theorem inlineText_plain {text : String} (h : (text.toList.isEmpty || isPlainText text.toList) = true) :
    (plainly text .plain).node.inlineText = text.toList := by
  have hp : (plainly text .plain).isPlain = true := by
    unfold isPlain
    rw [Bool.and_eq_true]
    exact ⟨rfl, h⟩
  rw [inlineText_eq, if_pos hp]
  rfl

theorem isPlain_text (h : f.isPlain = true) :
    (f.text.toList.isEmpty || isPlainText f.text.toList) = true := (Bool.and_eq_true _ _ ▸ h).2

/-- What was read back is written as before. -/
theorem written_reread (f : Face) (indent : Nat) (position : Position) :
    f.reread.written indent position = f.written indent position := by
  have hl : f.reread.node.literalBlock? = f.node.literalBlock? := rfl
  unfold written
  rw [hl, show f.reread.node.properties = f.node.properties from properties_restyled f _]
  cases hb : f.node.literalBlock? with
  | some block => rfl
  | none =>
    have hi : f.reread.node.inlineText = f.node.inlineText := by
      rw [reread, inlineText_restyled, writtenStyle, hb, inlineText_eq f]
      simp only [Option.isSome_none, Bool.false_eq_true, if_false]
      split
      · rename_i hp
        exact inlineText_plain (isPlain_text hp)
      · exact inlineText_stringStyle f.text
    simp only [hi]

/-- The text of a key behind its labels: as it is, or as a string. -/
def keyText (f : Face) : List Char :=
  if f.isPlain && !f.text.toList.isEmpty then f.text.toList else writeString f.text.toList

theorem writtenKey_eq (f : Face) : f.writtenKey = joinProperties f.node.properties f.keyText := by
  rw [writtenKey, inlineText_eq, keyText]
  by_cases hp : f.isPlain = true
  · by_cases he : f.text.toList.isEmpty = true
    · simp only [hp, he, Bool.not_true, Bool.and_false, Bool.false_eq_true, if_false, if_true]
    · simp only [hp, he, Bool.not_false, Bool.and_true, Bool.false_eq_true, if_false, if_true]
  · simp only [hp, Bool.false_and, Bool.false_eq_true, if_false]
    split
    · rfl
    · rfl

theorem keyText_plainly_stringStyle (text : String) :
    (plainly text (stringStyle text.toList)).keyText = writeString text.toList := by
  unfold keyText
  split
  · rename_i h
    rw [Bool.and_eq_true] at h
    exact (isPlain_stringStyle text h.1).2.symm
  · rfl

theorem writtenKey_stringStyle (text : String) :
    (plainly text (stringStyle text.toList)).writtenKey = writeString text.toList := by
  rw [writtenKey_eq, keyText_plainly_stringStyle]
  rfl

/-- What was read back of a key is written as before. -/
theorem writtenKey_rereadKey (f : Face) : f.rereadKey.writtenKey = f.writtenKey := by
  have htext : f.rereadKey.keyText = (plainly f.text f.keyStyle).keyText := by
    rw [keyText, rereadKey, isPlain_restyled]
    rfl
  have hsame : (plainly f.text f.keyStyle).keyText = f.keyText := by
    rw [keyStyle]
    by_cases h : (f.isPlain && !f.text.toList.isEmpty) = true
    · rw [if_pos h, keyText, keyText, if_pos h, if_pos]
      · rfl
      · rw [Bool.and_eq_true] at h ⊢
        refine ⟨?_, h.2⟩
        rw [isPlain, Bool.and_eq_true]
        exact ⟨rfl, isPlain_text (f := f) h.1⟩
    · rw [if_neg h, keyText_plainly_stringStyle, keyText, if_neg h]
  rw [writtenKey_eq, writtenKey_eq, htext, hsame]
  rw [show f.rereadKey.node.properties = f.node.properties from properties_restyled f _]

/-! #### Labels -/

theorem isSpelledTag_writtenTag (h : f.Legible) : IsSpelledTag f.writtenTag := by
  unfold writtenTag
  by_cases ht : f.node.hasOwnTag = true
  · obtain ⟨suffix, hs, -⟩ := h.tag ht
    rw [if_pos ht]
    exact .inr (by rw [hs]; rfl)
  · rw [if_neg ht]
    exact .inl rfl

/-- The tag that is written is one word or none. -/
theorem label_writtenTag (h : f.Legible) (ht : f.node.hasOwnTag = true) :
    ∃ tok, tagWords f.writtenTag = [tok] ∧ IsLabel f.tag.toList tok := by
  obtain ⟨suffix, hs, hsuffix⟩ := h.tag ht
  have hne : f.tag ≠ "" := by
    intro h0
    rw [h0] at hs
    exact absurd hs (by simp)
  refine ⟨suffixToken suffix, ?_, hs ▸ .tag hsuffix⟩
  rw [writtenTag, if_pos ht, tagWords, if_neg hne, suffixToken]
  by_cases he : suffix = []
  · have h1 : f.tag = "!" := by
      rw [← String.toList_inj, hs, he]
      rfl
    rw [if_pos h1, he]
    rfl
  · have h1 : f.tag ≠ "!" := by
      intro h1
      rw [h1] at hs
      exact he (List.cons.inj hs).2.symm
    have hne' : suffix.isEmpty = false := by simpa using he
    rw [if_neg h1, hs, hne']
    rfl

/-- The anchor and the tag of a node are its labels. -/
theorem labels_properties (h : f.Legible) : (f.node.properties = [] ∧ f.head.properties = []) ∨
    Labels f.node.properties f.head.properties := by
  have hkind : (f.node.kind != .alias) = true := rfl
  have hwords : f.head.properties = f.anchor.toList.map .anchor ++ tagWords f.writtenTag := rfl
  have hanchor : f.node.anchor = f.anchor := rfl
  rw [hwords, Node.properties, hanchor, hkind, Bool.and_true]
  by_cases ht : f.node.hasOwnTag = true
  · obtain ⟨tok, htok, hl⟩ := label_writtenTag h ht
    rw [htok, if_pos ht]
    cases ha : f.anchor with
    | none => exact .inr (.one hl)
    | some a =>
      have hname := IsLabel.anchor (h.anchor a ha)
      rw [String.ofList_toList] at hname
      exact .inr (.more hname (.one hl))
  · have htag : tagWords f.writtenTag = [] := by
      rw [writtenTag, if_neg ht]
      rfl
    rw [htag, if_neg ht]
    cases ha : f.anchor with
    | none => exact .inl ⟨rfl, rfl⟩
    | some a =>
      have hname := IsLabel.anchor (h.anchor a ha)
      rw [String.ofList_toList] at hname
      exact .inr (.one hname)

/-- What stands before the text of a node. -/
theorem exists_prelude (h : f.Legible) : ∃ u, Prelude u f.head.properties ∧
    ∀ text, text ≠ [] → joinProperties f.node.properties text = u ++ text := by
  rcases labels_properties h with ⟨h0, h1⟩ | hl
  · rw [h0, h1]
    exact ⟨[], .none, fun text _ => rfl⟩
  · obtain ⟨c, r, hcr, -⟩ := hl.head
    refine ⟨_, .some hl, fun text ht => ?_⟩
    rw [joinProperties, hcr]
    simp [ht]

theorem inline_keyText (f : Face) : Progress.Inline f.keyStyle f.text.toList f.keyText := by
  rw [keyText, keyStyle]
  split
  · rename_i hp
    rw [Bool.and_eq_true] at hp
    have ht := isPlain_text hp.1
    rw [Bool.or_eq_true] at ht
    refine .plain (ht.resolve_left fun he => ?_)
    rw [he] at hp
    exact absurd hp.2 (by simp)
  · exact inline_writeString _

theorem keyText_ne_nil (f : Face) : f.keyText ≠ [] := by
  unfold keyText
  split
  · rename_i h
    rw [Bool.and_eq_true] at h
    simpa using h.2
  · exact writeString_ne_nil _

/-- A scalar is written as a key of its labels and its text. -/
theorem keyText_writtenKey (h : f.Legible) : Progress.KeyText f.writtenKey
    (f.rereadKey.properties ++ [.scalar f.keyStyle f.text]) := by
  obtain ⟨u, hu, hjoin⟩ := exists_prelude h
  have hscalar := Progress.KeyText.scalar f.inline_keyText
  rw [String.ofList_toList] at hscalar
  rw [writtenKey_eq, hjoin _ f.keyText_ne_nil]
  exact hscalar.prelude hu

/-- What is written of a scalar: nothing, labels, a text on one line, or a literal block. -/
inductive Lies (f : Face) (indent : Nat) (position : Position) : List Char → Prop where
  | empty : f.reread = {} → Lies f indent position ['\n']
  | bare {u : List Char} : Labels u f.reread.properties → f.reread.IsBare →
    Lies f indent position (position.gap ++ (u ++ ['\n']))
  | inline {u v : List Char} : Prelude u f.reread.properties →
    Progress.Inline f.writtenStyle f.text.toList v → v ≠ [] →
    Lies f indent position (position.gap ++ (u ++ (v ++ ['\n'])))
  | literal {u : List Char} {chomp : Chomp} {line : List Char} {lines : List (List Char)} :
    Prelude u f.reread.properties → f.writtenStyle = .literal →
    Progress.Chomps chomp (line ++ lines.flatMap ('\n' :: ·)) f.text.toList →
    (∀ l ∈ line :: lines, ∀ c ∈ l, isHidden c = false) → (∃ x r, line = x :: r ∧ x ≠ ' ') →
    Lies f indent position (position.gap ++
      (u ++ '|' :: (chomp.text ++ '\n' :: rows (indent + indentStep) (line :: lines))))

/-- A scalar on one line. -/
theorem line_join {u v properties : List Char} (position : Position)
    (hjoin : joinProperties properties v = u ++ v) (hv : v ≠ []) :
    position.line (joinProperties properties v) = position.gap ++ (u ++ (v ++ ['\n'])) := by
  rw [hjoin, Position.line, if_neg (by simp [hv])]
  simp

/-- Labels, and nothing behind them. -/
theorem lies_nothing (h : f.Legible) (hr : f.reread = f.head) (indent : Nat) (position : Position) :
    f.Lies indent position (position.line (joinProperties f.node.properties [])) := by
  rcases labels_properties h with ⟨h0, h1⟩ | hl
  · rw [h0]
    refine .empty (hr.trans ?_)
    -- without a word there is neither an anchor nor a tag
    have hanchor : f.anchor = none := by
      cases ha : f.anchor with
      | none => rfl
      | some a =>
        have : f.head.properties = .anchor a :: tagWords f.writtenTag := by
          show f.anchor.toList.map Token.anchor ++ _ = _
          rw [ha]
          rfl
        rw [this] at h1
        exact absurd h1 (by simp)
    have htag : f.node.hasOwnTag = false := by
      cases ht : f.node.hasOwnTag with
      | false => rfl
      | true =>
        obtain ⟨tok, htok, -⟩ := label_writtenTag h ht
        have : f.head.properties = f.anchor.toList.map .anchor ++ [tok] := by rw [← htok]; rfl
        rw [this] at h1
        exact absurd h1 (by simp)
    rw [head, writtenTag, htag, hanchor]
    rfl
  · obtain ⟨c, r, hcr, -⟩ := hl.head
    have heq : position.line (joinProperties f.node.properties []) =
        position.gap ++ (f.node.properties ++ ['\n']) := by
      rw [joinProperties, Position.line, hcr]
      simp
    rw [heq]
    refine .bare ?_ ?_
    · rw [hr]
      exact hl
    · rw [hr]
      exact ⟨rfl, rfl⟩

theorem lies (h : f.Legible) (indent : Nat) (position : Position) :
    f.Lies indent position (f.written indent position) := by
  obtain ⟨u, hu, hjoin⟩ := exists_prelude h
  unfold written
  cases hb : f.node.literalBlock? with
  | some block =>
    obtain ⟨header, body⟩ := block
    obtain ⟨chomp, rfl, hleaves⟩ := leaves_of_literalBlock hb
    obtain ⟨line, lines, hsplit, rfl, hshown, hhead⟩ := lines_of_literalBlock hb
    have heq : position.gap ++ joinProperties f.node.properties ('|' :: chomp.text) ++
        '\n' :: blockLines (indent + indentStep) (line ++ lines.flatMap ('\n' :: ·)) =
        position.gap ++
          (u ++ '|' :: (chomp.text ++ '\n' :: rows (indent + indentStep) (line :: lines))) := by
      rw [blockLines_eq, hsplit, hjoin _ (by simp)]
      simp
    simp only [heq]
    exact .literal hu (by simp [writtenStyle, hb]) hleaves.chomps hshown hhead
  | none =>
    have hstyle : f.writtenStyle = if f.isPlain then .plain else stringStyle f.text.toList := by
      simp [writtenStyle, hb]
    simp only
    rw [inlineText_eq]
    by_cases hp : f.isPlain = true
    · rw [if_pos hp] at hstyle ⊢
      by_cases he : f.text.toList = []
      · rw [he]
        refine lies_nothing h ?_ indent position
        have htext : f.text = "" := by simpa using he
        rw [reread, restyled, hstyle, htext]
        rfl
      · rw [line_join position (hjoin _ he) he]
        refine .inline hu ?_ he
        rw [hstyle]
        have ht := isPlain_text hp
        rw [Bool.or_eq_true] at ht
        exact .plain (ht.resolve_left fun h => he (by simpa using h))
    · rw [if_neg hp] at hstyle ⊢
      rw [line_join position (hjoin _ (writeString_ne_nil _)) (writeString_ne_nil _)]
      exact .inline hu (hstyle ▸ inline_writeString _) (writeString_ne_nil _)

end Face

end TaggedYaml
