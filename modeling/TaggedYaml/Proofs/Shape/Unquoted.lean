import TaggedYaml.Proofs.Shape.Call
import TaggedYaml.Proofs.Shape.Freed

/-!
# Unquoted — a shape without the quotes around its calls

Where the texts of a shape that begin with an exclamation mark are calls, and where none of them is a
key (`Shape.Unquotes`), the shape without these quotes is written in a manner that can be read again
(`Shape.bare_segments`).
-/

namespace TaggedYaml

variable {isExtension : String → Bool}

namespace Face

variable {f : Face} {c : Call}

open Classical in
/-- The call that a scalar without a tag of its own spells out, if there is one. -/
noncomputable def call? (isExtension : String → Bool) (f : Face) : Option Call :=
  if h : f.node.hasOwnTag = false ∧
      ∃ c : Call, c.Legible isExtension ∧ c.text = f.text.toList then some (choose h.2)
  else none

theorem of_call? (h : f.call? isExtension = some c) :
    f.node.hasOwnTag = false ∧ c.Legible isExtension ∧ c.text = f.text.toList := by
  rw [call?] at h
  split at h
  · rename_i hcall
    rw [← Option.some.inj h]
    exact ⟨hcall.1, Classical.choose_spec hcall.2⟩
  · cases h

theorem exists_call? (ht : f.node.hasOwnTag = false) (hc : c.Legible isExtension)
    (htext : c.text = f.text.toList) : ∃ c, f.call? isExtension = some c := by
  refine ⟨_, dif_pos ⟨ht, c, hc, htext⟩⟩

/-- What is written of a scalar without the quotes of a call. -/
noncomputable def bareWritten (isExtension : String → Bool) (f : Face) (indent : Nat)
    (position : Position) : List Char :=
  match f.call? isExtension with
  | some c => position.line (joinProperties f.node.properties c.text)
  | none => f.written indent position

/-- What is read back of a scalar without the quotes of a call. -/
noncomputable def bareReread (isExtension : String → Bool) (f : Face) : Shape :=
  match f.call? isExtension with
  | some c => c.shape f.anchor
  | none => .scalar f.reread

theorem told_bare (h : f.Legible) (indent : Nat) (position : Position) :
    Shape.Told (f.bareReread isExtension) indent position
      (f.bareWritten isExtension indent position) := by
  rw [bareReread, bareWritten]
  cases hc : f.call? isExtension with
  | none => exact Shape.told_written h indent position
  | some c =>
    obtain ⟨ht, hlegible, -⟩ := of_call? hc
    exact Call.told hlegible ht h indent position

theorem height_bareReread_le (f : Face) : (f.bareReread isExtension).height ≤ 1 := by
  rw [bareReread]
  split
  · exact Call.height_shape_le _ _
  · exact Nat.zero_le _

/-- A text that is written between quotes and begins with an exclamation mark is a call. -/
def Unquotes (isExtension : String → Bool) (f : Face) : Prop :=
  f.node.literalBlock? = none → f.textSegment.marked = true → ∃ c, f.call? isExtension = some c

end Face

/-- A tree can be written without the quotes of calls. -/
noncomputable def Shape.Manner.bare (isExtension : String → Bool) : Shape.Manner where
  written := Face.bareWritten isExtension
  reread := Face.bareReread isExtension
  anchors f known := by
    rw [Face.bareReread]
    split
    · exact Call.anchors_shape _ _ _
    · rfl
  buildable f known := by
    rw [Face.bareReread]
    split
    · exact Call.buildable_shape _ _ _
    · trivial
  told := Face.told_bare

/-! ### Calls between quotes -/

namespace Call

variable {c : Call}

theorem exists_text (c : Call) : ∃ r, c.text = '!' :: r := by
  rw [text, joinProperties, if_neg (by simp)]
  split
  · exact ⟨_, rfl⟩
  · exact ⟨_, rfl⟩

/-- A call stands between single quotes as it is. -/
theorem quotedText_text (h : c.Legible isExtension) :
    quotedText c.text = '\'' :: (c.text ++ ['\'']) := by
  have hhidden : ¬ c.text.any isHidden = true := by
    rw [List.any_eq_true]
    rintro ⟨x, hx, hidden⟩
    exact absurd ((h.single x hx).1.symm.trans hidden) (by decide)
  have hsame : ∀ s : List Char, (∀ x ∈ s, x ≠ '\'') → s.flatMap singleChar = s := by
    intro s hs
    induction s with
    | nil => rfl
    | cons x s ih =>
      rw [List.forall_mem_cons] at hs
      rw [List.flatMap_cons, singleChar, if_neg (by simpa using hs.1), ih hs.2]
      rfl
  rw [quotedText, if_neg hhidden, singleQuote, hsame _ fun x hx => (h.single x hx).2]

theorem isPlainText_text (c : Call) : isPlainText c.text = false := by
  obtain ⟨r, hr⟩ := c.exists_text
  have hstop : '!' ∈ plainStops := by decide
  rw [hr]
  simp [isPlainText, hstop]

end Call

namespace Face

variable {f : Face} {c : Call}

theorem literalBlock?_of_call? (h : f.call? isExtension = some c) : f.node.literalBlock? = none := by
  obtain ⟨-, hlegible, htext⟩ := of_call? h
  have hline : f.node.value.toList.contains '\n' = false := by
    rw [List.contains_eq_mem, decide_eq_false_iff_not]
    intro hm
    rw [show f.node.value.toList = c.text from htext.symm] at hm
    exact absurd (hlegible.single '\n' hm).1 (by decide)
  rw [Node.literalBlock?, hline]
  rfl

theorem textSegment_of_call? (h : f.call? isExtension = some c) :
    f.textSegment = .quoted false c.text := by
  obtain ⟨-, -, htext⟩ := of_call? h
  have hplain : f.isPlain = false := by
    obtain ⟨r, hr⟩ := c.exists_text
    rw [isPlain, ← htext, c.isPlainText_text, hr]
    simp
  rw [textSegment, hplain, if_neg Bool.false_ne_true, Segment.ofString, ← htext, c.isPlainText_text]
  rfl

/-- The segments of a scalar without quotes. -/
theorem bare_segments (h : f.Unquotes isExtension) (indent : Nat) (position : Position) :
    Segment.bare (f.segments indent position) = f.bareWritten isExtension indent position := by
  rw [segments, bareWritten]
  cases hc : f.call? isExtension with
  | some c =>
    obtain ⟨r, hr⟩ := c.exists_text
    have hquoted := Call.quotedText_text (of_call? hc).2.1
    have hbare : (Segment.quoted false c.text).bareChars = c.text := by
      rw [Segment.bareChars, hquoted, if_pos (by rw [hr]; rfl), List.tail_cons, List.dropLast_concat]
    have hempty : c.text.isEmpty = false := by
      rw [hr]
      rfl
    have hjoin : Segment.bare (Segment.join f.node.properties (.quoted false c.text)) =
        joinProperties f.node.properties c.text := by
      rw [Segment.join, joinProperties, Segment.chars, hquoted]
      split
      · simp [hbare]
      · simp [hbare, hempty]
    have hne : (Segment.render (Segment.join f.node.properties (.quoted false c.text))).isEmpty =
        false := by
      rw [Segment.render_join, Segment.chars, hquoted, joinProperties]
      split <;> simp
    have hne' : (joinProperties f.node.properties c.text).isEmpty = false := by
      rw [joinProperties, hr]
      split <;> simp
    simp only [literalBlock?_of_call? hc, textSegment_of_call? hc, Option.isSome_none,
      Bool.false_eq_true, if_false, hne, Position.line, hne', Segment.bare_append, Segment.bare_cons,
      Segment.bareChars_plain, hjoin, Segment.bare_nil, List.append_nil]
  | none =>
    have hnone : ∀ g ∈ f.segments indent position, g.marked = false := by
      intro g hg
      rw [segments] at hg
      cases hl : f.node.literalBlock? with
      | some block =>
        rw [hl, Option.isSome_some, if_pos rfl, List.mem_singleton] at hg
        rw [hg]
        rfl
      | none =>
        have hmark : f.textSegment.marked = false := Bool.eq_false_iff.mpr fun hm => by
          obtain ⟨c, hsome⟩ := h hl hm
          cases hc.symm.trans hsome
        rw [hl] at hg
        simp only [Option.isSome_none, Bool.false_eq_true, if_false, List.mem_append,
          List.mem_singleton] at hg
        rcases hg with hg | rfl
        · split at hg
          · cases hg
          · rcases List.mem_cons.mp hg with rfl | hg
            · rfl
            · exact Segment.marked_of_mem_join hmark hg
        · rfl
    have hbare := Segment.bare_eq_render hnone
    rw [render_segments] at hbare
    rwa [segments] at hbare

end Face

namespace Segment

theorem bare_padded (indent : Nat) : ∀ (onLine : Bool) (xs : List (List Segment)),
    bare (padded indent onLine xs) = TaggedYaml.padded indent onLine (xs.map bare)
  | _, [] => rfl
  | onLine, x :: rest => by
    rw [padded, bare_cons, bare_append, bare_padded indent false rest, List.map_cons,
      TaggedYaml.padded, bareChars]

theorem keyTag?_of_mem_padded (indent : Nat) : ∀ {onLine : Bool} {xs : List (List Segment)},
    (∀ x ∈ xs, ∀ g ∈ x, g.keyTag? = none) → ∀ g ∈ padded indent onLine xs, g.keyTag? = none
  | _, [], _, g, hg => by cases hg
  | onLine, x :: rest, h, g, hg => by
    rw [List.forall_mem_cons] at h
    rcases List.mem_cons.mp hg with rfl | hg
    · rfl
    · rcases List.mem_append.mp hg with hg | hg
      · exact h.1 g hg
      · exact keyTag?_of_mem_padded indent h.2 g hg

theorem keyTag?_of_marked {g : Segment} (h : g.marked = false) : g.keyTag? = none := by
  cases hg : g.keyTag? with
  | none => rfl
  | some text =>
    rw [keyTag?_eq_some hg] at h
    cases h

theorem keysAlone_of_keyTag? {gs : List Segment} (h : ∀ g ∈ gs, g.keyTag? = none) :
    KeysAlone gs := by
  rintro before text after rfl
  cases h (.quoted true ('!' :: text)) (by simp)

end Segment

theorem Face.keyTag?_of_mem_segments {f : Face} {indent : Nat} {position : Position} {g : Segment}
    (hg : g ∈ f.segments indent position) : g.keyTag? = none := by
  have htext : f.textSegment.keyTag? = none := by
    rw [textSegment, Segment.ofString]
    split
    · rfl
    · split <;> rfl
  rw [segments] at hg
  split at hg
  · rw [List.mem_singleton.mp hg]
    rfl
  · rcases List.mem_append.mp hg with hg | hg
    · split at hg
      · cases hg
      · rcases List.mem_cons.mp hg with rfl | hg
        · rfl
        · rw [Segment.join] at hg
          split at hg
          · exact List.mem_singleton.mp hg ▸ htext
          split at hg
          · exact List.mem_singleton.mp hg ▸ rfl
          · rcases List.mem_cons.mp hg with rfl | hg
            · rfl
            · exact List.mem_singleton.mp hg ▸ htext
    · rw [List.mem_singleton.mp hg]
      rfl

/-- No text of a key is written between quotes and begins with an exclamation mark. -/
def Key.Unmarked (k : Key) : Prop := ∀ g ∈ k.segments, g.marked = false

theorem Key.Unmarked.bare_segments {k : Key} (h : k.Unmarked) :
    Segment.bare k.segments = k.written := by
  rw [Segment.bare_eq_render h, k.render_segments]

namespace Shape

mutual

/-- The texts of values that are written between quotes and begin with an exclamation mark are calls, and
no text of a key is such. -/
def Unquotes (isExtension : String → Bool) : Shape → Prop
  | .scalar f => f.Unquotes isExtension
  | .alias _ => True
  | .sequence _ items => UnquotesItems isExtension items
  | .mapping _ entries => UnquotesEntries isExtension entries

def UnquotesItems (isExtension : String → Bool) : List Shape → Prop
  | [] => True
  | s :: rest => Unquotes isExtension s ∧ UnquotesItems isExtension rest

def UnquotesEntries (isExtension : String → Bool) : List (Key × Shape) → Prop
  | [] => True
  | (k, s) :: rest => k.Unmarked ∧ Unquotes isExtension s ∧ UnquotesEntries isExtension rest

end

mutual

/-- The segments of a shape without the quotes of its calls. -/
theorem bare_segments : ∀ {s : Shape}, s.Unquotes isExtension →
    ∀ (indent : Nat) (position : Position), Segment.bare (s.segments indent position) =
      s.writtenIn (Face.bareWritten isExtension) indent position
  | .scalar _, h, indent, position => Face.bare_segments h indent position
  | .alias _, _, _, _ => by simp [segments, writtenIn]
  | .sequence f items, h, indent, position => by
    rw [segments, writtenIn]
    split
    · simp
    · simp only [Segment.bare_cons, Segment.bareChars_plain, Segment.bare_padded,
        bare_segmentsItems h]
  | .mapping f entries, h, indent, position => by
    rw [segments, writtenIn]
    split
    · simp
    · simp only [Segment.bare_cons, Segment.bareChars_plain, Segment.bare_padded,
        bare_segmentsEntries h]

theorem bare_segmentsItems : ∀ {items : List Shape}, UnquotesItems isExtension items →
    ∀ indent : Nat, (segmentsItems indent items).map Segment.bare =
      writtenItemsIn (Face.bareWritten isExtension) indent items
  | [], _, _ => rfl
  | _ :: _, h, indent => by
    rw [segmentsItems, List.map_cons, writtenItemsIn, Segment.bare_cons, bare_segments h.1,
      bare_segmentsItems h.2]
    rfl

theorem bare_segmentsEntries : ∀ {entries : List (Key × Shape)}, UnquotesEntries isExtension entries →
    ∀ indent : Nat, (segmentsEntries indent entries).map Segment.bare =
      writtenEntriesIn (Face.bareWritten isExtension) indent entries
  | [], _, _ => rfl
  | (k, s) :: rest, h, indent => by
    rw [segmentsEntries, List.map_cons, writtenEntriesIn, Segment.bare_append, Segment.bare_cons,
      h.1.bare_segments, bare_segments h.2.1, bare_segmentsEntries h.2.2]
    rfl

end

mutual

theorem keyTag?_of_mem_segments : ∀ {s : Shape}, s.Unquotes isExtension →
    ∀ {indent : Nat} {position : Position}, ∀ g ∈ s.segments indent position, g.keyTag? = none
  | .scalar _, _, _, _, _, hg => Face.keyTag?_of_mem_segments hg
  | .alias _, _, _, _, _, hg => List.mem_singleton.mp hg ▸ rfl
  | .sequence f items, h, indent, position, g, hg => by
    rw [segments] at hg
    split at hg
    · exact List.mem_singleton.mp hg ▸ rfl
    · rcases List.mem_cons.mp hg with rfl | hg
      · rfl
      · exact Segment.keyTag?_of_mem_padded _ (keyTag?_of_mem_items h) g hg
  | .mapping f entries, h, indent, position, g, hg => by
    rw [segments] at hg
    split at hg
    · exact List.mem_singleton.mp hg ▸ rfl
    · rcases List.mem_cons.mp hg with rfl | hg
      · rfl
      · exact Segment.keyTag?_of_mem_padded _ (keyTag?_of_mem_entries h) g hg

theorem keyTag?_of_mem_items : ∀ {items : List Shape}, UnquotesItems isExtension items →
    ∀ {indent : Nat}, ∀ x ∈ segmentsItems indent items, ∀ g ∈ x, g.keyTag? = none
  | [], _, _, x, hx => by cases hx
  | _ :: _, h, _, x, hx => by
    rcases List.mem_cons.mp hx with rfl | hx
    · intro g hg
      rcases List.mem_cons.mp hg with rfl | hg
      · rfl
      · exact keyTag?_of_mem_segments h.1 g hg
    · exact keyTag?_of_mem_items h.2 x hx

theorem keyTag?_of_mem_entries : ∀ {entries : List (Key × Shape)},
    UnquotesEntries isExtension entries → ∀ {indent : Nat},
      ∀ x ∈ segmentsEntries indent entries, ∀ g ∈ x, g.keyTag? = none
  | [], _, _, x, hx => by cases hx
  | (k, s) :: rest, h, _, x, hx => by
    rcases List.mem_cons.mp hx with rfl | hx
    · intro g hg
      rcases List.mem_append.mp hg with hg | hg
      · exact Segment.keyTag?_of_marked (h.1 g hg)
      · rcases List.mem_cons.mp hg with rfl | hg
        · rfl
        · exact keyTag?_of_mem_segments h.2.1 g hg
    · exact keyTag?_of_mem_entries h.2.2 x hx

end

/-- No key of such a shape is freed of quotes. -/
theorem Unquotes.keysAlone {s : Shape} (h : s.Unquotes isExtension) (indent : Nat)
    (position : Position) : Segment.KeysAlone (s.segments indent position) :=
  Segment.keysAlone_of_keyTag? (keyTag?_of_mem_segments h)

end Shape

end TaggedYaml
