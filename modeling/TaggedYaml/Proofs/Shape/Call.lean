import TaggedYaml.Proofs.Scan.Items
import TaggedYaml.Proofs.Shape.Said

/-!
# Call — a tag with what it is applied to

A node with an extension tag is spelled out as the tag with a text behind it, or with texts between
brackets (`Call.text`).  Without quotes around it such a text is read as a node with the tag again
(`Call.told`); so a tree can be written without these quotes (`Shape.Manner.bare`).
-/

namespace TaggedYaml

/-- What is spelled out of a node with a tag. -/
inductive Call where
  /-- A tag and the text of a scalar, which may be empty. -/
  | word (suffix text : List Char)
  /-- A tag and the texts of some children. -/
  | list (suffix first : List Char) (rest : List (List Char))

namespace Call

/-- The tag without its `!`. -/
def suffix : Call → List Char
  | word suffix _ => suffix
  | list suffix _ _ => suffix

def tag (c : Call) : String := String.ofList ('!' :: c.suffix)

/-- The text of the node itself. -/
def own : Call → List Char
  | word _ text => text
  | list _ _ _ => []

/-- What stands behind the tag. -/
def body : Call → List Char
  | word _ text => text
  | list _ first rest => '[' :: (itemsText (first :: rest) ++ [']'])

def text (c : Call) : List Char := joinProperties ('!' :: c.suffix) c.body

/-- What stands behind the tag is plain text. -/
def Plain : Call → Prop
  | word _ text => text = [] ∨ isPlainText text = true
  | list _ first rest => ∀ a ∈ first :: rest, isPlainItem a = true

/-- A call of an extension tag that is written between single quotes as it is, and that is read as a call
without them. -/
structure Legible (isExtension : String → Bool) (c : Call) : Prop where
  extension : isExtension c.tag = true
  suffix : IsSuffix c.suffix
  plain : c.Plain
  single : ∀ x ∈ c.text, isHidden x = false ∧ x ≠ '\''

instance : ∀ c : Call, Decidable c.Plain
  | word _ text => inferInstanceAs (Decidable (text = [] ∨ isPlainText text = true))
  | list _ first rest => inferInstanceAs (Decidable (∀ a ∈ first :: rest, isPlainItem a = true))

instance (isExtension : String → Bool) (c : Call) : Decidable (c.Legible isExtension) :=
  -- by name, as for suffixes
  have : Decidable (∀ x ∈ c.text, isHidden x = false ∧ x ≠ '\'') :=
    List.decidableBAll (fun x => isHidden x = false ∧ x ≠ '\'') c.text
  decidable_of_iff (isExtension c.tag = true ∧ IsSuffix c.suffix ∧ c.Plain ∧
      ∀ x ∈ c.text, isHidden x = false ∧ x ≠ '\'')
    ⟨fun ⟨extension, suffix, plain, single⟩ => ⟨extension, suffix, plain, single⟩,
      fun h => ⟨h.extension, h.suffix, h.plain, h.single⟩⟩

/-- The tag of a call and an anchor. -/
def face (c : Call) (anchor : Option String) : Face :=
  { tag := c.tag, text := String.ofList c.own, anchor }

/-- A plain text. -/
def item (a : List Char) : Shape := .scalar { text := String.ofList a }

/-- What is read back of a call without its quotes. -/
def shape (c : Call) (anchor : Option String) : Shape :=
  match c with
  | word _ _ => .scalar (c.face anchor)
  | list _ first rest => .sequence (c.face anchor) ((first :: rest).map item)

variable {isExtension : String → Bool} {c : Call} {anchor : Option String}

/-! ### Anchors and heights -/

theorem anchorsItems_item (known : List Anchor) : ∀ as : List (List Char),
    Shape.anchorsItems known (as.map item) = known
  | [] => rfl
  | _ :: as => anchorsItems_item known as

theorem anchors_shape (c : Call) (anchor : Option String) (known : List Anchor) :
    (c.shape anchor).anchors known = nameAnchor known anchor := by
  cases c with
  | word suffix text => rfl
  | list suffix first rest => exact anchorsItems_item _ (first :: rest)

theorem buildableItems_item : ∀ (as : List (List Char)) (known : List Anchor),
    Shape.BuildableItems known (as.map item)
  | [], _ => trivial
  | _ :: as, _ => ⟨trivial, buildableItems_item as _⟩

theorem buildable_shape (c : Call) (anchor : Option String) (known : List Anchor) :
    (c.shape anchor).Buildable known := by
  cases c with
  | word suffix text => trivial
  | list suffix first rest => exact ⟨⟨rfl, rfl⟩, buildableItems_item _ _⟩

theorem heightItems_item : ∀ as : List (List Char), Shape.heightItems (as.map item) = 0
  | [] => rfl
  | _ :: as => by
    rw [List.map_cons, Shape.heightItems, heightItems_item as]
    rfl

theorem height_shape_le (c : Call) (anchor : Option String) : (c.shape anchor).height ≤ 1 := by
  cases c with
  | word suffix text => exact Nat.zero_le _
  | list suffix first rest =>
    rw [shape, Shape.height, heightItems_item]

/-! ### Labels -/

theorem hasOwnTag_face (h : IsSuffix c.suffix) : (c.face anchor).node.hasOwnTag = true := by
  have hcore : isCoreTag c.tag = false := by
    rw [isCoreTag, tag, String.toList_ofList]
    cases hs : c.suffix with
    | nil => rfl
    | cons x r =>
      have hx : x ≠ '!' := isTagChar_ne (h x (by rw [hs]; simp)).1 (by decide)
      simpa [List.isPrefixOf] using hx.symm
  have hne : c.tag ≠ "" := by
    rw [tag, ← String.toList_inj.ne, String.toList_ofList]
    exact List.cons_ne_nil _ _
  show (c.tag != "" && !isCoreTag c.tag) = true
  simp [hcore, hne]

theorem face_legible (h : IsSuffix c.suffix) (ha : ∀ a ∈ anchor, IsName a.toList) :
    (c.face anchor).Legible :=
  ⟨ha, fun _ => ⟨c.suffix, String.toList_ofList, h⟩⟩

theorem writtenTag_face (h : IsSuffix c.suffix) : (c.face anchor).writtenTag = c.tag :=
  if_pos (hasOwnTag_face h)

/-- Behind an anchor of its own a call is written with its tag. -/
theorem joinProperties_text {f : Face} (ht : f.node.hasOwnTag = false) (h : IsSuffix c.suffix) :
    joinProperties f.node.properties c.text =
      joinProperties (c.face f.anchor).node.properties c.body := by
  have hf : f.node.properties = (f.anchor.map fun a => '&' :: a.toList).getD [] := by
    rw [Node.properties, ht]
    cases ha : f.anchor <;> simp [Face.node, ha]
  have hc : (c.face f.anchor).node.properties =
      joinProperties ((f.anchor.map fun a => '&' :: a.toList).getD []) ('!' :: c.suffix) := by
    rw [Node.properties, hasOwnTag_face h]
    cases f.anchor <;> simp [Face.node, face, tag, joinProperties]
  rw [hf, hc, text]
  cases f.anchor with
  | none => rfl
  | some a => cases hb : c.body.isEmpty <;> simp [joinProperties, hb]

/-! ### What is read back -/

theorem body_subset (c : Call) : ∀ x ∈ c.body, x ∈ c.text := by
  intro x hx
  rw [text, joinProperties, if_neg (by simp), if_neg (by simpa using List.ne_nil_of_mem hx)]
  simp [hx]

section

variable {suffix first word : List Char} {rest : List (List Char)} {f : Face}

/-- The text behind a tag is written plain. -/
theorem isPlain_word (hs : IsSuffix suffix) (h : word = [] ∨ isPlainText word = true) :
    ((Call.word suffix word).face anchor).isPlain = true := by
  have htag : ((Call.word suffix word).tag == "!!str") = false := by
    rw [beq_eq_false_iff_ne]
    intro heq
    have hown : ((Call.word suffix word).face anchor).node.hasOwnTag = true := hasOwnTag_face hs
    rw [Node.hasOwnTag, show ((Call.word suffix word).face anchor).node.tag = "!!str" from heq] at hown
    exact absurd hown (by decide)
  have hstring : ((Call.word suffix word).face anchor).node.isString = false := htag
  have htext : ((Call.word suffix word).face anchor).text.toList = word := String.toList_ofList
  rw [Face.isPlain, hstring, htext]
  simpa using h

/-- A tag with a text behind it. -/
theorem told_word (h : (Call.word suffix word).Legible isExtension)
    (ha : ∀ a ∈ anchor, IsName a.toList) (indent : Nat) (position : Position) :
    Shape.Told ((Call.word suffix word).shape anchor) indent position (position.line
      (joinProperties ((Call.word suffix word).face anchor).node.properties word)) := by
  set g := (Call.word suffix word).face anchor with hg
  have htext : g.text.toList = word := String.toList_ofList
  have hplain : g.isPlain = true := isPlain_word h.suffix h.plain
  have hblock : g.node.literalBlock? = none := by
    have hline : word.contains '\n' = false := by
      rw [List.contains_eq_mem, decide_eq_false_iff_not]
      intro hm
      exact absurd (h.single '\n' (body_subset _ _ hm)).1 (by decide)
    rw [Node.literalBlock?, show g.node.value.toList = word from htext, hline]
    rfl
  have hstyle : g.writtenStyle = .plain := by
    rw [Face.writtenStyle, hblock, hplain]
    rfl
  have hreread : g.reread = g := by
    rw [Face.reread, hstyle, Face.restyled, Face.head, writtenTag_face h.suffix]
    rfl
  have hwritten : g.written indent position =
      position.line (joinProperties g.node.properties word) := by
    rw [Face.written, hblock, Face.inlineText_eq, hplain, if_pos rfl, htext]
  have htold := Shape.told_written (face_legible h.suffix ha) indent position
  rwa [hreread, hwritten] at htold

/-- Plain texts between brackets are items. -/
theorem spellsFlowItems_item (known : List Anchor) : ∀ as : List (List Char),
    Shape.SpellsFlowItems known (as.map item) (as.map plainWords)
  | [] => .nil
  | a :: as => by
    have hword : Shape.Spells false known (item a) (plainWords a) :=
      .scalar (.written (f := { text := String.ofList a }) (.inl rfl))
    exact .cons hword (spellsFlowItems_item known as)

/-- A tag with a list behind it. -/
theorem told_list (h : (Call.list suffix first rest).Legible isExtension)
    (ha : ∀ a ∈ anchor, IsName a.toList) (indent : Nat) (position : Position) :
    Shape.Told ((Call.list suffix first rest).shape anchor) indent position (position.line
      (joinProperties ((Call.list suffix first rest).face anchor).node.properties
        (Call.list suffix first rest).body)) := by
  set c := Call.list suffix first rest with hc
  have hlegible : (c.face anchor).Legible := face_legible h.suffix ha
  have htag : IsSpelledTag (c.face anchor).tag := by
    have htag := Face.isSpelledTag_writtenTag hlegible
    rwa [writtenTag_face h.suffix] at htag
  have hhead : (c.face anchor).head = c.face anchor := by
    rw [Face.head, writtenTag_face h.suffix]
    rfl
  obtain ⟨u, hu, hjoin⟩ := Face.exists_prelude hlegible
  have hne : c.body ≠ [] := List.cons_ne_nil _ _
  rw [hhead] at hu
  rw [Face.line_join position (hjoin _ hne) hne]
  refine .spoken (fun he => by cases he)
    ⟨Shape.begins_prelude hu ⟨'[', _, rfl, by decide, by decide⟩, ?_, ?_⟩
  · simp only [List.mem_append, not_or]
    refine ⟨nul_not_mem_prelude hu, fun hm => ?_, by decide⟩
    exact absurd (h.single _ (body_subset c _ hm)).1 (by decide)
  · intro known ws cols column keys m t p hlt _ hm hp
    simp only [List.append_assoc] at hp
    refine (Progress.Ready.reads_prelude hu hp hlt).trans ?_
    rintro q ⟨column', keys', hlt', hq⟩
    have hq' : Progress.Ready q (ws ++ (c.face anchor).properties) cols column' keys'
        ('[' :: (itemsText (first :: rest) ++ ']' :: '\n' :: (pad m ++ t))) := by
      simpa [hc, body] using hq
    refine (Progress.Ready.reads_items h.plain hq' hlt' hm.solid).mono fun q hq => ?_
    rw [List.append_assoc] at hq
    exact .leaf hq (.flowSequence htag (spellsFlowItems_item _ _))

/-- What is written of a call without quotes says a node with the tag. -/
theorem told {c : Call} (h : c.Legible isExtension) (ht : f.node.hasOwnTag = false) (hf : f.Legible)
    (indent : Nat) (position : Position) :
    Shape.Told (c.shape f.anchor) indent position
      (position.line (joinProperties f.node.properties c.text)) := by
  rw [joinProperties_text ht h.suffix]
  cases c with
  | word suffix word => exact told_word h hf.anchor indent position
  | list suffix first rest => exact told_list h hf.anchor indent position

end

end Call

end TaggedYaml
