import TaggedYaml.Event.Read
import TaggedYaml.Proofs.Except

/-!
# Derives — what the reader of events can do

The reader chooses by the next word, but what it does then is one of a few things: it adds an alias,
a scalar or the two ends of a collection, and reads members between them.  `Derives` has one rule for
each, and every successful reading is a derivation (`derives_read`, `derives_document`): what the
rules keep, the reader keeps.
-/

namespace TaggedYaml

/-- What is left to read, whether in a block or between brackets. -/
inductive Goal where
  | node
  /-- What is behind the properties of a node. -/
  | content (p : Properties)
  /-- A node or nothing in its place. -/
  | member
  /-- The rest of a sequence. -/
  | items
  /-- The rest of a mapping. -/
  | entries
  /-- A value and the rest of its mapping. -/
  | value
  /-- The pair of a mapping without braces and the rest of the sequence around it. -/
  | pairKey
  | pairValue

def Part.goal : Part → Goal
  | .node _ _ => .node
  | .content _ _ p => .content p
  | .blockItems | .flushItems | .flowItems _ => .items
  | .blockEntries | .flowEntries _ => .entries
  | .blockValue | .flowValue => .value
  | .pairKey => .pairKey
  | .pairValue => .pairValue

namespace EventReader

variable {r r' r₁ r₂ : EventReader} {t : Marked Token} {tok : Token} {α : Type}

/-- The events so far, latest first. -/
def past (r : EventReader) : List Event := r.events.map (·.item)

/-- Words that name no node are passed. -/
structure Passes (r r' : EventReader) : Prop where
  anchors : r'.anchors = r.anchors
  events : r'.events = r.events
  names : anchorNames r'.tokens = anchorNames r.tokens

theorem Passes.past (h : Passes r r') : r'.past = r.past := by
  rw [EventReader.past, EventReader.past, h.events]

theorem Passes.refl (r : EventReader) : Passes r r := ⟨rfl, rfl, rfl⟩

theorem Passes.trans (h : Passes r r₁) (h' : Passes r₁ r₂) : Passes r r₂ :=
  ⟨h'.anchors.trans h.anchors, h'.events.trans h.events, h'.names.trans h.names⟩

theorem peek_eq_ok (h : r.peek = .ok t) : r.tokens = t :: r.next.tokens := by
  unfold peek at h
  split at h
  · cases h
  · rename_i hr
    cases h
    rw [next, hr]
    rfl

/-- A word is passed that was looked at. -/
theorem Passes.next (ht : r.peek = .ok t) (hi : t.item = tok) (hn : tok.anchorName? = none) :
    Passes r r.next := by
  refine ⟨rfl, rfl, ?_⟩
  rw [peek_eq_ok ht, anchorNames, anchorNames, List.filterMap_cons, hi, hn]

/-- The ways from what is left to read to what is behind it. -/
inductive Derives : Goal → EventReader → EventReader → Prop where
  | alias {r r' : EventReader} {name : String} {a : Anchor} (m : Mark) :
    Passes r r' → r.anchors.find? (·.name == name) = some a → Derives .node r (r'.push m (.alias a))
  | properties {r r₁ r' : EventReader} {p : Properties} : r.properties = .ok (p, r₁) →
    Derives (.content p) r₁ r' → Derives .node r r'
  | scalar {r r' : EventReader} (m : Mark) (style : Style) (text : String) (p : Properties) :
    Passes r r' → Derives (.content p) r (r'.push m (.scalar style text (p.tag.getD "") p.anchor))
  | sequence {r r₁ r' : EventReader} {p : Properties} (m : Mark) : Passes r r₁ →
    Derives .items (r₁.push m (.openSequence (p.tag.getD "") p.anchor)) r' →
    Derives (.content p) r r'
  | mapping {r r₁ r' : EventReader} {p : Properties} (m : Mark) : Passes r r₁ →
    Derives .entries (r₁.push m (.openMapping (p.tag.getD "") p.anchor)) r' →
    Derives (.content p) r r'
  | node {r r₁ r' : EventReader} : Passes r r₁ → Derives .node r₁ r' → Derives .member r r'
  | empty {r r₁ : EventReader} (m : Mark) : Passes r r₁ → Derives .member r (r₁.pushEmpty m)
  | item {r r₁ r' : EventReader} : Derives .member r r₁ → Derives .items r₁ r' →
    Derives .items r r'
  | pair {r r₁ r' : EventReader} (m : Mark) : Passes r r₁ →
    Derives .pairKey (r₁.push m (.openMapping "" none)) r' → Derives .items r r'
  | closeItems {r r₁ : EventReader} (m : Mark) : Passes r r₁ →
    Derives .items r (r₁.push m .closeSequence)
  | key {r r₁ r' : EventReader} : Derives .member r r₁ → Derives .value r₁ r' →
    Derives .entries r r'
  | closeEntries {r r₁ : EventReader} (m : Mark) : Passes r r₁ →
    Derives .entries r (r₁.push m .closeMapping)
  | value {r r₁ r' : EventReader} : Derives .member r r₁ → Derives .entries r₁ r' →
    Derives .value r r'
  | pairKey {r r₁ r' : EventReader} : Derives .member r r₁ → Derives .pairValue r₁ r' →
    Derives .pairKey r r'
  | pairValue {r r₁ r' : EventReader} (m : Mark) : Derives .member r r₁ →
    Derives .items (r₁.push m .closeMapping) r' → Derives .pairValue r r'

/-! ### Readings are derivations -/

variable {fuel : Nat} {P : EventReader → Prop}

/-- Reading with some fuel, whatever is read. -/
def DerivesAll (fuel : Nat) : Prop := ∀ part r, Ends (read fuel part r) (Derives part.goal r)

/-- Nothing is read in the place of a member, and then the rest. -/
theorem DerivesAll.empty_then {part : Part} {g : Goal} (ih : DerivesAll fuel) (m : Mark)
    (hr : Passes r r₁) (hg : ∀ {r₁ r'}, Derives .member r r₁ → Derives part.goal r₁ r' →
      Derives g r r') : Ends (read fuel part (r₁.pushEmpty m)) (Derives g r) :=
  (ih part _).mono fun _ h => hg (.empty m hr) h

/-- A node is read and then the rest. -/
theorem DerivesAll.node_then {part : Part} {g : Goal} (ih : DerivesAll fuel)
    (inBlock flush : Bool) (hr : Passes r r₁) (hg : ∀ {r₁ r'}, Derives .member r r₁ →
      Derives part.goal r₁ r' → Derives g r r') :
    Ends (read fuel (.node inBlock flush) r₁ >>= read fuel part) (Derives g r) :=
  (ih (.node inBlock flush) r₁).andThen fun _ h₁ => (ih part _).mono fun _ h => hg (.node hr h₁) h

-- The equations of `read` are made here, once for all lemmas about its parts.
attribute [local simp] read

theorem derives_node (ih : DerivesAll fuel) (inBlock flush : Bool) (r : EventReader) :
    Ends (read (fuel + 1) (.node inBlock flush) r) (Derives .node r) := by
  unfold read
  refine .bind fun t ht => ?_
  dsimp only
  split
  · split
    · exact ends_ok (.alias _ (.next ht ‹_› rfl) ‹_›)
    · exact ends_error _
  · exact .bind fun p hp => (ih (.content inBlock flush p.1) p.2).mono fun _ h => .properties hp h

theorem derives_content (ih : DerivesAll fuel) (inBlock flush : Bool) (p : Properties)
    (r : EventReader) :
    Ends (read (fuel + 1) (.content inBlock flush p) r) (Derives (.content p) r) := by
  unfold read
  refine .bind fun t ht => ?_
  dsimp only
  split
  · exact ends_ok (.scalar _ _ _ p (.next ht ‹_› rfl))
  · exact (ih (.flowItems true) _).mono fun _ h => .sequence _ (.next ht ‹_› rfl) h
  · exact (ih (.flowEntries true) _).mono fun _ h => .mapping _ (.next ht ‹_› rfl) h
  · exact (ih .blockItems _).mono fun _ h => .sequence _ (.next ht ‹_› rfl) h
  · exact (ih .blockEntries _).mono fun _ h => .mapping _ (.next ht ‹_› rfl) h
  · exact (ih .flushItems _).mono fun _ h => .sequence _ (.refl r) h
  · split
    · exact ends_ok (.scalar _ .plain "" p (.refl r))
    · exact ends_error _

theorem derives_blockItems (ih : DerivesAll fuel) (r : EventReader) :
    Ends (read (fuel + 1) .blockItems r) (Derives .items r) := by
  unfold read
  refine .bind fun t ht => ?_
  dsimp only
  split
  · exact ends_ok (.closeItems _ (.next ht ‹_› rfl))
  · have hr : Passes r r.next := .next ht ‹_› rfl
    refine .bind fun u _ => ?_
    split
    · exact ih.empty_then _ hr .item
    · exact ih.empty_then _ hr .item
    · exact ih.node_then _ _ hr .item
  · exact ends_error _

theorem derives_flushItems (ih : DerivesAll fuel) (r : EventReader) :
    Ends (read (fuel + 1) .flushItems r) (Derives .items r) := by
  unfold read
  refine .bind fun t ht => ?_
  dsimp only
  split
  · have hr : Passes r r.next := .next ht ‹_› rfl
    refine .bind fun u _ => ?_
    split
    · exact ih.empty_then _ hr .item
    · exact ih.empty_then _ hr .item
    · exact ih.empty_then _ hr .item
    · exact ih.empty_then _ hr .item
    · exact ih.node_then _ _ hr .item
  · exact ends_ok (.closeItems _ (.refl r))

theorem derives_blockEntries (ih : DerivesAll fuel) (r : EventReader) :
    Ends (read (fuel + 1) .blockEntries r) (Derives .entries r) := by
  unfold read
  refine .bind fun t ht => ?_
  dsimp only
  split
  · exact ends_ok (.closeEntries _ (.next ht ‹_› rfl))
  · have hr : Passes r r.next := .next ht ‹_› rfl
    refine .bind fun u _ => ?_
    split
    · exact ih.empty_then _ hr .key
    · exact ih.empty_then _ hr .key
    · exact ih.empty_then _ hr .key
    · exact ih.node_then _ _ hr .key
  · exact ih.empty_then _ (.refl r) .key
  · exact ends_error _

theorem derives_blockValue (ih : DerivesAll fuel) (r : EventReader) :
    Ends (read (fuel + 1) .blockValue r) (Derives .value r) := by
  unfold read
  refine .bind fun t ht => ?_
  dsimp only
  split
  · have hr : Passes r r.next := .next ht ‹_› rfl
    refine .bind fun u _ => ?_
    split
    · exact ih.empty_then _ hr .value
    · exact ih.empty_then _ hr .value
    · exact ih.empty_then _ hr .value
    · exact ih.node_then _ _ hr .value
  · exact ih.empty_then _ (.refl r) .value

/-- A member of a flow collection behind its comma. -/
theorem ends_comma {first : Bool} {d : Defect} {f : EventReader → Except Fault EventReader}
    (ht : r.peek = .ok t) (hf : ∀ r₁, Passes r r₁ → Ends (f r₁) P) :
    Ends (if first = true then pure r >>= f
      else if (t.item == .flowEntry) = true then pure r.next >>= f
      else throw ⟨t.mark, d⟩ >>= f) P := by
  split
  · exact hf r (.refl r)
  · split
    · exact hf r.next (.next ht (by simpa using ‹(t.item == _) = true›) rfl)
    · exact ends_error _

theorem derives_flowItems (ih : DerivesAll fuel) (first : Bool) (r : EventReader) :
    Ends (read (fuel + 1) (.flowItems first) r) (Derives .items r) := by
  unfold read
  refine .bind fun t ht => ?_
  dsimp only
  split
  · exact ends_ok (.closeItems _ (.next ht (by simpa using ‹(t.item == _) = true›) rfl))
  · refine ends_comma ht fun r₁ hr => ?_
    refine .bind fun u hu => ?_
    split
    · exact ends_ok (.closeItems _ (hr.trans (.next hu ‹_› rfl)))
    · exact (ih .pairKey _).mono fun _ h => .pair _ (hr.trans (.next hu ‹_› rfl)) h
    · exact ih.node_then _ _ hr .item

theorem derives_pairKey (ih : DerivesAll fuel) (r : EventReader) :
    Ends (read (fuel + 1) .pairKey r) (Derives .pairKey r) := by
  unfold read
  refine .bind fun t ht => ?_
  dsimp only
  split
  · exact ih.empty_then _ (.next ht ‹_› rfl) .pairKey
  · exact ih.empty_then _ (.next ht ‹_› rfl) .pairKey
  · exact ih.empty_then _ (.next ht ‹_› rfl) .pairKey
  · exact ih.node_then _ _ (.refl r) .pairKey

theorem derives_pairValue (ih : DerivesAll fuel) (r : EventReader) :
    Ends (read (fuel + 1) .pairValue r) (Derives .pairValue r) := by
  unfold read
  refine .bind fun t ht => ?_
  dsimp only
  have hrest (r₁ : EventReader) (h₁ : Derives .member r r₁) :
      Ends (read fuel (.flowItems false) (r₁.push t.mark .closeMapping)) (Derives .pairValue r) :=
    (ih (.flowItems false) _).mono fun _ h => .pairValue _ h₁ h
  split
  · have hr : Passes r r.next := .next ht ‹_› rfl
    refine .bind fun u _ => ?_
    split
    · exact hrest _ (.empty _ hr)
    · exact hrest _ (.empty _ hr)
    · exact (ih (.node false false) _).andThen fun r₁ h₁ => hrest r₁ (.node hr h₁)
  · exact hrest _ (.empty _ (.refl r))

theorem derives_flowEntries (ih : DerivesAll fuel) (first : Bool) (r : EventReader) :
    Ends (read (fuel + 1) (.flowEntries first) r) (Derives .entries r) := by
  unfold read
  refine .bind fun t ht => ?_
  dsimp only
  split
  · exact ends_ok (.closeEntries _ (.next ht (by simpa using ‹(t.item == _) = true›) rfl))
  · refine ends_comma ht fun r₁ hr => ?_
    refine .bind fun u hu => ?_
    split
    · exact ends_ok (.closeEntries _ (hr.trans (.next hu ‹_› rfl)))
    · exact ih.empty_then _ hr .key
    · have hr' : Passes r r₁.next := hr.trans (.next hu ‹_› rfl)
      refine .bind fun v _ => ?_
      split
      · exact ih.empty_then _ hr' .key
      · exact ih.empty_then _ hr' .key
      · exact ih.empty_then _ hr' .key
      · exact ih.node_then _ _ hr' .key
    · refine (ih (.node false false) _).andThen fun r₂ h₂ => ?_
      refine .bind fun v _ => (ih (.flowEntries false) _).mono fun _ h => ?_
      exact .key (.node hr h₂) (.value (.empty _ (.refl r₂)) h)

theorem derives_flowValue (ih : DerivesAll fuel) (r : EventReader) :
    Ends (read (fuel + 1) .flowValue r) (Derives .value r) := by
  unfold read
  refine .bind fun t ht => ?_
  dsimp only
  split
  · have hr : Passes r r.next := .next ht ‹_› rfl
    refine .bind fun u _ => ?_
    split
    · exact ih.empty_then _ hr .value
    · exact ih.empty_then _ hr .value
    · exact ih.node_then _ _ hr .value
  · exact ih.empty_then _ (.refl r) .value

theorem derives_read : ∀ fuel : Nat, DerivesAll fuel
  | 0 => by
    intro part r
    unfold read
    exact ends_error _
  | fuel + 1 => by
    have ih := derives_read fuel
    intro part r
    cases part with
    | node inBlock flush => exact derives_node ih inBlock flush r
    | content inBlock flush p => exact derives_content ih inBlock flush p r
    | blockItems => exact derives_blockItems ih r
    | flushItems => exact derives_flushItems ih r
    | blockEntries => exact derives_blockEntries ih r
    | blockValue => exact derives_blockValue ih r
    | flowItems first => exact derives_flowItems ih first r
    | pairKey => exact derives_pairKey ih r
    | pairValue => exact derives_pairValue ih r
    | flowEntries first => exact derives_flowEntries ih first r
    | flowValue => exact derives_flowValue ih r

/-! ### Documents -/

theorem anchorNames_dropWhile_documentEnd (tokens : List (Marked Token)) :
    anchorNames (tokens.dropWhile (·.item == .documentEnd)) = anchorNames tokens := by
  induction tokens with
  | nil => rfl
  | cons t rest ih =>
    rw [List.dropWhile_cons]
    split
    · rename_i ht
      have hi : t.item = .documentEnd := by simpa using ht
      rw [ih, anchorNames, anchorNames, List.filterMap_cons, hi]
      rfl
    · rfl

theorem passes_skipDocumentEnds (r : EventReader) : Passes r r.skipDocumentEnds :=
  ⟨rfl, rfl, anchorNames_dropWhile_documentEnd r.tokens⟩

theorem passes_directives : ∀ (fuel : Nat) (hasVersion : Bool) (r : EventReader),
    Ends (r.directives fuel hasVersion) (Passes r)
  | 0, _, _ => ends_error _
  | fuel + 1, _, r => by
    unfold directives
    refine .bind fun t ht => ?_
    dsimp only
    split
    · have hr : Passes r r.next := .next ht ‹_› rfl
      split
      · exact ends_error _
      · exact (passes_directives fuel _ _).mono fun _ h =>
          hr.trans ⟨h.anchors, h.events, h.names⟩
    · have hr : Passes r r.next := .next ht ‹_› rfl
      exact (passes_directives fuel _ _).mono fun _ h => hr.trans ⟨h.anchors, h.events, h.names⟩
    · exact ends_ok (.refl r)

theorem endDocument_eq (r : EventReader) : Ends r.endDocument (· = r) := by
  unfold endDocument
  refine .bind fun t _ => ?_
  split
  · exact ends_error _
  · exact ends_error _
  · exact ends_ok rfl

/-- A document holds nothing, or it is a node. -/
def DerivesDocument (r r' : EventReader) : Prop := Passes r r' ∨ Derives .member r r'

/-- The node of a document. -/
theorem derives_documentNode (hr : Passes r r₁) :
    Ends (read fuel (.node true false) r₁ >>= endDocument) (DerivesDocument r) := by
  refine (derives_read fuel (.node true false) r₁).andThen fun r₂ h₂ => ?_
  refine (endDocument_eq r₂).mono fun r' h' => ?_
  rw [h']
  exact .inr (.node hr h₂)

theorem derives_emptyDocument (hr : Passes r r₁) (m : Mark) :
    Ends (r₁.pushEmpty m).endDocument (DerivesDocument r) := by
  refine (endDocument_eq _).mono fun r' h' => ?_
  rw [h']
  exact .inr (.empty m hr)

/-- A document behind its directives and its start. -/
theorem derives_startedDocument (hr : Passes r r₁) :
    Ends (do
      let u ← r₁.peek
      if u.item != .documentStart then throw ⟨u.mark, .documentStart⟩
      let v ← r₁.next.peek
      match v.item with
      | .versionDirective | .tagDirective _ _ | .documentStart | .documentEnd | .textEnd =>
        (r₁.next.pushEmpty v.mark).endDocument
      | _ => read fuel (.node true false) r₁.next >>= endDocument) (DerivesDocument r) := by
  refine .bind fun u hu => ?_
  split
  · exact ends_error _
  · have hi : u.item = .documentStart := by simpa using ‹¬(u.item != _) = true›
    have hr' : Passes r r₁.next := hr.trans (.next hu hi rfl)
    refine .bind fun v _ => ?_
    split
    · exact derives_emptyDocument hr' _
    · exact derives_emptyDocument hr' _
    · exact derives_emptyDocument hr' _
    · exact derives_emptyDocument hr' _
    · exact derives_emptyDocument hr' _
    · exact derives_documentNode hr'

theorem derives_document (r : EventReader) : Ends r.document (DerivesDocument r) := by
  have hskip := passes_skipDocumentEnds r
  have hstarted {r₁ : EventReader} (h : Passes r.skipDocumentEnds r₁) := @derives_startedDocument
    r r₁ (4 * r.skipDocumentEnds.tokens.length + 4) (hskip.trans h)
  unfold document
  refine .bind fun t _ => ?_
  split
  · exact ends_ok (.inl hskip)
  · exact (passes_directives _ _ _).andThen fun _ => hstarted
  · exact (passes_directives _ _ _).andThen fun _ => hstarted
  · exact (passes_directives _ _ _).andThen fun _ => hstarted
  · exact derives_documentNode hskip

end EventReader

end TaggedYaml
