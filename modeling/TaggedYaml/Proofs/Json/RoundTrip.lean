import TaggedYaml.Codec
import TaggedYaml.Proofs.Json.Words
import TaggedYaml.Proofs.Shape.Build
import TaggedYaml.Proofs.Shape.OfValue
import TaggedYaml.Proofs.Tree.Tags

/-!
# Round trip — JSON that was written is read back

JSON on one line or on several is read as the words of flow collections, these as the events of a
shape, and these make a tree without tags, which has the value that was written
(`decode_encodeJson`).
-/

namespace TaggedYaml

namespace Shape

/-! ### Values as shapes without properties -/

mutual

theorem spells_ofValue (inBlock : Bool) (known : List Anchor) :
    ∀ v : Value, Spells inBlock known (ofValue v) v.flowWords ∧ (ofValue v).anchors known = known
  | .text k => ⟨.scalar (.written (f := { text := k, style := .double }) (.inl rfl)), rfl⟩
  | .list items => by
    obtain ⟨h1, h2⟩ := spells_ofItems known items
    exact ⟨.flowSequence (f := {}) (.inl rfl) h1, h2⟩
  | .map entries => by
    obtain ⟨h1, h2⟩ := spells_ofEntries known entries
    exact ⟨.flowMapping (f := {}) (.inl rfl) h1, h2⟩

theorem spells_ofItems (known : List Anchor) : ∀ items : List Value,
    SpellsFlowItems known (ofItems items) (Value.itemWords items) ∧
      anchorsItems known (ofItems items) = known
  | [] => ⟨.nil, rfl⟩
  | v :: rest => by
    obtain ⟨h1, h2⟩ := spells_ofValue false known v
    obtain ⟨h3, h4⟩ := spells_ofItems known rest
    rw [ofItems, anchorsItems, h2, Value.itemWords]
    exact ⟨.cons h1 (h2.symm ▸ h3), h4⟩

theorem spells_ofEntries (known : List Anchor) : ∀ entries : List (String × Value),
    SpellsFlowEntries known (ofEntries entries) (Value.entryWords entries) ∧
      anchorsEntries known (ofEntries entries) = known
  | [] => ⟨.nil, rfl⟩
  | (k, v) :: rest => by
    obtain ⟨h1, h2⟩ := spells_ofValue false known v
    obtain ⟨h3, h4⟩ := spells_ofEntries known rest
    have hkey : SpellsKey known (.scalar { text := k, style := .double }) [.scalar .double k] :=
      .scalar (.written (.inl rfl))
    rw [ofEntries, anchorsEntries, keyAnchors, nameAnchor, h2, Value.entryWords]
    exact ⟨.cons hkey h1 (h2.symm ▸ h3), h4⟩

end

mutual

theorem readable_ofValue : ∀ v : Value, (ofValue v).Readable
  | .text _ => trivial
  | .list items => ⟨⟨rfl, rfl⟩, readable_ofItems items⟩
  | .map entries => ⟨⟨rfl, rfl⟩, readable_ofEntries entries⟩

theorem readable_ofItems : ∀ items : List Value, ReadableItems (ofItems items)
  | [] => trivial
  | v :: rest => ⟨readable_ofValue v, readable_ofItems rest⟩

theorem readable_ofEntries : ∀ entries : List (String × Value), ReadableEntries (ofEntries entries)
  | [] => trivial
  | (_, v) :: rest => ⟨⟨_, rfl⟩, readable_ofValue v, readable_ofEntries rest⟩

end

mutual

theorem untagged_ofValue : ∀ (v : Value) (known : List Anchor), ∀ e ∈ (ofValue v).events known,
    e.tag = ""
  | .text k, known, e, he => by
    obtain rfl := List.mem_singleton.mp he
    rfl
  | .list items, known, e, he => by
    rw [ofValue, events, List.mem_cons, List.mem_append, List.mem_singleton] at he
    rcases he with rfl | he | rfl
    · rfl
    · exact untagged_ofItems items _ e he
    · rfl
  | .map entries, known, e, he => by
    rw [ofValue, events, List.mem_cons, List.mem_append, List.mem_singleton] at he
    rcases he with rfl | he | rfl
    · rfl
    · exact untagged_ofEntries entries _ e he
    · rfl

theorem untagged_ofItems : ∀ (items : List Value) (known : List Anchor),
    ∀ e ∈ eventsItems known (ofItems items), e.tag = ""
  | [], known, e, he => by simp [ofItems, eventsItems] at he
  | v :: rest, known, e, he => by
    rw [ofItems, eventsItems, List.mem_append] at he
    exact he.elim (untagged_ofValue v _ e) (untagged_ofItems rest _ e)

theorem untagged_ofEntries : ∀ (entries : List (String × Value)) (known : List Anchor),
    ∀ e ∈ eventsEntries known (ofEntries entries), e.tag = ""
  | [], known, e, he => by simp [ofEntries, eventsEntries] at he
  | (k, v) :: rest, known, e, he => by
    rw [ofEntries, eventsEntries, List.mem_cons, List.mem_append] at he
    rcases he with rfl | he | he
    · rfl
    · exact untagged_ofValue v _ e he
    · exact untagged_ofEntries rest _ e he

end

end Shape

/-! ### Reading what was written -/

namespace Tree

/-- JSON in any spelling without two escapes together is read as a tree without tags that has its
value, in which of entries with one key the first gives the place and the last the value. -/
theorem read_spells {v : Value} {text : String} {maxDepth : Nat}
    (h : Json.SpellsText false v text.toList) (hroom : v.height ≤ maxDepth)
    (hflow : v.height ≤ Lexer.maxFlowDepth) :
    ∃ t, read maxDepth text = .ok t ∧ t.value maxDepth = .ok (Shape.ofValue v).value ∧
      t.Tagged (· = "") := by
  have htokens := tokens_spells h hflow
  obtain ⟨es, hes, he⟩ := Scan.events_of_spells (Shape.spells_ofValue true [] v).1 htokens
  have hheight : (Shape.ofValue v).height ≤ maxDepth := by rwa [Shape.height_ofValue]
  obtain ⟨t, id, ht, hroot, hdenotes⟩ :=
    ofEvents_of_events (Shape.readable_ofValue v) hheight he
  have htags : ∀ e ∈ es, e.item.tag = "" := fun e hmem =>
    Shape.untagged_ofValue v [] e.item (he ▸ List.mem_map_of_mem hmem)
  exact ⟨t, (read_of_events hes).trans ht,
    value_of_denotes (by rw [hroot]) (by rw [rootValue?, hroot]; rfl) hdenotes
      (Shape.direct_ofValue v) hheight, tagged_ofEvents (P := (· = "")) rfl htags ht⟩

end Tree

/-! ### Whole documents -/

namespace Settings

variable {s : Settings} {t : Tree}

theorem decode_eq_read (hpattern : s.tagPattern = .tag) {text : String}
    (h : Tree.read s.maxDepth text = .ok t) (ht : t.Tagged (· = "")) : s.decode text = .ok t := by
  rw [decode, h]
  exact congrArg Except.ok (flatten_of_untagged hpattern ht)

/-- JSON that was written is read as a document of the same value and written again as it was, and
JSON on several lines too.  The empty map of a document without a value is one bracket deep: it is
read back unless no collection may be opened. -/
theorem decode_encodeJson {b : String} (hpattern : s.tagPattern = .tag)
    (hdepth : s.maxDepth ≤ Lexer.maxFlowDepth)
    (hroom : s.maxDepth = 0 → s.value t ≠ .ok (.map [])) (h : s.encodeJson t = .ok b) :
    (∃ t', s.decode b = .ok t' ∧ s.value t' = s.value t ∧ s.encodeJson t' = .ok b) ∧
      ∃ p t', s.encodePrettyJson t = .ok p ∧ s.decode p = .ok t' ∧ s.value t' = s.value t := by
  obtain ⟨v, hv, hb⟩ := bind_eq_ok h
  obtain rfl : v.toJson = b := by simpa [pure, Except.pure] using hb
  obtain ⟨hdistinct, hheight⟩ := Tree.value_ok hv
  have hfits : v.height ≤ s.maxDepth := by
    rcases hheight with hheight | rfl
    · exact hheight
    · have h0 : s.maxDepth ≠ 0 := fun h0 => hroom h0 hv
      rw [Value.height, Value.entriesHeight]
      omega
  have hread (text : String) (htext : Json.SpellsText false v text.toList) :
      ∃ t', s.decode text = .ok t' ∧ s.value t' = .ok v := by
    obtain ⟨t', ht', hv', htags⟩ := Tree.read_spells htext hfits (by omega)
    rw [Shape.value_ofValue v hdistinct] at hv'
    exact ⟨t', decode_eq_read hpattern ht' htags, hv'⟩
  obtain ⟨t₁, ht₁, hv₁⟩ := hread v.toJson (by
    rw [Value.toJson, String.toList_ofList]
    exact Json.spellsText_compact false v)
  obtain ⟨t₂, ht₂, hv₂⟩ := hread v.toPrettyJson (by
    rw [Value.toPrettyJson, String.toList_ofList]
    exact Json.spellsText_pretty false v)
  refine ⟨⟨t₁, ht₁, hv₁.trans hv.symm, ?_⟩, v.toPrettyJson, t₂, ?_, ht₂, hv₂.trans hv.symm⟩
  · rw [encodeJson, hv₁]
    rfl
  · rw [encodePrettyJson, hv]
    rfl

/-- A key that would end a plain scalar, and a text like a tag. -/
theorem decode_encodeJson_entry :
    ∃ t', default.decode "\x7b\"a: b\":\"!Find #\"\x7d" = .ok t' ∧
      default.encodeJson t' = .ok "\x7b\"a: b\":\"!Find #\"\x7d" := by
  obtain ⟨⟨t', hread, -, hwritten⟩, -⟩ := decode_encodeJson (s := default)
    (t := ⟨#[{ kind := .document, children := #[1] }, { kind := .mapping, children := #[2, 3] },
      { kind := .scalar, value := "a: b" }, { kind := .scalar, value := "!Find #" }], by decide⟩)
    (b := "\x7b\"a: b\":\"!Find #\"\x7d") rfl (by decide) (fun h => absurd h (by decide))
    (by decide +kernel)
  exact ⟨t', hread, hwritten⟩

/-- Where no collection may be opened, a document without a value is written but not read back. -/
theorem decode_encodeJson_empty :
    (⟨.tag, [.unquote], 0⟩ : Settings).encodeJson .empty = .ok "\x7b\x7d" ∧
      (⟨.tag, [.unquote], 0⟩ : Settings).decode "\x7b\x7d" = .error (.depthExceeded 0) :=
  ⟨by decide +kernel, by decide +kernel⟩

end Settings

end TaggedYaml
