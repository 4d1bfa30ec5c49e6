import TaggedYaml.Proofs.Json.Strict
import TaggedYaml.Proofs.Shape.OfValue
import TaggedYaml.Proofs.Tree.Collected

/-!
# Keeps — documents that come from data and go back to it

Data for which a document has a place becomes a document of its value, JSON whose leaves are strings
is written again as it was read but for blanks and escapes, and a document that is written as JSON is
read as one of the same value (`collect_keeps`).  There is no place for an integer of 128 bits, even
if it is small (`collect_long`).
-/

namespace TaggedYaml

open Json (Data)

namespace Shape

mutual

theorem ofData_ofValue : ∀ v : Value, ofData (.ofValue v) = ofValue v
  | .text _ => rfl
  | .list items => by rw [Data.ofValue, ofData, itemsOfData_itemsOfValue items, ofValue]
  | .map entries => by rw [Data.ofValue, ofData, entriesOfData_entriesOfValue entries, ofValue]

theorem itemsOfData_itemsOfValue : ∀ items : List Value,
    itemsOfData (Data.itemsOfValue items) = ofItems items
  | [] => rfl
  | v :: rest => by
    rw [Data.itemsOfValue, itemsOfData, ofData_ofValue v, itemsOfData_itemsOfValue rest, ofItems]

theorem entriesOfData_entriesOfValue : ∀ entries : List (String × Value),
    entriesOfData (Data.entriesOfValue entries) = ofEntries entries
  | [] => rfl
  | (k, v) :: rest => by
    rw [Data.entriesOfValue, entriesOfData, ofData_ofValue v, entriesOfData_entriesOfValue rest,
      ofEntries]
    rfl

end

end Shape

namespace Json.Data

theorem value_ofValue (v : Value) : (ofValue v).value = (Shape.ofValue v).value := by
  rw [← Shape.value_ofData, Shape.ofData_ofValue]

theorem height_ofValue (v : Value) : (ofValue v).height = v.height := by
  rw [← Shape.height_ofData, Shape.ofData_ofValue, Shape.height_ofValue]

mutual

/-- A document has a place for plain data. -/
theorem defect?_ofValue : ∀ v : Value, (ofValue v).defect? = none
  | .text _ => rfl
  | .list items => by rw [ofValue, defect?, itemsDefect?_itemsOfValue items]
  | .map entries => by rw [ofValue, defect?, entriesDefect?_entriesOfValue entries]

theorem itemsDefect?_itemsOfValue : ∀ items : List Value, itemsDefect? (itemsOfValue items) = none
  | [] => rfl
  | v :: rest => by
    rw [itemsOfValue, itemsDefect?, defect?_ofValue v, itemsDefect?_itemsOfValue rest]
    rfl

theorem entriesDefect?_entriesOfValue : ∀ entries : List (String × Value),
    entriesDefect? (entriesOfValue entries) = none
  | [] => rfl
  | (_, v) :: rest => by
    rw [entriesOfValue, entriesDefect?, defect?_ofValue v, entriesDefect?_entriesOfValue rest]
    rfl

end

end Json.Data

namespace Settings

variable {s : Settings} {v : Value} {text : String} {pairs : Bool}

/-- JSON whose leaves are strings is read as a document of its value, in which of entries with one
key the first gives the place and the last the value. -/
theorem readJson_spells (hpattern : s.tagPattern = .tag)
    (h : Json.SpellsText pairs v text.toList) (hv : v.height < Json.depthLimit)
    (hd : v.height ≤ s.maxDepth) :
    ∃ t, s.readJson text = .ok t ∧ s.value t = .ok (Shape.ofValue v).value := by
  have hheight : (Data.ofValue v).height ≤ s.maxDepth := by rwa [Data.height_ofValue]
  obtain ⟨t, ht, hvalue⟩ := value_collect hpattern (Data.defect?_ofValue v) hheight
  refine ⟨t, ?_, by rw [hvalue, Data.value_ofValue]⟩
  rw [readJson, bind_ok (Data.read_spells h hv), ht]
  rfl

/-- Data is refused for its first defect alone: an integer of 128 bits, another kind for which a
document has no place, or the failure of the source.  Any other data becomes a document of its value,
which has a text for each scalar and one entry for each key.  So JSON without repeated keys is written
again as it was read, but for blanks and escapes, and what is written of a document is read as a
document of the same value. -/
theorem collect_keeps (d : Data) :
    (∀ e, default.collect d = .error e ↔ d.defect? = some e) ∧
    (d.defect? = none → d.height ≤ 128 →
      ∃ t, default.collect d = .ok t ∧ default.value t = .ok d.value) ∧
    (∀ (text : String) (v : Value), Json.SpellsText true v text.toList → v.Distinct →
      v.height ≤ 127 → ∃ t, default.readJson text = .ok t ∧ default.encodeJson t = .ok v.toJson) ∧
    ∀ (t : Tree) (v : Value), default.value t = .ok v → v.height ≤ 127 →
      ∃ text t', default.encodeJson t = .ok text ∧ default.readJson text = .ok t' ∧
        default.value t' = .ok v := by
  have hread {text : String} {v : Value} (h : Json.SpellsText true v text.toList)
      (hdistinct : v.Distinct) (hv : v.height ≤ 127) :
      ∃ t, default.readJson text = .ok t ∧ default.value t = .ok v := by
    have hroom : v.height < Json.depthLimit := Nat.lt_succ_of_le hv
    obtain ⟨t, ht, hvalue⟩ := readJson_spells (s := default) rfl h hroom (Nat.le_of_lt hroom)
    exact ⟨t, ht, by rw [hvalue, Shape.value_ofValue v hdistinct]⟩
  have hwrite {t : Tree} {v : Value} (h : default.value t = .ok v) :
      default.encodeJson t = .ok v.toJson := by
    rw [encodeJson, h]
    rfl
  refine ⟨fun e => collect_eq_error, fun h hd => value_collect (s := default) rfl h hd,
    fun text v h hdistinct hv => ?_, fun t v h hv => ?_⟩
  · obtain ⟨t, ht, hvalue⟩ := hread h hdistinct hv
    exact ⟨t, ht, hwrite hvalue⟩
  · have hspells : Json.SpellsText true v v.toJson.toList := by
      rw [Value.toJson, String.toList_ofList]
      exact Json.spellsText_compact true v
    obtain ⟨t', ht', hvalue⟩ := hread hspells (Tree.value_ok h).1 hv
    exact ⟨v.toJson, t', hwrite h, ht', hvalue⟩

/-- A byte string that comes before an integer of 128 bits; keys that are a number, the same number as
text and a list; JSON with blanks and an escape; a document that repeats a key. -/
theorem collect_keeps_keys :
    default.collect (.list [.null, .map [(.bytes, .long false 1)]]) =
      .error (.found .bytes Tree.dataExpected) ∧
    (∃ t, default.collect (.map [(.int true 1, .text "a"), (.list [.null], .bool true),
        (.text "1", .some .null)]) = .ok t ∧
      default.value t = .ok (.map [("1", .text "null"), ("", .text "true")])) ∧
    (∃ t, default.readJson "[ \"\\u0061\",\t\x7b\x7d ]" = .ok t ∧
      default.encodeJson t = .ok "[\"a\",\x7b\x7d]") ∧
    ∃ text t', default.encodeJson ⟨#[{ kind := .document, children := #[1] },
        { kind := .mapping, children := #[2, 3, 2, 2] }, { kind := .scalar, value := "k" },
        { kind := .sequence }], by decide⟩ = .ok text ∧
      default.readJson text = .ok t' ∧ default.value t' = .ok (.map [("k", .text "k")]) := by
  obtain ⟨hrefuse, -, hread, hwrite⟩ := collect_keeps (.list [.null, .map [(.bytes, .long false 1)]])
  obtain ⟨-, hcollect, -, -⟩ := collect_keeps (.map [(.int true 1, .text "a"), (.list [.null], .bool true),
    (.text "1", .some .null)])
  refine ⟨(hrefuse _).mpr rfl, hcollect rfl (by decide), ?_, hwrite _ _ (by cbv) (by decide)⟩
  have hspells : Json.SpellsText true (.list [.text "a", .map []])
      "[ \"\\u0061\",\t\x7b\x7d ]".toList := by
    have ha : Json.SpellsString true "a" ['"', '\\', 'u', '0', '0', '6', '1', '"'] :=
      ⟨[['\\', 'u', '0', '0', '6', '1']], .cons (.code (by decide)) .nil, rfl⟩
    have hb : Json.IsBlank [' '] := by simp [Json.IsBlank]
    have ht : Json.IsBlank ['\t'] := by simp [Json.IsBlank]
    exact ⟨[], _, [], .nil, .list (.item hb (.text ha)
      (.item ⟨[], ['\t'], .nil, ht, rfl⟩ (.map (.close .nil)) (.close hb))), .nil, rfl⟩
  exact hread _ (.list [.text "a", .map []]) hspells ⟨trivial, ⟨List.nodup_nil, trivial⟩, trivial⟩
    (by decide)

/-- A source may deliver a small number as an integer of 128 bits, and it is refused. -/
theorem collect_long :
    default.collect (.long true 5) = .error (.found (.long true 5) Tree.dataExpected) ∧
      (Json.Defect.found (.long true 5) Tree.dataExpected).message =
        "invalid type: integer \x605\x60 as i128, expected " ++ Tree.dataExpected :=
  ⟨rfl, by decide +kernel⟩

end Settings

end TaggedYaml
