import TaggedYaml.Proofs.Json.Keeps
import TaggedYaml.Proofs.Json.RoundTrip

/-!
# Agree — two readers of JSON

A document may be read from JSON as YAML or through the JSON reader.  Both give documents of the same
value (`decode_readJson`), however blanks are set, strings are escaped and keys are repeated, unless a
character is written as two escapes: such a text is refused as YAML (`decode_readJson_pair`).
-/

namespace TaggedYaml

namespace Settings

/-- JSON whose leaves are strings is read by both readers as a document of its data, in which of
entries with one key the first gives the place and the last the value. -/
theorem decode_readJson {v : Value} {text : String} (h : Json.SpellsText false v text.toList)
    (hv : v.height ≤ 100) :
    ∃ t t', default.decode text = .ok t ∧ default.readJson text = .ok t' ∧
      default.value t = .ok (Json.Data.ofValue v).value ∧
      default.value t' = .ok (Json.Data.ofValue v).value := by
  have hroom : v.height < Json.depthLimit := Nat.lt_of_le_of_lt hv (by decide)
  have hflow : v.height ≤ Lexer.maxFlowDepth := Nat.le_trans hv (by decide)
  obtain ⟨t, ht, hvalue, htags⟩ := Tree.read_spells h (Nat.le_of_lt hroom) hflow
  obtain ⟨t', ht', hvalue'⟩ := readJson_spells (s := default) rfl h hroom (Nat.le_of_lt hroom)
  rw [← Json.Data.value_ofValue] at hvalue hvalue'
  exact ⟨t, t', decode_eq_read rfl ht htags, ht', hvalue, hvalue'⟩

/-- A text with tabs, line breaks around a colon, escapes and a key that comes twice. -/
theorem decode_readJson_twice :
    ∃ t t', default.decode "\t\x7b \"a\"\r\n:\t\"\\u0041\\/\" , \"b\":[],\"a\" :\n\"c\"\x7d\n" = .ok t ∧
      default.readJson "\t\x7b \"a\"\r\n:\t\"\\u0041\\/\" , \"b\":[],\"a\" :\n\"c\"\x7d\n" = .ok t' ∧
      default.value t = .ok (.map [("a", .text "c"), ("b", .list [])]) ∧
      default.value t' = .ok (.map [("a", .text "c"), ("b", .list [])]) := by
  have ha : Json.SpellsString false "a" ['"', 'a', '"'] :=
    ⟨[['a']], .cons (.plain (by decide) (by decide) (by decide)) .nil, rfl⟩
  have hb : Json.SpellsString false "b" ['"', 'b', '"'] :=
    ⟨[['b']], .cons (.plain (by decide) (by decide) (by decide)) .nil, rfl⟩
  have hc : Json.SpellsString false "c" ['"', 'c', '"'] :=
    ⟨[['c']], .cons (.plain (by decide) (by decide) (by decide)) .nil, rfl⟩
  have hescapes : Json.SpellsString false "A/" ['"', '\\', 'u', '0', '0', '4', '1', '\\', '/', '"'] :=
    ⟨[['\\', 'u', '0', '0', '4', '1'], ['\\', '/']],
      .cons (.code (by decide)) (.cons (.short (by decide)) .nil), rfl⟩
  have hspace : Json.IsBlank [' '] := by simp [Json.IsBlank]
  have htab : Json.IsBlank ['\t'] := by simp [Json.IsBlank]
  have hfeed : Json.IsBlank ['\n'] := by simp [Json.IsBlank]
  have hreturn : Json.IsBlank ['\r', '\n'] := by simp [Json.IsBlank]
  have hspells : Json.SpellsText false
      (.map [("a", .text "A/"), ("b", .list []), ("a", .text "c")])
      "\t\x7b \"a\"\r\n:\t\"\\u0041\\/\" , \"b\":[],\"a\" :\n\"c\"\x7d\n".toList :=
    ⟨['\t'], _, ['\n'], htab,
      .map (.entry (show Json.Separates true [' '] from hspace) ha hreturn htab (.text hescapes)
        (.entry ⟨[' '], [' '], hspace, hspace, rfl⟩ hb .nil .nil (.list (.close .nil))
          (.entry ⟨[], [], .nil, .nil, rfl⟩ ha hspace hfeed (.text hc) (.close .nil)))), hfeed, rfl⟩
  exact decode_readJson hspells (by decide)

/-- A character written as two escapes is read by the JSON reader alone. -/
theorem decode_readJson_pair :
    Json.SpellsText true (.text "😀") "\"\\ud83d\\ude00\"".toList ∧
      default.decode "\"\\ud83d\\ude00\"" = .error (.malformed ⟨⟨0, 1, 0⟩, .quotedCode⟩) ∧
      ∃ t, default.readJson "\"\\ud83d\\ude00\"" = .ok t ∧ default.value t = .ok (.text "😀") := by
  have hhigh : Json.code? ['d', '8', '3', 'd'] = some (0xD800 + ('😀'.toNat - 0x10000) / 0x400) := by
    decide
  have hlow : Json.code? ['d', 'e', '0', '0'] = some (0xDC00 + ('😀'.toNat - 0x10000) % 0x400) := by
    decide
  have hspells : Json.SpellsText true (.text "😀") "\"\\ud83d\\ude00\"".toList :=
    Json.spellsText_of_spells (.text
      ⟨[['\\', 'u', 'd', '8', '3', 'd', '\\', 'u', 'd', 'e', '0', '0']],
        .cons (.pair rfl (by decide) hhigh hlow) .nil, rfl⟩)
  exact ⟨hspells, by decide +kernel, readJson_spells (s := default) rfl hspells (by decide) (by decide)⟩

end Settings

end TaggedYaml
