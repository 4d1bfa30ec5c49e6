import TaggedYaml.Proofs.Json.RoundTrip
import TaggedYaml.Proofs.Json.Unordered
import TaggedYaml.Settings.File

/-!
# Settings files — one file read as YAML and as JSON

A settings file that is JSON is read in two ways: as a document, whose value is then taken apart, or by
the JSON reader.  Both give the same settings or none (`Settings.ofYaml_iff_ofJson`).  They part where a
field is set to nothing, which the value of a document cannot say, and where a field comes twice
(`Settings.ofYaml_null`).
-/

namespace TaggedYaml

open Json (Follows IsBlank Record Spells)

namespace Value

theorem itemsHeight_le {n : Nat} : ∀ {items : List Value}, (∀ v ∈ items, v.height ≤ n) →
    itemsHeight items ≤ n
  | [], _ => Nat.zero_le n
  | v :: rest, h => by
    rw [List.forall_mem_cons] at h
    exact Nat.max_le.mpr ⟨h.1, itemsHeight_le h.2⟩

theorem entriesHeight_le {n : Nat} : ∀ {entries : List (String × Value)},
    (∀ e ∈ entries, e.2.height ≤ n) → entriesHeight entries ≤ n
  | [], _ => Nat.zero_le n
  | (_, _) :: rest, h => by
    rw [List.forall_mem_cons] at h
    exact Nat.max_le.mpr ⟨h.1, entriesHeight_le h.2⟩

end Value

/-! ### Rules -/

namespace RuleDraft

/-- The entries of a rule: texts, among which no field comes twice. -/
structure IsFile (entries : List (String × Value)) : Prop where
  texts : ∀ e ∈ entries, ∃ s, e.2 = .text s
  once : record.Once entries

variable {entries : List (String × Value)} {pairs : Bool}

theorem apart : record.Apart :=
  List.pairwise_pair.mpr (Json.Field.apart_of_sets (fun _ _ => rfl) (fun _ _ => rfl)
    (fun _ _ _ => rfl) (fun _ _ => rfl) fun _ _ => rfl)

/-- A text is read as what it is. -/
theorem reads_textField (name : String) (get : RuleDraft → Option String)
    (set : RuleDraft → String → RuleDraft) (s : String) (x : RuleDraft) {r : Json.Reader}
    {gap here tail : List Char} (hg : IsBlank gap) (hv : Spells pairs (.text s) here)
    (h : r.rest = gap ++ (here ++ tail)) :
    Follows ((textField name get set).ofText x r) ((textField name get set).ofValue x (.text s))
      tail := by
  cases hv with
  | text hs =>
    obtain ⟨r', hr', hrest⟩ := Json.Reader.readText_spells hg hs h
    refine .ok ?_ hrest
    show r.readText.map _ = _
    rw [hr']
    rfl

theorem exists_of_mem {f : Json.Field RuleDraft} (h : f ∈ record.fields) :
    ∃ name get set, f = textField name get set := by
  rcases List.mem_pair.mp h with rfl | rfl
  · exact ⟨_, _, _, rfl⟩
  · exact ⟨_, _, _, rfl⟩

theorem IsFile.reads (h : IsFile entries) : ∀ e ∈ entries, record.Reads pairs e.1 e.2 := by
  rintro ⟨k, v⟩ he
  obtain ⟨s, rfl⟩ : ∃ s, v = .text s := h.texts _ he
  rw [Record.Reads]
  cases hfind : record.fields.find? (·.name == k) with
  | none => exact ⟨s, rfl⟩
  | some f =>
    obtain ⟨name, get, set, rfl⟩ := exists_of_mem (Record.field_of_find hfind).1
    exact fun x r gap here tail => reads_textField name get set s x

theorem IsFile.settled (h : IsFile entries) : ∀ e ∈ entries, record.Settled e.1 e.2 := by
  rintro ⟨k, v⟩ he f - x
  obtain ⟨s, rfl⟩ : ∃ s, v = .text s := h.texts _ he
  rw [Value.tidy_text]

/-- A rule is read from text as from its data. -/
theorem IsFile.ofText (h : IsFile entries) {r : Json.Reader} {here tail : List Char}
    (hv : Spells pairs (.map entries) here) (hr : r.rest = here ++ tail) :
    Follows (record.ofText {} r) (record.ofValue {} (.map entries)) tail := by
  refine Record.ofText_spells apart (fun f hf => ?_) hv h.reads h.once .nil hr
  rcases List.mem_pair.mp hf with rfl | rfl
  · rfl
  · rfl

end RuleDraft

/-! ### Files -/

namespace SettingsDraft

/-- The entries of a settings file: no field comes twice, the rules are a list of rules, and all other
entries are texts. -/
structure IsFile (entries : List (String × Value)) : Prop where
  once : record.Once entries
  rules : ∀ v, ("quote_strip_rules", v) ∈ entries →
    ∃ rules : List (List (String × Value)), v = .list (rules.map .map) ∧
      ∀ rule ∈ rules, RuleDraft.IsFile rule
  texts : ∀ k v, (k, v) ∈ entries → k ≠ "quote_strip_rules" → ∃ s, v = .text s

variable {entries : List (String × Value)} {pairs : Bool}

theorem rulesField_ofValue (x : SettingsDraft) (v : Value) : rulesField.ofValue x v =
    ((Json.listOfValue v >>= fun items => items.mapM (RuleDraft.record.ofValue {})).map fun rules =>
      { x with stripRules := some (some (rules.map (·.rule))) }) := by
  cases v with
  | list items =>
    show (items.mapM (RuleDraft.record.ofValue {}) >>= _) = (items.mapM (RuleDraft.record.ofValue {})).map _
    cases items.mapM (RuleDraft.record.ofValue {}) <;> rfl
  | text s => rfl
  | map entries => rfl

theorem apart : record.Apart := by
  refine .cons (fun f hf => ?_) (List.pairwise_pair.mpr ?_)
  · rcases List.mem_pair.mp hf with rfl | rfl
    · exact Json.Field.apart_of_sets (fun _ _ => rfl) rulesField_ofValue (fun _ _ _ => rfl)
        (fun _ _ => rfl) fun _ _ => rfl
    · exact Json.Field.apart_of_sets (fun _ _ => rfl) (fun _ _ => rfl) (fun _ _ _ => rfl)
        (fun _ _ => rfl) fun _ _ => rfl
  · exact Json.Field.apart_of_sets rulesField_ofValue (fun _ _ => rfl) (fun _ _ _ => rfl)
      (fun _ _ => rfl) fun _ _ => rfl

/-- A text is read as what it is. -/
theorem reads_textField (name : String) (get : SettingsDraft → Option (Option String))
    (set : SettingsDraft → Option String → SettingsDraft) (s : String) (x : SettingsDraft)
    {r : Json.Reader} {gap here tail : List Char} (hg : IsBlank gap)
    (hv : Spells pairs (.text s) here) (h : r.rest = gap ++ (here ++ tail)) :
    Follows ((textField name get set).ofText x r) ((textField name get set).ofValue x (.text s))
      tail := by
  have htext (r : Json.Reader) (hr : r.rest = here ++ tail) : Follows r.readText (.ok s) tail := by
    cases hv with
    | text hs =>
      obtain ⟨r', hr', hrest⟩ := Json.Reader.readText_spells .nil hs hr
      exact .ok hr' hrest
  have hread : Follows (r.readOptional (·.readText)) (.ok (some s)) tail :=
    Json.Reader.readOptional_spells hg hv htext h
  exact hread.map (set x)

/-- The rules are read one by one. -/
theorem reads_rulesField {rules : List (List (String × Value))}
    (hrules : ∀ rule ∈ rules, RuleDraft.IsFile rule) (x : SettingsDraft) {r : Json.Reader}
    {gap here tail : List Char} (hg : IsBlank gap) (hv : Spells pairs (.list (rules.map .map)) here)
    (h : r.rest = gap ++ (here ++ tail)) :
    Follows (rulesField.ofText x r) (rulesField.ofValue x (.list (rules.map .map))) tail := by
  have hlist (r : Json.Reader) (hr : r.rest = here ++ tail) :
      Follows (r.readList (RuleDraft.record.ofText {}))
        ((rules.map .map).mapM (RuleDraft.record.ofValue {})) tail := by
    refine Json.Reader.readList_spells .nil hv (fun v hmem r here tail hv hr => ?_) hr
    obtain ⟨rule, hrule, rfl⟩ := List.mem_map.mp hmem
    exact (hrules rule hrule).ofText hv hr
  have hread := (Json.Reader.readOptional_spells hg hv hlist h).map
    fun read => { x with stripRules := some (read.map (List.map RuleDraft.rule)) }
  rw [rulesField_ofValue, Json.listOfValue, bind_ok rfl]
  cases hmade : (rules.map Value.map).mapM (RuleDraft.record.ofValue {}) with
  | error e =>
    rw [hmade] at hread
    exact hread
  | ok drafts =>
    rw [hmade] at hread
    exact hread

theorem eq_of_find {key : String} {f : Json.Field SettingsDraft}
    (h : record.fields.find? (·.name == key) = some f) :
    f = rulesField ∧ key = "quote_strip_rules" ∨
      key ≠ "quote_strip_rules" ∧ ∃ name get set, f = textField name get set := by
  obtain ⟨hmem, rfl⟩ := Record.field_of_find h
  rcases List.mem_cons.mp hmem with rfl | hmem
  · exact .inr ⟨by decide, _, _, _, rfl⟩
  · rcases List.mem_pair.mp hmem with rfl | rfl
    · exact .inl ⟨rfl, rfl⟩
    · exact .inr ⟨by decide, _, _, _, rfl⟩

theorem IsFile.reads (h : IsFile entries) : ∀ e ∈ entries, record.Reads pairs e.1 e.2 := by
  rintro ⟨k, v⟩ he
  rw [Record.Reads]
  cases hfind : record.fields.find? (·.name == k) with
  | none =>
    refine h.texts k v he ?_
    rintro rfl
    cases hfind
  | some f =>
    intro x r gap here tail hg hv hr
    rcases eq_of_find hfind with ⟨rfl, rfl⟩ | ⟨hk, name, get, set, rfl⟩
    · obtain ⟨rules, rfl, hrules⟩ := h.rules v he
      exact reads_rulesField hrules x hg hv hr
    · obtain ⟨s, rfl⟩ := h.texts k v he hk
      exact reads_textField name get set s x hg hv hr

theorem IsFile.settled (h : IsFile entries) : ∀ e ∈ entries, record.Settled e.1 e.2 := by
  rintro ⟨k, v⟩ he f hfind x
  rcases eq_of_find hfind with ⟨rfl, rfl⟩ | ⟨hk, name, get, set, rfl⟩
  · obtain ⟨rules, rfl, hrules⟩ := h.rules v he
    rw [Value.tidy_list, rulesField_ofValue, rulesField_ofValue, toOption_map, toOption_map]
    have hitems : (((rules.map Value.map).map Value.tidy).mapM (RuleDraft.record.ofValue {})).toOption =
        ((rules.map Value.map).mapM (RuleDraft.record.ofValue {})).toOption := by
      rw [List.mapM_map]
      refine toOption_mapM_congr fun v hmem => ?_
      obtain ⟨rule, hrule, rfl⟩ := List.mem_map.mp hmem
      have hfile := hrules rule hrule
      exact Record.ofValue_tidy RuleDraft.apart hfile.once hfile.settled {}
    exact congrArg _ hitems
  · obtain ⟨s, rfl⟩ := h.texts k v he hk
    rw [Value.tidy_text]

/-- A settings file nests three deep. -/
theorem IsFile.height_le (h : IsFile entries) : (Value.map entries).height ≤ 3 := by
  refine Nat.succ_le_succ (Value.entriesHeight_le fun e he => ?_)
  obtain ⟨k, v⟩ := e
  by_cases hk : k = "quote_strip_rules"
  · subst hk
    obtain ⟨rules, rfl, hrules⟩ := h.rules v he
    refine Nat.succ_le_succ (Value.itemsHeight_le fun v hv => ?_)
    obtain ⟨rule, hrule, rfl⟩ := List.mem_map.mp hv
    refine Nat.succ_le_succ (Value.entriesHeight_le fun e he => ?_)
    obtain ⟨s, hs⟩ := (hrules rule hrule).texts e he
    rw [hs]
    exact Nat.le_refl 0
  · obtain ⟨s, rfl⟩ := h.texts k v he hk
    exact Nat.zero_le 2

end SettingsDraft

/-! ### Both ways -/

namespace Settings

open SettingsDraft (IsFile)

variable {entries : List (String × Value)} {text : String}

/-- The JSON reader reads of a file what its data says. -/
theorem ofJson_spells {pairs : Bool} (h : IsFile entries)
    (htext : Json.SpellsText pairs (.map entries) text.toList) :
    (SettingsText.ofJson text).toOption =
      (SettingsDraft.record.ofValue {} (.map entries)).toOption.map (·.settings) := by
  obtain ⟨gap, here, gap', hg, hv, hg', htext⟩ := htext
  have hblank : ∀ f ∈ SettingsDraft.record.fields, f.isSet {} = false := by
    intro f hf
    rcases List.mem_cons.mp hf with rfl | hf
    · rfl
    · rcases List.mem_pair.mp hf with rfl | rfl
      · rfl
      · rfl
  have hread : Follows (SettingsDraft.record.ofText {} (.ofList text.toList))
      (SettingsDraft.record.ofValue {} (.map entries)) gap' :=
    Record.ofText_spells SettingsDraft.apart hblank hv h.reads h.once hg htext
  rw [SettingsText.ofJson]
  cases hmade : SettingsDraft.record.ofValue {} (.map entries) with
  | error e =>
    rw [hmade] at hread
    obtain ⟨f, hf⟩ := hread
    rw [hf]
    rfl
  | ok d =>
    rw [hmade] at hread
    obtain ⟨r, hr, hrest⟩ := hread
    have hfinish : r.finish = .ok () := by
      have hend : r.skipBlanks.rest = [] :=
        Json.Reader.rest_skipBlanks hg' (fun c hc => by simp at hc) (by rw [hrest, List.append_nil])
      rw [Json.Reader.finish, hend]
      rfl
    rw [bind_ok hr]
    simp only [bind_ok hfinish]
    rfl

/-- A document is read as what the data of its text says. -/
theorem ofYaml_spells (h : IsFile entries)
    (htext : Json.SpellsText false (.map entries) text.toList) :
    (ofYaml text).toOption =
      ((SettingsDraft.record.ofValue {} (.map entries)).toOption.map (·.settings)).bind
        fun t => t.settings.toOption := by
  have hroom : (Value.map entries).height ≤ Tree.defaultMaxDepth := Nat.le_trans h.height_le (by decide)
  have hflow : (Value.map entries).height ≤ Lexer.maxFlowDepth := Nat.le_trans h.height_le (by decide)
  obtain ⟨t, ht, hvalue, -⟩ := Tree.read_spells htext hroom hflow
  have htidy := Record.ofValue_tidy SettingsDraft.apart h.once h.settled {}
  rw [ofYaml, bind_ok ht, bind_ok hvalue, toOption_bind, ← htidy, SettingsText.ofValue]
  show _ = (((SettingsDraft.record.ofValue {} (Value.tidy (.map entries))).toOption.map _).bind _)
  rw [Value.tidy]
  cases SettingsDraft.record.ofValue {} (Shape.ofValue (.map entries)).value.sortKeys with
  | error e => rfl
  | ok d => rfl

/-- Read as a document or by the JSON reader, a settings file gives the same settings or none, in
whatever order its fields come, however they are spelled, and whatever else stands between them. -/
theorem ofYaml_iff_ofJson (h : IsFile entries)
    (htext : Json.SpellsText false (.map entries) text.toList) (s : Settings) :
    ofYaml text = .ok s ↔ ∃ t, SettingsText.ofJson text = .ok t ∧ t.settings = .ok s := by
  have hagree : (ofYaml text).toOption =
      (SettingsText.ofJson text).toOption.bind fun t => t.settings.toOption := by
    rw [ofYaml_spells h htext, ofJson_spells h htext]
  rw [← toOption_eq_some, hagree, Option.bind_eq_some_iff]
  simp only [toOption_eq_some]

/-- The fields in another order, with entries between them that nobody asks for. -/
theorem ofYaml_iff_ofJson_shuffled : ∃ (v : Value) (s : Settings),
    v.toJson = "\x7b\"note\":\"x\",\"max_depth\":\"\\t16\",\"quote_strip_rules\":[\x7b\"replacement\":" ++
      "\"b\",\"why\":\"?\",\"pattern\":\"a\"\x7d],\"note\":\"y\"\x7d" ∧
    ofYaml v.toJson = .ok s ∧ (∃ t, SettingsText.ofJson v.toJson = .ok t ∧ t.settings = .ok s) ∧
    s.tagPattern = .tag ∧ s.stripRules.map (fun rule => (rule.pattern.source, rule.replacement)) =
      [("a", "b")] ∧ s.maxDepth = 16 := by
  obtain ⟨rule, hrule⟩ : ∃ rule : List (String × Value), rule =
      [("replacement", .text "b"), ("why", .text "?"), ("pattern", .text "a")] := ⟨_, rfl⟩
  obtain ⟨entries, hentries⟩ : ∃ entries : List (String × Value), entries = [("note", .text "x"),
      ("max_depth", .text "\t16"), ("quote_strip_rules", .list [.map rule]), ("note", .text "y")] :=
    ⟨_, rfl⟩
  have hruleFile : RuleDraft.IsFile rule := by
    subst hrule
    exact ⟨by simp, by decide⟩
  have hfile : IsFile entries := by
    refine ⟨by subst hentries hrule; decide, fun v hv => ?_, fun k v hv hk => ?_⟩
    · obtain rfl : v = .list [.map rule] := by simpa [hentries] using hv
      exact ⟨[rule], rfl, by simpa using hruleFile⟩
    · simp only [hentries, List.mem_cons, Prod.mk.injEq, hk, false_and, false_or, List.not_mem_nil,
        or_false] at hv
      rcases hv with ⟨-, rfl⟩ | ⟨-, rfl⟩ | ⟨-, rfl⟩
      · exact ⟨_, rfl⟩
      · exact ⟨_, rfl⟩
      · exact ⟨_, rfl⟩
  have hspells : Json.SpellsText false (.map entries) (Value.map entries).toJson.toList := by
    rw [Value.toJson, String.toList_ofList]
    exact Json.spellsText_compact false _
  obtain ⟨t, s, ht, hs, hsettings⟩ : ∃ t s, SettingsText.ofJson (Value.map entries).toJson = .ok t ∧
      t.settings = .ok s ∧ s.tagPattern = .tag ∧
      s.stripRules.map (fun rule => (rule.pattern.source, rule.replacement)) = [("a", "b")] ∧
      s.maxDepth = 16 := by
    subst hentries hrule
    exact ⟨⟨none, some [⟨"a", "b"⟩], some "\t16"⟩,
      ⟨.tag, [⟨⟨"a", .set (.range 'a' 'a')⟩, "b"⟩], 16⟩, by decide +kernel, by decide +kernel, rfl, rfl, rfl⟩
  exact ⟨.map entries, s, by subst hentries hrule; decide +kernel,
    (ofYaml_iff_ofJson hfile hspells s).mpr ⟨t, ht, hs⟩, ⟨t, ht, hs⟩, hsettings⟩

/-- A field that is set to nothing is left out for the JSON reader, but it is a text in the value of a
document.  A field that comes twice is refused by the JSON reader, while in the value of a document the
last one counts. -/
theorem ofYaml_null :
    (∃ t, SettingsText.ofJson "\x7b\"max_depth\": null\x7d" = .ok t ∧ t.settings = .ok default) ∧
      ofYaml "\x7b\"max_depth\": null\x7d" = .error (.badDepth "null") ∧
      (∃ f, SettingsText.ofJson "\x7b\"max_depth\":\"1\",\"max_depth\":\"2\"\x7d" = .error f) ∧
      ∃ s, ofYaml "\x7b\"max_depth\":\"1\",\"max_depth\":\"2\"\x7d" = .ok s ∧ s.maxDepth = 2 := by
  refine ⟨⟨{}, by decide +kernel, by decide +kernel⟩, by decide +kernel,
    ⟨⟨.repeatedField "max_depth", some ⟨1, 28⟩⟩, by decide +kernel⟩,
    ⟨default.tagPattern, default.stripRules, 2⟩, by decide +kernel, rfl⟩

end Settings

end TaggedYaml
