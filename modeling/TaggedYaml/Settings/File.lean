import TaggedYaml.Json.Record
import TaggedYaml.Settings.Basic
import TaggedYaml.Value.OfTree

/-!
# Settings files

A file may leave out any of the settings, and its patterns and numbers are texts.  It is YAML, read
by way of plain data, or JSON.
-/

namespace TaggedYaml

/-- A rule as a file gives it. -/
structure RuleText where
  pattern : String
  replacement : String
deriving DecidableEq, Repr

/-- Settings as a file gives them. -/
structure SettingsText where
  tagPattern : Option String := none
  stripRules : Option (List RuleText) := none
  maxDepth : Option String := none
deriving DecidableEq, Repr

/-! ### The form of a file -/

/-- What has been read of a rule. -/
structure RuleDraft where
  pattern : Option String := none
  replacement : Option String := none

/-- What has been read of a file; a field may be set to nothing. -/
structure SettingsDraft where
  tagPattern : Option (Option String) := none
  stripRules : Option (Option (List RuleText)) := none
  maxDepth : Option (Option String) := none

namespace RuleDraft

/-- The field of a text. -/
def textField (name : String) (get : RuleDraft → Option String)
    (set : RuleDraft → String → RuleDraft) : Json.Field RuleDraft where
  name := name
  isSet d := (get d).isSome
  ofText d r := r.readText.map fun (s, r) => (set d s, r)
  ofValue d v := (Json.textOfValue v).map (set d)

def record : Json.Record RuleDraft where
  name := "struct QuoteStripRuleFile"
  required := some (textField "pattern" (·.pattern) fun d s => { d with pattern := some s })
  optional := [textField "replacement" (·.replacement) fun d s => { d with replacement := some s }]

/-- The rule; a replacement that is left out is empty. -/
def rule (d : RuleDraft) : RuleText := ⟨d.pattern.getD "", d.replacement.getD ""⟩

end RuleDraft

namespace SettingsDraft

/-- The field of a text or nothing. -/
def textField (name : String) (get : SettingsDraft → Option (Option String))
    (set : SettingsDraft → Option String → SettingsDraft) : Json.Field SettingsDraft where
  name := name
  isSet d := (get d).isSome
  ofText d r := (r.readOptional (·.readText)).map fun (s, r) => (set d s, r)
  ofValue d v := (Json.textOfValue v).map fun s => set d (some s)

/-- The field of the rules. -/
def rulesField : Json.Field SettingsDraft where
  name := "quote_strip_rules"
  isSet d := d.stripRules.isSome
  ofText d r :=
    (r.readOptional fun r => r.readList (RuleDraft.record.ofText {})).map fun (rules, r) =>
      ({ d with stripRules := some (rules.map fun l => l.map (·.rule)) }, r)
  ofValue d v := do
    let rules ← (← Json.listOfValue v).mapM fun v => RuleDraft.record.ofValue {} v
    return { d with stripRules := some (some (rules.map (·.rule))) }

def record : Json.Record SettingsDraft where
  name := "struct ModelConfigFile"
  required := none
  optional :=
    [textField "extension_tag_pattern" (·.tagPattern) fun d s => { d with tagPattern := some s },
      rulesField,
      textField "max_depth" (·.maxDepth) fun d s => { d with maxDepth := some s }]

/-- The settings that are set. -/
def settings (d : SettingsDraft) : SettingsText :=
  ⟨d.tagPattern.join, d.stripRules.join, d.maxDepth.join⟩

end SettingsDraft

/-! ### Reading -/

namespace SettingsText

/-- Reads JSON. -/
def ofJson (text : String) : Except Json.Fault SettingsText := do
  let (d, r) ← SettingsDraft.record.ofText {} (.ofList text.toList)
  r.finish
  return d.settings

/-- Reads plain data, of every map in the order of its keys. -/
def ofValue (v : Value) : Except Json.Defect SettingsText := do
  return (← SettingsDraft.record.ofValue {} v.sortKeys).settings

end SettingsText

/-- A text without the white space around it. -/
def trimWhite (s : List Char) : List Char :=
  ((s.dropWhile isWhite).reverse.dropWhile isWhite).reverse

/-- A number of at most 64 bits in digits, with or without a plus sign. -/
def readDepth? (s : List Char) : Option Nat :=
  let ds := if s.head? == some '+' then s.tail else s
  let n := ds.foldl (fun n d => 10 * n + (d.toNat - '0'.toNat)) 0
  if ds.isEmpty || !ds.all Char.isDigit || n ≥ Json.wordBound then none else some n

namespace Pattern

/-- A text that has to be a pattern. -/
def ofString (source : String) : Except Error Pattern :=
  match ofString? source with
  | some p => .ok p
  | none => .error (.badPattern source)

end Pattern

/-- A rule whose pattern has to be one. -/
def StripRule.ofText (pattern replacement : String) : Except Error StripRule := do
  return ⟨← Pattern.ofString pattern, replacement⟩

namespace SettingsText

/-- The settings of a file; what it leaves out is as in the settings where none are given. -/
def settings (t : SettingsText) : Except Error Settings := do
  let tagPattern ←
    match t.tagPattern with
    | some source => Pattern.ofString source
    | none => pure Settings.default.tagPattern
  let stripRules ←
    match t.stripRules with
    | some rules => rules.mapM fun rule => StripRule.ofText rule.pattern rule.replacement
    | none => pure Settings.default.stripRules
  let maxDepth ←
    match t.maxDepth with
    | some text =>
      match readDepth? (trimWhite text.toList) with
      | some n => pure n
      | none => throw (.badDepth text)
    | none => pure Settings.default.maxDepth
  return { tagPattern, stripRules, maxDepth }

end SettingsText

/-- Reads settings from YAML. -/
def Settings.ofYaml (text : String) : Except Error Settings := do
  let t ← Tree.read Tree.defaultMaxDepth text
  let v ← t.value Tree.defaultMaxDepth
  (← (SettingsText.ofValue v).mapError fun d => .json d.message).settings

end TaggedYaml
