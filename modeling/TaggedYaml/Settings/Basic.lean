import TaggedYaml.Pattern.Read
import TaggedYaml.Pattern.Template
import TaggedYaml.Tree.Build

/-!
# Settings

What counts as an extension tag, how the quotes around spelled-out tags are removed from text, and
how deep collections may nest.
-/

namespace TaggedYaml

/-- Replaces what matches a pattern. -/
structure StripRule where
  pattern : Pattern
  replacement : String
deriving DecidableEq, Repr

/-- The settings of a codec. -/
structure Settings where
  tagPattern : Pattern
  /-- They apply in this order. -/
  stripRules : List StripRule
  maxDepth : Nat
deriving DecidableEq, Repr

/-- Tags of one exclamation mark and a word. -/
def Pattern.tag : Pattern where
  source := "^!\\w+"
  expr := .seq (.look .textStart) (.seq (.set (.one '!')) (.loop (.set .word) 1 none true))

/-- A quote, what begins with an exclamation mark, and the last quote of the line. -/
def Pattern.quotedTag : Pattern where
  source := "['\"](?P<content>!.*)['\"]"
  expr :=
    let quote : Pattern.Expr := .set (.union (.union .empty (.one '\'')) (.one '"'))
    .seq quote
      (.seq
        (.group 1 (some "content")
          (.seq (.set (.one '!')) (.loop (.set (.compl (.one '\n'))) 0 none true)))
        quote)

/-- The expression is what the text says. -/
theorem Pattern.ofString?_source_tag : ofString? tag.source = some tag := by decide +kernel

/-- The expression is what the text says. -/
theorem Pattern.ofString?_source_quotedTag : ofString? quotedTag.source = some quotedTag := by
  decide +kernel

/-- Removes the quotes around a spelled-out tag. -/
def StripRule.unquote : StripRule := ⟨.quotedTag, "$\x7bcontent\x7d"⟩

namespace Settings

/-- The settings where none are given. -/
def default : Settings := ⟨.tag, [.unquote], Tree.defaultMaxDepth⟩

/-- A tag that matches the pattern of extension tags.  Core tags never are extension tags. -/
def isExtensionTag (s : Settings) (tag : String) : Bool :=
  !isCoreTag tag && s.tagPattern.matchesIn tag

/-- Applies all rules to a text. -/
def strip (s : Settings) (text : String) : String :=
  s.stripRules.foldl (fun text rule => rule.pattern.replaceAll rule.replacement text) text

end Settings

end TaggedYaml
