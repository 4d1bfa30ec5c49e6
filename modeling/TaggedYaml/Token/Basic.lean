import TaggedYaml.Text.Cursor

/-!
# Token — the words of the markup

A text is a list of tokens.  Starts and ends of block collections are tokens too, although no
character of the text stands for them: they are read off the indentation.
-/

namespace TaggedYaml

/-- How a scalar is written. -/
inductive Style where
  | plain
  | single
  | double
  | literal
  | folded
deriving DecidableEq, Repr

/-- Every style but the plain one. -/
def Style.isQuoted (s : Style) : Bool := s != .plain

/-- A thing with its place in the text. -/
structure Marked (α : Type) where
  mark : Mark
  item : α
deriving DecidableEq, Repr

/-- A word of the markup. -/
inductive Token where
  | textEnd
  | versionDirective
  /-- `%TAG` with a handle and what it stands for; directives with other names count as one with
  both parts empty. -/
  | tagDirective (handle address : String)
  | documentStart
  | documentEnd
  | blockSequenceStart
  | blockMappingStart
  | blockEnd
  | flowSequenceStart
  | flowSequenceEnd
  | flowMappingStart
  | flowMappingEnd
  | blockEntry
  | flowEntry
  | key
  | value
  | alias (name : String)
  | anchor (name : String)
  | tag (handle suffix : String)
  | scalar (style : Style) (text : String)
deriving DecidableEq, Repr

end TaggedYaml
