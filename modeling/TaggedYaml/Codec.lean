import TaggedYaml.Settings.Basic
import TaggedYaml.Tree.Flatten
import TaggedYaml.Tree.OfData
import TaggedYaml.Value.Json
import TaggedYaml.Value.OfTree

/-!
# Codec — documents to text and back

Reading flattens the extension tags of a document; writing gives YAML, in which spelled-out tags are
quoted strings, the same without these quotes, or JSON.
-/

namespace TaggedYaml

namespace Settings

/-- Flattens the nodes with extension tags. -/
def flatten (s : Settings) (t : Tree) : Tree.Flattened := t.flatten s.isExtensionTag

/-- Reads YAML or JSON and flattens extension tags. -/
def decode (s : Settings) (text : String) : Except Error Tree := do
  return (s.flatten (← Tree.read s.maxDepth text)).tree

/-- The document of data from a source, with extension tags flattened. -/
def collect (s : Settings) (d : Json.Data) : Except Json.Defect Tree := do
  return (s.flatten (← Tree.ofData d)).tree

/-- Reads JSON as data from a source.  This is stricter than `decode`, for which JSON is YAML. -/
def readJson (s : Settings) (text : String) : Except Json.Fault Tree := do
  (s.collect (← Json.Data.read text)).mapError fun d => ⟨d, none⟩

/-- The value of a document. -/
def value (s : Settings) (t : Tree) : Except Error Value := t.value s.maxDepth

/-- Writes YAML. -/
def encode (s : Settings) (t : Tree) : Except Error String := t.write s.maxDepth

/-- Writes YAML in which spelled-out tags are tags again. -/
def encodeStripped (s : Settings) (t : Tree) : Except Error String := do
  return s.strip (← s.encode t)

/-- Writes JSON without blanks. -/
def encodeJson (s : Settings) (t : Tree) : Except Error String := do
  return (← s.value t).toJson

/-- Writes JSON on several lines. -/
def encodePrettyJson (s : Settings) (t : Tree) : Except Error String := do
  return (← s.value t).toPrettyJson

/-- Reads a text and writes it again. -/
def reformat (s : Settings) (text : String) : Except Error String := do
  s.encodeStripped (← s.decode text)

end Settings

end TaggedYaml
