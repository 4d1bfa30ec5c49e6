import TaggedYaml.Fault
import TaggedYaml.Text.Utf8
import TaggedYaml.Tree.Basic

/-!
# Error — why an operation on documents fails
-/

namespace TaggedYaml

/-- Why an operation fails. -/
inductive Error where
  /-- The text is wrong. -/
  | malformed (f : Fault)
  /-- The bytes are no text. -/
  | notText (f : Utf8Fault)
  /-- The ceiling in a settings file is no number. -/
  | badDepth (text : String)
  /-- An end event does not close the innermost open collection. -/
  | unbalanced (kind : Kind)
  /-- A document node stands below another node. -/
  | nestedDocument
  /-- An alias stands for no node. -/
  | unresolvedAlias (name : String)
  /-- Collections nest deeper than the ceiling. -/
  | depthExceeded (maxDepth : Nat)
  /-- A pattern is not one. -/
  | badPattern (pattern : String)
  /-- JSON data is not what is asked for; the text says why. -/
  | json (text : String)
  /-- A number leads outside the tree. -/
  | foreignNode (id : NodeId)
  /-- The value of the document is an alias of the document. -/
  | endless
deriving DecidableEq, Repr

/-- A message about a text with its line and column, both counted from 1; 0 stands for no place. -/
def decodeMessage (line column : Nat) (text : String) : String :=
  "Decode error at line " ++ toString line ++ ", column " ++ toString column ++ ": " ++ text

/-- The wording of an error. -/
def Error.message : Error → String
  | malformed f => decodeMessage f.mark.line (f.mark.column + 1) f.defect.message
  | notText f => decodeMessage 0 0 ("input is not valid UTF-8: " ++ f.message)
  | badDepth text =>
    decodeMessage 0 0 ("max_depth must be a non-negative integer, got '" ++ text ++ "'")
  | unbalanced kind => decodeMessage 0 0 ("unbalanced " ++ kind.name ++ " end event")
  | nestedDocument =>
    "Unsupported node kind: " ++ Kind.document.name ++ " (nested below the root)"
  | unresolvedAlias name => "Unresolved alias: *" ++ name
  | depthExceeded maxDepth =>
    "Document nesting too deep (max depth: " ++ toString maxDepth ++ ")"
  | badPattern pattern => "Invalid pattern '" ++ pattern ++ "'"
  | json text => "JSON error: " ++ text
  | foreignNode id => "node " ++ toString id ++ " is not in this tree"
  | endless => "the document is an alias of itself"

end TaggedYaml
