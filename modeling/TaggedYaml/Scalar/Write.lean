import TaggedYaml.Json.Text
import TaggedYaml.Scalar.Meaning
import TaggedYaml.Text.Class
import TaggedYaml.Tree.Basic

/-!
# Writing scalars

A text is written plain if it reads back as the same text, and as a string where it has to be one;
otherwise between single quotes, or between double quotes if it holds control characters.  A text
of several lines may be written as a literal block.
-/

namespace TaggedYaml

/-- Characters that a plain scalar must not begin with. -/
def plainStops : List Char :=
  ['!', '&', '*', '\x7b', '\x7d', '[', ']', '|', '>', '\'', '"', '%', '@', '\x60', '#', ',']

/-- A control character other than a tab. -/
def isHidden (c : Char) : Bool := isControl c && c != '\t'

/-- A blank before `#` begins a comment, and a blank behind `:` ends a key. -/
def breaksPlain : List Char → Bool
  | a :: b :: rest =>
    (isBlank a && b == '#') || (a == ':' && isBlank b) || breaksPlain (b :: rest)
  | _ => false

/-- A text that can be written without quotes and reads back as it is. -/
def isPlainText (s : List Char) : Bool :=
  match s with
  | [] => false
  | c :: rest =>
    !isWhite c && !s.getLast?.any isWhite && !s.any isHidden && !plainStops.contains c &&
      !((c == '-' || c == '?' || c == ':') && rest.head?.all isWhite) &&
      !(['-', '-', '-'].isPrefixOf s) && !(['.', '.', '.'].isPrefixOf s) &&
      !breaksPlain s && s.getLast? != some ':'

/-- A character between single quotes. -/
def singleChar (c : Char) : List Char := if c == '\'' then ['\'', '\''] else [c]

/-- A text between single quotes. -/
def singleQuote (s : List Char) : List Char := '\'' :: (s.flatMap singleChar ++ ['\''])

/-- A character between double quotes. -/
def doubleChar (c : Char) : List Char :=
  match c with
  | '"' => ['\\', '"']
  | '\\' => ['\\', '\\']
  | '\n' => ['\\', 'n']
  | '\t' => ['\\', 't']
  | '\r' => ['\\', 'r']
  | '\x00' => ['\\', '0']
  | c => if isControl c then '\\' :: 'u' :: Json.hexDigits true c.toNat else [c]

/-- A text between double quotes. -/
def doubleQuote (s : List Char) : List Char := '"' :: (s.flatMap doubleChar ++ ['"'])

/-- The shortest form on one line that reads back as a string. -/
def writeString (s : List Char) : List Char :=
  if isPlainText s && !hasOtherMeaning s then s
  else if s.any isHidden then doubleQuote s
  else singleQuote s

namespace Node

/-- A scalar on one line. -/
def inlineText (n : Node) : List Char :=
  let s := n.value.toList
  if !n.isString && (s.isEmpty || isPlainText s) then s else writeString s

/-- The header and the lines of a literal block that reads back as the text of a node, if its text
has several lines and can be written so. -/
def literalBlock? (n : Node) : Option (List Char × List Char) :=
  let s := n.value.toList
  if !s.contains '\n' || s.head? == some ' ' || s.head? == some '\n' ||
      s.any (fun c => isHidden c && c != '\n') then none
  else if ['\n', '\n'].isSuffixOf s then some (['|', '+'], s.dropLast)
  else if s.getLast? == some '\n' then some (['|'], s.dropLast)
  else some (['|', '-'], s)

/-- The anchor and the tag of a node, if it is not a core tag. -/
def properties (n : Node) : List Char :=
  let anchor := n.anchor.map fun a => '&' :: a.toList
  let tag := if n.hasOwnTag && n.kind != .alias then some n.tag.toList else none
  match anchor, tag with
  | some a, some t => a ++ ' ' :: t
  | some a, none => a
  | none, some t => t
  | none, none => []

end Node

/-- Properties before a text. -/
def joinProperties (properties text : List Char) : List Char :=
  if properties.isEmpty then text
  else if text.isEmpty then properties
  else properties ++ ' ' :: text

/-- The lines of a text. -/
def splitLines : List Char → List (List Char)
  | [] => [[]]
  | c :: rest =>
    if c == '\n' then [] :: splitLines rest
    else
      match splitLines rest with
      | line :: lines => (c :: line) :: lines
      | [] => [[c]]

end TaggedYaml
