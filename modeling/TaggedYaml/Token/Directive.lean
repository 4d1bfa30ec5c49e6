import TaggedYaml.Token.Property

/-!
# Directives

`%YAML` with a version, `%TAG` with a handle and an address, and any other name, of which the rest
of the line is passed over.
-/

namespace TaggedYaml

namespace Cursor

/-- A version number of at most nine digits. -/
def versionNumber (c : Cursor) : Except Defect Cursor :=
  let digits := c.run Char.isDigit
  if digits.isEmpty then .error .versionDigit
  else if digits.length > 9 then .error .versionLong
  else .ok ((c.passInk digits.length).look 1)

/-- What follows `%YAML`. -/
def versionDirective (c : Cursor) : Except Defect (Token × Cursor) := do
  let d ← (c.passBlanks isBlank).versionNumber
  if d.head? == some '.' then
    return (.versionDirective, ← (d.passInk 1).versionNumber)
  else throw .versionMark

/-- The address of a `%TAG` directive. -/
def tagAddress (c : Cursor) : Except Defect (List Char × Cursor) :=
  if c.head? == some '!' then do
    let (text, d) ← (c.passInk 1).tagText isUriChar
    return ('!' :: text, d)
  else if c.head?.any isTagChar then c.tagText isUriChar
  else .error .tagLead

/-- What follows `%TAG`. -/
def tagDirective (c : Cursor) : Except Defect (Token × Cursor) := do
  let (handle, d) ← (c.passBlanks isBlank).tagHandle true
  let (address, d) ← (d.passBlanks isBlank).tagAddress
  if d.head?.all isGap then
    return (.tagDirective (String.ofList handle) (String.ofList address), d)
  else throw .tagDirectiveEnd

end Cursor

namespace Lexer

/-- Reads the directive that begins at this `%`, without the rest of its line. -/
def readDirectiveBody (l : Lexer) : Except Fault (Token × Cursor) :=
  let c := (l.cursor.passInk 1).look 1
  let name := c.run isNameChar
  let d := (c.passInk name.length).look 1
  if name.isEmpty then .error ⟨c.mark, .directiveName⟩
  else if !d.head?.all isGap then .error ⟨c.mark, .directiveNameChar⟩
  else
    let body :=
      if name = ['Y', 'A', 'M', 'L'] then d.versionDirective
      else if name = ['T', 'A', 'G'] then d.tagDirective
      else .ok (.tagDirective "" "", d.passLine)
    body.mapError (⟨l.mark, ·⟩)

/-- Reads a directive and its line. -/
def readDirective (l : Lexer) : Except Fault Lexer := do
  let l ← (l.closeBlocks (-1)).dropKey
  let l := l.allowKey false
  let (t, c) ← l.readDirectiveBody
  let d := (← c.trailing true).cursor
  match d.head? with
  | none => return (l.move d).push l.mark t
  | some x =>
    if isBreak x then return (l.move (d.look 2).passBreak).push l.mark t
    else l.fail .directiveEnd

end Lexer

end TaggedYaml
