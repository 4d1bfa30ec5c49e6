import TaggedYaml.Token.Space

/-!
# Tags, anchors and aliases

A tag is read as a handle and a suffix.  `%` and two hexadecimal digits in a tag stand for one
octet; the octets of one character are told by the first of them, as in UTF-8, and its code point
is the number with these octets as digits, markers included.
-/

namespace TaggedYaml

/-- How many octets a character begins with an octet like this one. -/
def octetWidth? (octet : Nat) : Option Nat :=
  if octet < 0x80 then some 1
  else if octet / 32 = 6 then some 2
  else if octet / 16 = 14 then some 3
  else if octet / 8 = 30 then some 4
  else none

/-- The text of a tag and the number of characters read.  With `wait > 0` that many octets of a
character are missing, and `code` is made of those already read. -/
def readTagText (p : Char → Bool) : Nat → Nat → List Char → Except Defect (List Char × Nat)
  | 0, _, [] => .ok ([], 0)
  | _ + 1, _, [] => .error .octetMissing
  | wait, code, c :: rest =>
    if wait == 0 && !p c then .ok ([], 0)
    else if wait == 0 && c != '%' then do
      let (text, n) ← readTagText p 0 0 rest
      return (c :: text, n + 1)
    else
      match rest with
      | a :: b :: rest =>
        match c == '%', hexValue? a, hexValue? b with
        | true, some x, some y => do
          let octet := 16 * x + y
          let wait ←
            if wait == 0 then
              match octetWidth? octet with
              | some w => pure (w - 1)
              | none => throw .octetLeading
            else if octet / 64 = 2 then pure (wait - 1)
            else throw .octetTrailing
          let code := 256 * code + octet
          if wait = 0 then
            match charOfCode? code with
            | some x => do
              let (text, n) ← readTagText p 0 0 rest
              return (x :: text, n + 3)
            | none => throw .octetCode
          else do
            let (text, n) ← readTagText p wait code rest
            return (text, n + 3)
        | _, _, _ => .error .octetMissing
      | _ => .error .octetMissing

namespace Cursor

/-- Reads the text of a tag. -/
def tagText (c : Cursor) (p : Char → Bool) : Except Defect (List Char × Cursor) := do
  let (text, n) ← readTagText p 0 0 c.rest
  return (text, (c.passInk n).look 1)

/-- `!`, a name and perhaps a second `!`.  In a directive only a lone `!` may do without it. -/
def tagHandle (c : Cursor) (inDirective : Bool) : Except Defect (List Char × Cursor) :=
  if c.head? != some '!' then .error .tagBang
  else
    let name := (c.passInk 1).run isNameChar
    let d := (c.passInk (1 + name.length)).look 1
    if d.head? == some '!' then .ok ('!' :: name ++ ['!'], d.passInk 1)
    else if inDirective && !name.isEmpty then .error .tagDirectiveHandle
    else .ok ('!' :: name, d)

/-- `!<address>`. -/
def verbatimTag (c : Cursor) : Except Defect (Token × Cursor) := do
  let (text, d) ← (c.passInk 2).tagText isUriChar
  if d.head? == some '>' then
    return (.tag "" (String.ofList text), d.passInk 1)
  else throw .verbatimTagOpen

/-- `!handle!suffix`, `!suffix` or `!`. -/
def shorthandTag (c : Cursor) : Except Defect (Token × Cursor) := do
  let (handle, d) ← c.tagHandle false
  let (text, d) ← d.tagText isTagChar
  if handle.length ≥ 2 && handle.getLast? == some '!' then
    if text.isEmpty then throw .tagEmpty
    return (.tag (String.ofList handle) (String.ofList text), d)
  else
    let suffix := handle.tail ++ text
    if suffix.isEmpty then return (.tag "" "!", d)
    return (.tag "!" (String.ofList suffix), d)

/-- A tag, up to a blank, the end of the line or, between brackets, an indicator. -/
def tag (c : Cursor) (inFlow : Bool) : Except Defect (Token × Cursor) := do
  let c := c.look 2
  let (t, d) ← if c.second? == some '<' then c.verbatimTag else c.shorthandTag
  let d := d.look 1
  if d.head?.all isGap || (inFlow && d.head?.any isFlowMark) then return (t, d)
  throw .tagEnd

end Cursor

namespace Lexer

/-- Reads a tag. -/
def readTag (l : Lexer) : Except Fault Lexer :=
  let l := l.saveKey.allowKey false
  match l.cursor.tag l.inFlow with
  | .ok (t, c) => .ok ((l.move c).push l.mark t)
  | .error d => l.fail d

/-- Reads `&name` or `*name`. -/
def readName (l : Lexer) (t : String → Token) : Except Fault Lexer :=
  let l := l.saveKey.allowKey false
  let name := (l.cursor.passInk 1).run isAnchorChar
  if name.isEmpty then l.fail .anchorName
  else .ok ((l.move ((l.cursor.passInk (1 + name.length)).look 1)).push l.mark
    (t (String.ofList name)))

end Lexer

end TaggedYaml
