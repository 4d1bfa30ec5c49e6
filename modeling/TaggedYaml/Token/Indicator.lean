import TaggedYaml.Token.Space

/-!
# Indicators

The characters that shape collections: brackets, commas, `-`, `?` and `:`, and the document
indicators `---` and `...`.
-/

namespace TaggedYaml

namespace Lexer

/-- The number of flow brackets that may be open at once. -/
def maxFlowDepth : Nat := 255

/-- Ends a pair without braces. -/
def endPair (l : Lexer) (m : Mark) : Lexer :=
  if l.inPair then { l with inPair := false, inBraces := false }.push m .flowMappingEnd else l

/-- `[` or `{`. -/
def openFlow (l : Lexer) (t : Token) : Except Fault Lexer :=
  let l := l.saveKey.indentContent
  if l.flowDepth ≥ maxFlowDepth then l.fail .flowTooDeep
  else do
    let r := { l with
      spots := .none :: l.spots
      flowDepth := l.flowDepth + 1
      keyAllowed := true
      inBraces := l.inBraces || t == Token.flowMappingStart }
    let r ← (r.move (l.cursor.passInk 1)).skipTrailing
    return r.push l.mark t

/-- `]` or `}`. -/
def closeFlow (l : Lexer) (t : Token) : Except Fault Lexer := do
  let l ← l.dropKey
  let l :=
    if l.inFlow then { l with flowDepth := l.flowDepth - 1, spots := l.spots.tail } else l
  let l := (l.allowKey false).endPair l.mark
  let r ← (l.move (l.cursor.passInk 1)).skipTrailing
  let r := if r.inFlow then { r with valueOffset := r.mark.offset } else r
  return r.push l.mark t

/-- `,` -/
def readComma (l : Lexer) : Except Fault Lexer := do
  let l ← l.dropKey
  let l := (l.allowKey true).endPair l.mark
  let r ← (l.move (l.cursor.passInk 1)).skipTrailing
  return r.push l.mark .flowEntry

/-- An anchor or a tag that is not indented and still waits in the queue. -/
def loneProperty? (l : Lexer) : Option Mark :=
  match l.queue.back? with
  | some ⟨m, .anchor _⟩ | some ⟨m, .tag _ _⟩ => if m.column = 0 then some m else none
  | _ => none

/-- `-` and a blank. -/
def readDash (l : Lexer) : Except Fault Lexer :=
  if l.inFlow then l.fail .dashInFlow
  else if !l.keyAllowed then l.fail .dashHere
  else
    match l.loneProperty?, l.mark.column == 0 && l.indent > -1 with
    | some m, true => .error ⟨m, .anchorIndentation⟩
    | _, _ => do
      let r := (l.move (l.cursor.passInk 1)).openBlock l.column none .blockSequenceStart l.mark
      let t ← r.cursor.trailing true
      let c := t.cursor.look 2
      if t.hasTab && c.head? == some '-' && c.second?.all isGap then throw ⟨c.mark, .dashTab⟩
      let c := (← c.trailing false).cursor
      let r := r.move c
      let r := if c.head?.any fun x => isBreak x || isFlowMark x then r.indentContent else r
      let r ← r.dropKey
      return (r.allowKey true).push r.mark .blockEntry

/-- `---` or `...` -/
def readDocumentMark (l : Lexer) (t : Token) : Except Fault Lexer := do
  let l ← (l.closeBlocks (-1)).dropKey
  return ((l.allowKey false).move (l.cursor.passInk 3)).push l.mark t

/-- `?` and a blank. -/
def readKeyMark (l : Lexer) : Except Fault Lexer := do
  let r ←
    if l.inFlow then pure { l with inBraces := true }
    else if !l.keyAllowed then l.fail .keyMarkHere
    else pure (l.openBlock l.column none .blockMappingStart l.mark)
  let r ← r.dropKey
  let r ← ((r.allowKey !r.inFlow).move (r.cursor.passInk 1)).skipKeySpace
  if r.cursor.head? == some '\t' then r.fail .tabAfterKeyMark
  else return r.push l.mark .key

/-- `:`, behind what may have been a key. -/
def readColon (l : Lexer) : Except Fault Lexer := do
  let spot := l.spot
  let pair := l.inFlow && !l.inBraces
  let r := { l with inPair := pair }.move ((l.cursor.passInk 1).look 1)
  let r ←
    if r.cursor.head? == some '\t' then do
      let t ← r.cursor.trailing true
      if !t.hasSpace && t.cursor.head?.any (fun x => x == '-' || isNameChar x) then
        throw ⟨t.cursor.mark, .colonTab⟩
      pure (r.move t.cursor)
    else pure r
  let r ←
    if spot.possible then do
      let r := r.insert spot.number spot.mark .key
      let r ←
        if pair then
          if spot.mark.line < l.mark.line then throw ⟨l.mark, .colonPlace⟩
          else pure (r.insert spot.number r.mark .flowMappingStart)
        else pure r
      let r :=
        (r.openBlock spot.mark.column (some spot.number) .blockMappingStart l.mark).indentContent
      pure ((r.setSpot spot.clear).allowKey false)
    else do
      let r := if pair then r.push r.mark .flowMappingStart else r
      if r.inFlow then pure (r.allowKey false)
      else if !r.keyAllowed then throw ⟨l.mark, .colonHere⟩
      else
        pure ((r.openBlock l.column none .blockMappingStart l.mark).indentContent.allowKey true)
  return r.push l.mark .value

end Lexer

end TaggedYaml
