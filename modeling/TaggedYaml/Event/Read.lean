import TaggedYaml.Event.Basic
import TaggedYaml.Token.Scan

/-!
# Reading tokens as events

The grammar of nodes over tokens, read from left to right with one token in view.  Only the first
document of a text is read, and the token behind it is looked at.
-/

namespace TaggedYaml

/-- What the handles of tags stand for, by the last directive before the document. -/
abbrev Handles := List (String × String)

/-- The address that `!!` stands for. -/
def coreAddress : List Char := "tag:yaml.org,2002:".toList

/-- A tag as it is shown, from what its handle stands for and its suffix. -/
def showTag (address suffix : String) : String :=
  let a := address.toList
  if coreAddress.isPrefixOf a then
    "!!" ++ String.ofList (a.drop coreAddress.length) ++ suffix
  else address ++ suffix

/-- A handle of the form `!name!`. -/
def isNamedHandle (handle : String) : Bool :=
  let h := handle.toList
  h.length ≥ 2 && h.head? == some '!' && h.getLast? == some '!'

/-- The tag that a handle and a suffix make. -/
def Handles.resolve (handles : Handles) (handle suffix : String) : Except Defect String :=
  match handles.lookup handle with
  | some address => .ok (showTag address suffix)
  | none =>
    if handle == "!!" then .ok ("!!" ++ suffix)
    else if isNamedHandle handle then .error .unknownHandle
    else .ok (showTag handle suffix)

/-- A reader of events. -/
structure EventReader where
  tokens : List (Marked Token)
  /-- What is met behind the last token. -/
  stop : Fault
  handles : Handles
  /-- Latest first. -/
  anchors : List Anchor
  /-- Latest first. -/
  events : List (Marked Event)

/-- What stands before the content of a node. -/
structure Properties where
  tag : Option String
  anchor : Option Anchor

namespace EventReader

/-- The next token. -/
def peek (r : EventReader) : Except Fault (Marked Token) :=
  match r.tokens with
  | [] => .error r.stop
  | t :: _ => .ok t

/-- Passes the next token. -/
def next (r : EventReader) : EventReader := { r with tokens := r.tokens.tail }

def push (r : EventReader) (m : Mark) (e : Event) : EventReader :=
  { r with events := ⟨m, e⟩ :: r.events }

/-- A node of which nothing is written. -/
def pushEmpty (r : EventReader) (m : Mark) : EventReader := r.push m (.scalar .plain "" "" none)

/-- Numbers an anchor. -/
def declare (r : EventReader) (name : String) : Anchor × EventReader :=
  let a := ⟨r.anchors.length + 1, name⟩
  (a, { r with anchors := a :: r.anchors })

/-- The tag that a token stands for; a handle that is not declared is a fault at `m`. -/
def tagOf (r : EventReader) (m : Mark) (handle suffix : String) : Except Fault String :=
  (r.handles.resolve handle suffix).mapError (⟨m, ·⟩)

/-- Reads an anchor and a tag, in either order and each of them optional. -/
def properties (r : EventReader) : Except Fault (Properties × EventReader) := do
  let t ← r.peek
  match t.item with
  | .anchor name =>
    let (a, r) := r.next.declare name
    let u ← r.peek
    match u.item with
    | .tag handle suffix =>
      return (⟨some (← r.tagOf t.mark handle suffix), some a⟩, r.next)
    | _ => return (⟨none, some a⟩, r)
  | .tag handle suffix =>
    let tag ← r.tagOf t.mark handle suffix
    let r := r.next
    let u ← r.peek
    match u.item with
    | .anchor name =>
      let (a, r) := r.next.declare name
      return (⟨some tag, some a⟩, r)
    | _ => return (⟨some tag, none⟩, r)
  | _ => return (⟨none, none⟩, r)

end EventReader

/-- A part of a document that is to be read. -/
inductive Part where
  /-- A node.  `inBlock`: it may be a block collection; `flush`: it may be a sequence that is
  indented no further than its key. -/
  | node (inBlock flush : Bool)
  /-- The content of a node behind its properties. -/
  | content (inBlock flush : Bool) (p : Properties)
  /-- The rest of a block sequence. -/
  | blockItems
  /-- The rest of a sequence that is indented no further than its key. -/
  | flushItems
  /-- The rest of a block mapping. -/
  | blockEntries
  /-- The rest of a block mapping behind a key. -/
  | blockValue
  /-- The rest of a flow sequence. -/
  | flowItems (first : Bool)
  /-- The rest of a flow sequence behind the `?` of a pair, or behind a key without braces. -/
  | pairKey
  | pairValue
  /-- The rest of a flow mapping. -/
  | flowEntries (first : Bool)
  /-- The rest of a flow mapping behind a key. -/
  | flowValue

namespace EventReader

/-- Reads a part of a document. -/
def read : Nat → Part → EventReader → Except Fault EventReader
  | 0, _, r => .error r.stop
  | fuel + 1, part, r => do
    let t ← r.peek
    match part with
    | .node inBlock flush =>
      match t.item with
      | .alias name =>
        match r.anchors.find? (·.name == name) with
        | some a => return r.next.push t.mark (.alias a)
        | none => throw ⟨t.mark, .unknownAnchor⟩
      | _ =>
        let (p, r) ← r.properties
        read fuel (.content inBlock flush p) r
    | .content inBlock flush p =>
      let tag := p.tag.getD ""
      match t.item, inBlock, flush with
      | .scalar style text, _, _ => return r.next.push t.mark (.scalar style text tag p.anchor)
      | .flowSequenceStart, _, _ =>
        read fuel (.flowItems true) (r.next.push t.mark (.openSequence tag p.anchor))
      | .flowMappingStart, _, _ =>
        read fuel (.flowEntries true) (r.next.push t.mark (.openMapping tag p.anchor))
      | .blockSequenceStart, true, _ =>
        read fuel .blockItems (r.next.push t.mark (.openSequence tag p.anchor))
      | .blockMappingStart, true, _ =>
        read fuel .blockEntries (r.next.push t.mark (.openMapping tag p.anchor))
      | .blockEntry, _, true =>
        read fuel .flushItems (r.push t.mark (.openSequence tag p.anchor))
      | _, _, _ =>
        if p.tag.isSome || p.anchor.isSome then
          return r.push t.mark (.scalar .plain "" tag p.anchor)
        else throw ⟨t.mark, .nodeContent⟩
    | .blockItems =>
      match t.item with
      | .blockEnd => return r.next.push t.mark .closeSequence
      | .blockEntry =>
        let r := r.next
        let u ← r.peek
        match u.item with
        | .blockEntry | .blockEnd => read fuel .blockItems (r.pushEmpty u.mark)
        | _ =>
          let r ← read fuel (.node true false) r
          read fuel .blockItems r
      | _ => throw ⟨t.mark, .blockSequenceDash⟩
    | .flushItems =>
      match t.item with
      | .blockEntry =>
        let r := r.next
        let u ← r.peek
        match u.item with
        | .blockEntry | .key | .value | .blockEnd =>
          read fuel .flushItems (r.pushEmpty u.mark)
        | _ =>
          let r ← read fuel (.node true false) r
          read fuel .flushItems r
      | _ => return r.push t.mark .closeSequence
    | .blockEntries =>
      match t.item with
      | .blockEnd => return r.next.push t.mark .closeMapping
      | .key =>
        let r := r.next
        let u ← r.peek
        match u.item with
        | .key | .value | .blockEnd => read fuel .blockValue (r.pushEmpty u.mark)
        | _ =>
          let r ← read fuel (.node true true) r
          read fuel .blockValue r
      | .value => read fuel .blockValue (r.pushEmpty t.mark)
      | _ => throw ⟨t.mark, .blockMappingKey⟩
    | .blockValue =>
      match t.item with
      | .value =>
        let r := r.next
        let u ← r.peek
        match u.item with
        | .key | .value | .blockEnd => read fuel .blockEntries (r.pushEmpty u.mark)
        | _ =>
          let r ← read fuel (.node true true) r
          read fuel .blockEntries r
      | _ => read fuel .blockEntries (r.pushEmpty t.mark)
    | .flowItems first =>
      if t.item == .flowSequenceEnd then return r.next.push t.mark .closeSequence
      else
        let r ←
          if first then pure r
          else if t.item == .flowEntry then pure r.next
          else throw ⟨t.mark, .flowSequenceComma⟩
        let u ← r.peek
        match u.item with
        | .flowSequenceEnd => return r.next.push u.mark .closeSequence
        | .key => read fuel .pairKey (r.next.push u.mark (.openMapping "" none))
        | _ =>
          let r ← read fuel (.node false false) r
          read fuel (.flowItems false) r
    | .pairKey =>
      match t.item with
      | .value | .flowEntry | .flowSequenceEnd => read fuel .pairValue (r.next.pushEmpty t.mark)
      | _ =>
        let r ← read fuel (.node false false) r
        read fuel .pairValue r
    | .pairValue =>
      let r ←
        match t.item with
        | .value =>
          let r := r.next
          let u ← r.peek
          match u.item with
          | .flowEntry | .flowSequenceEnd => pure (r.pushEmpty u.mark)
          | _ => read fuel (.node false false) r
        | _ => pure (r.pushEmpty t.mark)
      read fuel (.flowItems false) (r.push t.mark .closeMapping)
    | .flowEntries first =>
      if t.item == .flowMappingEnd then return r.next.push t.mark .closeMapping
      else
        let r ←
          if first then pure r
          else if t.item == .flowEntry then pure r.next
          else throw ⟨t.mark, .flowMappingComma⟩
        let u ← r.peek
        match u.item with
        | .flowMappingEnd => return r.next.push u.mark .closeMapping
        | .value => read fuel .flowValue (r.pushEmpty u.mark)
        | .key =>
          let r := r.next
          let v ← r.peek
          match v.item with
          | .value | .flowEntry | .flowMappingEnd => read fuel .flowValue (r.pushEmpty v.mark)
          | _ =>
            let r ← read fuel (.node false false) r
            read fuel .flowValue r
        | _ =>
          let r ← read fuel (.node false false) r
          let v ← r.peek
          read fuel (.flowEntries false) (r.pushEmpty v.mark)
    | .flowValue =>
      match t.item with
      | .value =>
        let r := r.next
        let u ← r.peek
        match u.item with
        | .flowEntry | .flowMappingEnd => read fuel (.flowEntries false) (r.pushEmpty t.mark)
        | _ =>
          let r ← read fuel (.node false false) r
          read fuel (.flowEntries false) r
      | _ => read fuel (.flowEntries false) (r.pushEmpty t.mark)

/-- Reads the directives before a document; the last one decides what handles stand for. -/
def directives (r : EventReader) : Nat → Bool → Except Fault EventReader
  | 0, _ => .error r.stop
  | fuel + 1, hasVersion => do
    let t ← r.peek
    match t.item with
    | .versionDirective =>
      if hasVersion then throw ⟨t.mark, .secondVersion⟩
      else directives { r.next with handles := [] } fuel true
    | .tagDirective handle address =>
      directives { r.next with handles := [(handle, address)] } fuel hasVersion
    | _ => return r

/-- Passes the ends of documents that hold nothing. -/
def skipDocumentEnds (r : EventReader) : EventReader :=
  { r with tokens := r.tokens.dropWhile (·.item == .documentEnd) }

/-- Looks behind a document. -/
def endDocument (r : EventReader) : Except Fault EventReader := do
  let t ← r.peek
  match t.item with
  | .versionDirective | .tagDirective _ _ => throw ⟨t.mark, .documentEndMissing⟩
  | _ => return r

/-- Reads the first document. -/
def document (r : EventReader) : Except Fault EventReader := do
  let r := r.skipDocumentEnds
  let fuel := 4 * r.tokens.length + 4
  let t ← r.peek
  match t.item with
  | .textEnd => return r
  | .versionDirective | .tagDirective _ _ | .documentStart =>
    let r ← r.directives fuel false
    let u ← r.peek
    if u.item != .documentStart then throw ⟨u.mark, .documentStart⟩
    let r := r.next
    let v ← r.peek
    match v.item with
    | .versionDirective | .tagDirective _ _ | .documentStart | .documentEnd | .textEnd =>
      (r.pushEmpty v.mark).endDocument
    | _ => (← read fuel (.node true false) r).endDocument
  | _ => (← read fuel (.node true false) r).endDocument

end EventReader

/-- The events of the first document of a text that was read as tokens.  Of an anchor they have the
number. -/
def Scan.events (s : Scan) : Except Fault (List (Marked (EventOf Nat))) := do
  let r ← EventReader.document ⟨s.tokens, s.stop, [], [], []⟩
  return r.events.reverse.map fun e => ⟨e.mark, e.item.map Anchor.number⟩

/-! ### Names of anchors -/

/-- The name that a word gives to a node. -/
def Token.anchorName? : Token → Option String
  | .anchor name => some name
  | _ => none

/-- The names given in a text, in the order in which they are written. -/
def anchorNames (tokens : List (Marked Token)) : List String :=
  tokens.filterMap fun t => t.item.anchorName?

/-- The anchor of a number, named by its place in the text; behind the last place the number makes
the name. -/
def Anchor.ofNumber (names : List String) (number : Nat) : Anchor :=
  let written? :=
    match number with
    | 0 => none
    | place + 1 => names[place]?
  ⟨number, written?.getD ("anchor" ++ toString number)⟩

/-- The events of the first document, in which anchors are named by the words of the text. -/
def Scan.namedEvents (s : Scan) : Except Fault (List (Marked Event)) := do
  return (← s.events).map fun e => ⟨e.mark, e.item.map (.ofNumber (anchorNames s.tokens))⟩

end TaggedYaml
