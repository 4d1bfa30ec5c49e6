import TaggedYaml.Proofs.Pattern.Calm
import TaggedYaml.Proofs.Shape.Face

/-!
# Segments — what is written of a shape, and which of it stands between quotes

The text of a shape is cut into segments, so that each text between quotes is a segment of its own
(`Shape.segments`).  Together they are the text of the shape (`Shape.render_segments`).
-/

namespace TaggedYaml

/-- A text between quotes. -/
def quotedText (s : List Char) : List Char :=
  if s.any isHidden then doubleQuote s else singleQuote s

/-- A part of a written text. -/
inductive Segment where
  | plain (cs : List Char)
  /-- The text of a scalar or a key, between quotes. -/
  | quoted (key : Bool) (text : List Char)
deriving DecidableEq, Repr

namespace Segment

def chars : Segment → List Char
  | .plain cs => cs
  | .quoted _ text => quotedText text

/-- A segment without its quotes, if its text begins with an exclamation mark. -/
def bareChars : Segment → List Char
  | .plain cs => cs
  | .quoted _ text =>
    if text.head? == some '!' then (quotedText text).tail.dropLast else quotedText text

/-- The text that segments make. -/
def render (gs : List Segment) : List Char := gs.flatMap chars

/-- The text that segments make without the quotes of texts that begin with an exclamation mark. -/
def bare (gs : List Segment) : List Char := gs.flatMap bareChars

@[simp] theorem render_nil : render [] = [] := rfl

@[simp] theorem render_cons (g : Segment) (gs : List Segment) :
    render (g :: gs) = g.chars ++ render gs := rfl

@[simp] theorem render_append (gs hs : List Segment) : render (gs ++ hs) = render gs ++ render hs := by
  simp [render]

@[simp] theorem bare_nil : bare [] = [] := rfl

@[simp] theorem bare_cons (g : Segment) (gs : List Segment) :
    bare (g :: gs) = g.bareChars ++ bare gs := rfl

@[simp] theorem bare_append (gs hs : List Segment) : bare (gs ++ hs) = bare gs ++ bare hs := by
  simp [bare]

@[simp] theorem chars_plain (cs : List Char) : (plain cs).chars = cs := rfl

@[simp] theorem bareChars_plain (cs : List Char) : (plain cs).bareChars = cs := rfl

/-- A text that reads back as a string. -/
def ofString (key : Bool) (s : List Char) : Segment :=
  if isPlainText s && !hasOtherMeaning s then .plain s else .quoted key s

theorem chars_ofString (key : Bool) (s : List Char) : (ofString key s).chars = writeString s := by
  rw [ofString, writeString]
  split <;> rfl

/-- Properties before a text. -/
def join (properties : List Char) (text : Segment) : List Segment :=
  if properties.isEmpty then [text]
  else if text.chars.isEmpty then [.plain properties]
  else [.plain (properties ++ [' ']), text]

theorem render_join (properties : List Char) (text : Segment) :
    render (join properties text) = joinProperties properties text.chars := by
  rw [join, joinProperties]
  split
  · simp
  · split <;> simp

/-- Members with an indentation before each; the first may stand on a line that has begun. -/
def padded (indent : Nat) : Bool → List (List Segment) → List Segment
  | _, [] => []
  | onLine, x :: rest => .plain (if onLine then [] else pad indent) :: (x ++ padded indent false rest)

theorem render_padded (indent : Nat) : ∀ (onLine : Bool) (xs : List (List Segment)),
    render (padded indent onLine xs) = TaggedYaml.padded indent onLine (xs.map render)
  | _, [] => rfl
  | onLine, x :: rest => by
    rw [padded, render_cons, render_append, render_padded indent false rest, List.map_cons,
      TaggedYaml.padded, chars]

end Segment

namespace Face

/-- The text of a scalar that is a value. -/
def textSegment (f : Face) : Segment :=
  if f.isPlain then .plain f.text.toList else .ofString false f.text.toList

theorem chars_textSegment (f : Face) : f.textSegment.chars = f.node.inlineText := by
  rw [textSegment, inlineText_eq]
  split
  · rfl
  · exact Segment.chars_ofString ..

/-- The text of a scalar that is a key. -/
def keySegment (f : Face) : Segment :=
  if f.isPlain && !f.text.toList.isEmpty then .plain f.text.toList else .ofString true f.text.toList

theorem chars_keySegment (f : Face) : f.keySegment.chars = f.keyText := by
  rw [keySegment, keyText]
  split
  · rfl
  · exact Segment.chars_ofString ..

/-- The segments of a scalar that is a value. -/
def segments (f : Face) (indent : Nat) (position : Position) : List Segment :=
  if f.node.literalBlock?.isSome then [.plain (f.written indent position)]
  else
    let line := Segment.join f.node.properties f.textSegment
    (if (Segment.render line).isEmpty then [] else .plain position.gap :: line) ++ [.plain ['\n']]

theorem render_segments (f : Face) (indent : Nat) (position : Position) :
    Segment.render (f.segments indent position) = f.written indent position := by
  rw [segments, written]
  cases f.node.literalBlock? with
  | some block => simp
  | none =>
    simp only [Option.isSome_none, Bool.false_eq_true, if_false, Segment.render_join,
      chars_textSegment, Position.line]
    split
    · simp
    · simp [Segment.render_join, chars_textSegment]

end Face

/-- The segments of a key without its colon. -/
def Key.segments : Key → List Segment
  | .scalar f => Segment.join f.node.properties f.keySegment
  | .alias name _ => [.plain ('*' :: name.toList ++ [' '])]
  | .other text => [.ofString true text.toList]

theorem Key.render_segments (k : Key) : Segment.render k.segments = k.written := by
  cases k with
  | scalar f =>
    rw [segments, Segment.render_join, Face.chars_keySegment, written, Face.writtenKey_eq]
  | «alias» name text => simp [segments, written]
  | other text => simp [segments, written, Segment.chars_ofString]

namespace Shape

mutual

/-- The segments of a shape behind its indicator, up to the end of its last line. -/
def segments (indent : Nat) (position : Position) : Shape → List Segment
  | .scalar f => f.segments indent position
  | .alias name => [.plain (position.gap ++ '*' :: name.toList ++ ['\n'])]
  | .sequence f items =>
    if items.isEmpty then
      [.plain (position.gap ++ joinProperties f.node.properties ['[', ']'] ++ ['\n'])]
    else
      let (indent, onLine, head) := position.open indent f.node.properties
      .plain head :: Segment.padded indent onLine (segmentsItems indent items)
  | .mapping f entries =>
    if entries.isEmpty then
      [.plain (position.gap ++ joinProperties f.node.properties ['\x7b', '\x7d'] ++ ['\n'])]
    else
      let (indent, onLine, head) := position.open indent f.node.properties
      .plain head :: Segment.padded indent onLine (segmentsEntries indent entries)

/-- The items of a sequence, each from its `-` on. -/
def segmentsItems (indent : Nat) : List Shape → List (List Segment)
  | [] => []
  | s :: rest => (.plain ['-'] :: segments indent .seqItem s) :: segmentsItems indent rest

/-- The entries of a mapping. -/
def segmentsEntries (indent : Nat) : List (Key × Shape) → List (List Segment)
  | [] => []
  | (k, s) :: rest =>
    (k.segments ++ .plain [':'] :: segments indent .mapValue s) :: segmentsEntries indent rest

end

mutual

/-- The segments of a shape are what is written of it. -/
theorem render_segments : ∀ (s : Shape) (indent : Nat) (position : Position),
    Segment.render (s.segments indent position) = s.written indent position
  | .scalar f, indent, position => f.render_segments indent position
  | .alias name, indent, position => by simp [segments, written]
  | .sequence f items, indent, position => by
    rw [segments, written]
    split
    · simp
    · simp only [Segment.render_cons, Segment.chars_plain, Segment.render_padded,
        render_segmentsItems items]
  | .mapping f entries, indent, position => by
    rw [segments, written]
    split
    · simp
    · simp only [Segment.render_cons, Segment.chars_plain, Segment.render_padded,
        render_segmentsEntries entries]

theorem render_segmentsItems : ∀ (items : List Shape) (indent : Nat),
    (segmentsItems indent items).map Segment.render = writtenItems indent items
  | [], _ => rfl
  | s :: rest, indent => by
    rw [segmentsItems, List.map_cons, writtenItems, Segment.render_cons, render_segments s,
      render_segmentsItems rest]
    rfl

theorem render_segmentsEntries : ∀ (entries : List (Key × Shape)) (indent : Nat),
    (segmentsEntries indent entries).map Segment.render = writtenEntries indent entries
  | [], _ => rfl
  | (k, s) :: rest, indent => by
    rw [segmentsEntries, List.map_cons, writtenEntries, Segment.render_append, Segment.render_cons,
      k.render_segments, render_segments s, render_segmentsEntries rest]
    rfl

end

end Shape

end TaggedYaml
