import TaggedYaml.Json.Members

/-!
# Data — what a self-describing source delivers

`Data` is more than JSON can say: keys may be any data, a source may deliver kinds that no document
has a place for, and it may fail at any point.  A kind for which a source has several widths is here
with the widest.  `Data.read` reads JSON text.
-/

namespace TaggedYaml.Json

/-- Data from a source. -/
inductive Data where
  | null
  | bool (b : Bool)
  | int (signed : Bool) (bits : BitVec 64)
  | long (signed : Bool) (bits : BitVec 128)
  | float (x : Float)
  | text (s : String)
  | list (items : List Data)
  | map (entries : List (Data × Data))
  /-- Data that might have been missing. -/
  | some (d : Data)
  | bytes
  /-- A record of one field without a name. -/
  | newtype
  | enum
  /-- The source fails instead of delivering anything. -/
  | failure (message : String)

/-- The number of containers that may be open at once in a text is one less. -/
def depthLimit : Nat := 128

/-- What is being read. -/
inductive Goal where
  | value
  | items (first : Bool) (before : List Data)
  | entries (first : Bool) (before : List (Data × Data))

namespace Reader

/-- Reads data; `room` is how many more containers may be opened, plus one.  The data before a goal
is last first. -/
def readData : Nat → Nat → Goal → Reader → Except Fault (Data × Reader)
  | 0, _, _, r => r.fail .endOfValue
  | fuel + 1, room, .value, r => do
    let r := r.skipBlanks
    match r.head? with
    | none => r.fail .endOfValue
    | some 'n' => return (.null, ← r.skip.skipName "ull".toList)
    | some 't' => return (.bool true, ← r.skip.skipName "rue".toList)
    | some 'f' => return (.bool false, ← r.skip.skipName "alse".toList)
    | some '"' =>
      let (s, r) ← r.skip.readString
      return (.text s, r)
    | some '[' =>
      if room ≤ 1 then r.failNext .depth
      else readData fuel (room - 1) (.items true []) r.skip
    | some '\x7b' =>
      if room ≤ 1 then r.failNext .depth
      else readData fuel (room - 1) (.entries true []) r.skip
    | some c =>
      if c == '-' || c.isDigit then
        let negative := c == '-'
        match ← (if negative then r.skip else r).readNumber negative with
        | (.int signed bits, r) => return (.int signed bits, r)
        | (.float x, r) => return (.float x, r)
      else r.failNext .value
  | fuel + 1, room, .items first before, r => do
    match ← r.nextItem? first with
    | none => return (.list before.reverse, r.closed)
    | some r =>
      let (d, r) ← readData fuel room .value r
      readData fuel room (.items false (d :: before)) r
  | fuel + 1, room, .entries first before, r => do
    match ← r.nextKey? first with
    | none => return (.map before.reverse, r.closed)
    | some (key, r) =>
      let (d, r) ← readData fuel room .value (← r.passColon)
      readData fuel room (.entries false ((.text key, d) :: before)) r

end Reader

/-- Reads a JSON text. -/
def Data.read (text : String) : Except Fault Data := do
  let text := text.toList
  let (d, r) ← Reader.readData (2 * text.length + 2) depthLimit .value (.ofList text)
  r.finish
  return d

end TaggedYaml.Json
