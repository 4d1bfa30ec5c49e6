import TaggedYaml.Json.Shown

/-!
# What can be wrong with JSON

`Json.Defect` lists the reasons, whether the text is no JSON or the data is not what is asked for.
The place is where the reader stood; data that is not read from a text has none.
-/

namespace TaggedYaml.Json

/-- The integer that bits stand for. -/
def intOfBits (signed : Bool) {width : Nat} (bits : BitVec width) : Int :=
  if signed then bits.toInt else bits.toNat

/-- Data of a kind that is not asked for. -/
inductive Found where
  | null
  | bool (b : Bool)
  | int (i : Int)
  /-- An integer of 128 bits. -/
  | long (signed : Bool) (bits : BitVec 128)
  /-- A number that is no integer, by its digits. -/
  | float (digits : String)
  | text (s : String)
  | bytes
  | newtype
  | enum
  | array
  | object
deriving DecidableEq, Repr

/-- A kind of data in words. -/
def Found.describe : Found → String
  | null => "null"
  | bool b => "boolean \x60" ++ (if b then "true" else "false") ++ "\x60"
  | int i => "integer \x60" ++ toString i ++ "\x60"
  | long signed bits =>
    "integer \x60" ++ toString (intOfBits signed bits) ++ "\x60 as " ++
      if signed then "i128" else "u128"
  | float s => "floating point \x60" ++ s ++ "\x60"
  | text s => "string " ++ shown s
  | array => "sequence"
  | object => "map"
  | bytes => "byte array"
  | newtype => "newtype struct"
  | enum => "enum"

/-- A reason not to accept JSON. -/
inductive Defect where
  | endOfList
  | endOfObject
  | endOfString
  | endOfValue
  | colon
  | listComma
  | objectComma
  | ident
  | value
  | escape
  | number
  | numberRange
  | controlChar
  | keyString
  | loneSurrogate
  | trailingComma
  | trailingChars
  | hexEscape
  | depth
  | found (what : Found) (expected : String)
  | length (n : Nat) (expected : String)
  | missingField (name : String)
  | repeatedField (name : String)
  /-- The source of the data gives up. -/
  | source (message : String)
deriving DecidableEq, Repr

/-- The wording of a defect. -/
def Defect.message : Defect → String
  | endOfList => "EOF while parsing a list"
  | endOfObject => "EOF while parsing an object"
  | endOfString => "EOF while parsing a string"
  | endOfValue => "EOF while parsing a value"
  | colon => "expected \x60:\x60"
  | listComma => "expected \x60,\x60 or \x60]\x60"
  | objectComma => "expected \x60,\x60 or \x60\x7d\x60"
  | ident => "expected ident"
  | value => "expected value"
  | escape => "invalid escape"
  | number => "invalid number"
  | numberRange => "number out of range"
  | controlChar => "control character (\\u0000-\\u001F) found while parsing a string"
  | keyString => "key must be a string"
  | loneSurrogate => "lone leading surrogate in hex escape"
  | trailingComma => "trailing comma"
  | trailingChars => "trailing characters"
  | hexEscape => "unexpected end of hex escape"
  | depth => "recursion limit exceeded"
  | found what expected => "invalid type: " ++ what.describe ++ ", expected " ++ expected
  | length n expected => "invalid length " ++ toString n ++ ", expected " ++ expected
  | missingField name => "missing field \x60" ++ name ++ "\x60"
  | repeatedField name => "duplicate field \x60" ++ name ++ "\x60"
  | source message => message

/-- A line counted from 1 and the number of bytes before a place on it. -/
structure Place where
  line : Nat
  column : Nat
deriving DecidableEq, Repr

/-- A defect and its place. -/
structure Fault where
  defect : Defect
  place : Option Place
deriving DecidableEq, Repr

/-- The wording of a fault. -/
def Fault.message (f : Fault) : String :=
  match f.place with
  | none => f.defect.message
  | some p =>
    f.defect.message ++ " at line " ++ toString p.line ++ " column " ++ toString p.column

end TaggedYaml.Json
