import TaggedYaml.Decimal.Text
import TaggedYaml.Json.Pass
import TaggedYaml.Value.Basic

/-!
# Records

A record is a structure whose fields are read one by one.  It may be written as an object, where
unknown keys are passed, or as a list of the fields in their order.  A record is read from JSON text
or from plain data; the two differ in what they say about a list that is too long, and in that text
has places.
-/

namespace TaggedYaml.Json

/-- A field of a record, of which `σ` is what has been read. -/
structure Field (σ : Type) where
  name : String
  isSet : σ → Bool
  ofText : σ → Reader → Except Fault (σ × Reader)
  ofValue : σ → Value → Except Defect σ

/-- The form of a record. -/
structure Record (σ : Type) where
  /-- What a message calls it. -/
  name : String
  /-- The field that must not be missing, which is the first. -/
  required : Option (Field σ)
  optional : List (Field σ)

/-- All fields in their order. -/
def Record.fields {σ : Type} (d : Record σ) : List (Field σ) := d.required.toList ++ d.optional

/-- What a message calls a record that is written as a list. -/
def Record.listName {σ : Type} (d : Record σ) : String :=
  d.name ++ " with " ++ toString d.fields.length ++ " elements"

namespace Reader

/-- Fails at data of another kind than the expected one, behind it unless it is a container. -/
def misfit {α : Type} (r : Reader) (expected : String) : Except Fault α :=
  let fail (found : Found) (r : Reader) : Except Fault α := r.fail (.found found expected)
  match r.head? with
  | none => r.failNext .value
  | some 'n' => do fail .null (← r.skip.skipName "ull".toList)
  | some 't' => do fail (.bool true) (← r.skip.skipName "rue".toList)
  | some 'f' => do fail (.bool false) (← r.skip.skipName "alse".toList)
  | some '"' => do
    let (s, r) ← r.skip.readString
    fail (.text s) r
  | some '[' => fail .array r
  | some '\x7b' => fail .object r
  | some c =>
    if c == '-' || c.isDigit then do
      let negative := c == '-'
      match ← (if negative then r.skip else r).readNumber negative with
      | (.int signed bits, r) => fail (.int (intOfBits signed bits)) r
      | (.float x, r) => fail (.float (floatExact x)) r
    else r.failNext .value

/-- Reads a text. -/
def readText (r : Reader) : Except Fault (String × Reader) :=
  let r := r.skipBlanks
  match r.head? with
  | none => r.fail .endOfValue
  | some '"' => r.skip.readString
  | some _ => r.misfit "a string"

/-- Reads `null` or something else. -/
def readOptional {α : Type} (item : Reader → Except Fault (α × Reader)) (r : Reader) :
    Except Fault (Option α × Reader) :=
  let r := r.skipBlanks
  if r.head? == some 'n' then do return (none, ← r.skip.skipName "ull".toList)
  else (item r).map fun (x, r) => (some x, r)

/-- The items of a list; those before are last first. -/
def readItems {α : Type} (item : Reader → Except Fault (α × Reader)) :
    Nat → List α → Reader → Except Fault (List α × Reader)
  | 0, _, r => r.fail .endOfList
  | fuel + 1, before, r => do
    match ← r.nextItem? before.isEmpty with
    | none => return (before.reverse, r.closed)
    | some r =>
      let (x, r) ← item r
      readItems item fuel (x :: before) r

/-- Reads a list. -/
def readList {α : Type} (item : Reader → Except Fault (α × Reader)) (r : Reader) :
    Except Fault (List α × Reader) :=
  let r := r.skipBlanks
  match r.head? with
  | none => r.fail .endOfValue
  | some '[' => readItems item (r.rest.length + 1) [] r.skip
  | some _ => r.misfit "a sequence"

end Reader

namespace Record

variable {σ : Type} (d : Record σ)

/-- Fields from the items of a list. -/
def readListFields : List (Field σ) → Bool → σ → Reader → Except Fault (σ × Reader)
  | [], _, x, r => .ok (x, r)
  | field :: fields, first, x, r => do
    match ← r.nextItem? first with
    | none => return (x, r)
    | some r =>
      let (x, r) ← field.ofText x r
      readListFields fields false x r

/-- Passes the end of a list that has no more fields. -/
def endList (r : Reader) : Except Fault Reader :=
  let r := r.skipBlanks
  match r.head? with
  | none => r.fail .endOfList
  | some ']' => .ok r.skip
  | some ',' =>
    let r := r.skip.skipBlanks
    r.failNext (if r.head? == some ']' then .trailingComma else .trailingChars)
  | some _ => r.failNext .trailingChars

/-- Fields from the entries of an object, up to its closing brace. -/
def readEntries : Nat → Bool → σ → Reader → Except Fault (σ × Reader)
  | 0, _, _, r => r.fail .endOfObject
  | fuel + 1, first, x, r => do
    match ← r.nextKey? first with
    | none => return (x, r.closed)
    | some (key, r) =>
      match d.fields.find? (·.name == key) with
      | none => readEntries fuel false x (← (← r.passColon).pass)
      | some field =>
        if field.isSet x then
          let r := r.skipBlanks
          (if r.head? == some '\x7d' then r.skip else r).fail (.repeatedField key)
        else
          let (x, r) ← field.ofText x (← r.passColon)
          readEntries fuel false x r

/-- The required field, if it is missing. -/
def missing? (x : σ) : Option (Field σ) := d.required.filter fun field => !field.isSet x

/-- Reads a record from text. -/
def ofText (blank : σ) (r : Reader) : Except Fault (σ × Reader) := do
  let r := r.skipBlanks
  match r.head? with
  | none => r.fail .endOfValue
  | some '[' =>
    let (x, r) ← readListFields d.fields true blank r.skip
    let r ← endList r
    if (d.missing? x).isSome then r.fail (.length 0 d.listName) else return (x, r)
  | some '\x7b' =>
    let (x, r) ← d.readEntries (r.rest.length + 1) true blank r.skip
    match d.missing? x with
    | some field => r.fail (.missingField field.name)
    | none => return (x, r)
  | some _ => r.misfit d.name

/-- Fields from items; items without fields are left. -/
def ofItems : List (Field σ) → σ → List Value → Except Defect (σ × List Value)
  | field :: fields, x, v :: vs => do ofItems fields (← field.ofValue x v) vs
  | _, x, vs => .ok (x, vs)

/-- Fields from entries. -/
def ofEntries (x : σ) : List (String × Value) → Except Defect σ
  | [] => .ok x
  | (key, v) :: rest =>
    match d.fields.find? (·.name == key) with
    | none => ofEntries x rest
    | some field => do ofEntries (← field.ofValue x v) rest

/-- Reads a record from plain data. -/
def ofValue (blank : σ) (v : Value) : Except Defect σ := do
  match v with
  | .text s => throw (.found (.text s) d.name)
  | .list items =>
    let (x, left) ← ofItems d.fields blank items
    if (d.missing? x).isSome then throw (.length 0 d.listName)
    else if left.isEmpty then return x
    else throw (.length items.length "fewer elements in array")
  | .map entries =>
    let x ← d.ofEntries blank entries
    match d.missing? x with
    | some field => throw (.missingField field.name)
    | none => return x

end Record

/-- A text from plain data. -/
def textOfValue : Value → Except Defect String
  | .text s => .ok s
  | .list _ => .error (.found .array "a string")
  | .map _ => .error (.found .object "a string")

/-- A list from plain data. -/
def listOfValue : Value → Except Defect (List Value)
  | .list items => .ok items
  | .text s => .error (.found (.text s) "a sequence")
  | .map _ => .error (.found .object "a sequence")

end TaggedYaml.Json
