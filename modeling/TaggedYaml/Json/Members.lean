import TaggedYaml.Json.Reader

/-!
# Going through lists and objects

These steps lead from one member to the next.  What a member is does not matter here.
-/

namespace TaggedYaml.Json.Reader

/-- Goes to the next item of a list; there is none at the closing bracket. -/
def nextItem? (r : Reader) (first : Bool) : Except Fault (Option Reader) :=
  let r := r.skipBlanks
  match r.head? with
  | none => r.fail .endOfList
  | some ']' => .ok none
  | some c =>
    if first then .ok (some r)
    else if c == ',' then
      let r := r.skip.skipBlanks
      match r.head? with
      | none => r.fail .endOfValue
      | some ']' => r.failNext .trailingComma
      | some _ => .ok (some r)
    else r.failNext .listComma

/-- Goes to the next key of an object, which has to be a string. -/
def nextQuote? (r : Reader) (first : Bool) : Except Fault (Option Reader) :=
  let r := r.skipBlanks
  match r.head? with
  | none => r.fail .endOfObject
  | some '\x7d' => .ok none
  | some c =>
    if first then if c == '"' then .ok (some r.skip) else r.failNext .keyString
    else if c == ',' then
      let r := r.skip.skipBlanks
      match r.head? with
      | none => r.fail .endOfValue
      | some '"' => .ok (some r.skip)
      | some '\x7d' => r.failNext .trailingComma
      | some _ => r.failNext .keyString
    else r.failNext .objectComma

/-- Reads the next key of an object; there is none at the closing brace. -/
def nextKey? (r : Reader) (first : Bool) : Except Fault (Option (String × Reader)) := do
  match ← r.nextQuote? first with
  | none => return none
  | some r => return some (← r.readString)

/-- Passes the colon behind a key. -/
def passColon (r : Reader) : Except Fault Reader :=
  let r := r.skipBlanks
  match r.head? with
  | none => r.fail .endOfObject
  | some ':' => .ok r.skip
  | some _ => r.failNext .colon

/-- Passes the bracket that closes a list or an object. -/
def closed (r : Reader) : Reader := r.skipBlanks.skip

/-- Nothing but blanks may follow. -/
def finish (r : Reader) : Except Fault Unit :=
  let r := r.skipBlanks
  if r.rest.isEmpty then .ok () else r.failNext .trailingChars

end TaggedYaml.Json.Reader
