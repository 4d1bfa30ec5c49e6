import TaggedYaml.Json.Members

/-!
# Passing values

A value that nobody asks for is passed without a look at what it means: containers may nest to any
depth, a number may be of any size, and an escape may stand for half a character.
-/

namespace TaggedYaml.Json

/-- The bracket of a list or the brace of an object. -/
inductive Bracket where
  | list
  | object
deriving DecidableEq, Repr

namespace Reader

/-! ### Strings and numbers -/

/-- Passes an escape behind its backslash. -/
def passEscape (r : Reader) : Except Fault Reader :=
  match r.head? with
  | none => r.fail .endOfString
  | some c =>
    if c == 'u' then r.skip.readHexDigits.map (·.2)
    else if (escape? c).isSome then .ok r.skip
    else r.failNext .escape

/-- Rounds of `passString`, each over a character or an escape. -/
def passStringLoop : Nat → Reader → Except Fault Reader
  | 0, r => r.fail .endOfString
  | fuel + 1, r =>
    match r.head? with
    | none => r.fail .endOfString
    | some c =>
      if c == '"' then .ok r.skip
      else if c == '\\' then do passStringLoop fuel (← r.skip.passEscape)
      else if c.toNat < 0x20 then r.fail .controlChar
      else passStringLoop fuel r.skip

/-- Passes a string behind its opening quote. -/
def passString (r : Reader) : Except Fault Reader := passStringLoop (r.rest.length + 1) r

/-- Passes digits, of which there has to be one. -/
def passDigits (r : Reader) : Except Fault Reader :=
  if r.head?.any Char.isDigit then .ok r.skipDigits else r.failNext .number

/-- Passes an exponent, if there is one. -/
def passExponent (r : Reader) : Except Fault Reader :=
  match r.head? with
  | some 'e' | some 'E' =>
    let r := r.skip
    (if r.head? == some '+' || r.head? == some '-' then r.skip else r).passDigits
  | _ => .ok r

/-- Passes a number behind its sign. -/
def passNumber (r : Reader) : Except Fault Reader := do
  if r.head? == some '0' && r.skip.head?.any Char.isDigit then r.skip.failNext .number
  else
    let r ← r.passDigits
    if r.head? == some '.' then (← r.skip.passDigits).passExponent else r.passExponent

/-! ### Values -/

/-- What comes next. -/
inductive PassGoal where
  | value
  /-- The members of the innermost container, of which there is one if it is not the first. -/
  | members (first : Bool)

/-- Passes a key and its colon. -/
def passKey (r : Reader) : Except Fault Reader := do
  let r := r.skipBlanks
  match r.head? with
  | none => r.fail .endOfObject
  | some '"' => (← r.skip.passString).passColon
  | some _ => r.failNext .keyString

/-- Rounds of `pass`, each over a value or a bracket; the open containers are innermost first. -/
def passLoop : Nat → PassGoal → List Bracket → Reader → Except Fault Reader
  | 0, _, _, r => r.fail .endOfValue
  | fuel + 1, .value, outer, r => do
    let r := r.skipBlanks
    match r.head? with
    | none => r.fail .endOfValue
    | some 'n' => passLoop fuel (.members false) outer (← r.skip.skipName "ull".toList)
    | some 't' => passLoop fuel (.members false) outer (← r.skip.skipName "rue".toList)
    | some 'f' => passLoop fuel (.members false) outer (← r.skip.skipName "alse".toList)
    | some '"' => passLoop fuel (.members false) outer (← r.skip.passString)
    | some '[' => passLoop fuel (.members true) (.list :: outer) r.skip
    | some '\x7b' => passLoop fuel (.members true) (.object :: outer) r.skip
    | some '-' => passLoop fuel (.members false) outer (← r.skip.passNumber)
    | some c =>
      if c.isDigit then passLoop fuel (.members false) outer (← r.passNumber)
      else r.failNext .value
  | _ + 1, .members _, [], r => .ok r
  | fuel + 1, .members first, .list :: outer, r =>
    let r := r.skipBlanks
    match r.head? with
    | none => r.fail .endOfList
    | some ']' => passLoop fuel (.members false) outer r.skip
    | some c =>
      if first then passLoop fuel .value (.list :: outer) r
      else if c == ',' then passLoop fuel .value (.list :: outer) r.skip
      else r.failNext .listComma
  | fuel + 1, .members first, .object :: outer, r => do
    let r := r.skipBlanks
    match r.head? with
    | none => r.fail .endOfObject
    | some '\x7d' => passLoop fuel (.members false) outer r.skip
    | some c =>
      if first then passLoop fuel .value (.object :: outer) (← r.passKey)
      else if c == ',' then passLoop fuel .value (.object :: outer) (← r.skip.passKey)
      else r.failNext .objectComma

/-- Passes a value. -/
def pass (r : Reader) : Except Fault Reader := passLoop (2 * r.rest.length + 2) .value [] r

end Reader

end TaggedYaml.Json
