import TaggedYaml.Json.Fault
import TaggedYaml.Text.Class

/-!
# Reading JSON text

A reader is what is left of a text and its place, with columns in bytes.  This module reads the
leaves: blanks, names, strings and numbers.
-/

namespace TaggedYaml.Json

/-- The place behind a character. -/
def Place.after (p : Place) (c : Char) : Place :=
  if c == '\n' then ⟨p.line + 1, 0⟩ else ⟨p.line, p.column + c.utf8Size⟩

/-- The place behind a number of bytes of a text. -/
def Place.afterBytes (p : Place) : Nat → List Char → Place
  | _, [] => p
  | n, c :: rest =>
    if c.utf8Size ≤ n then (p.after c).afterBytes (n - c.utf8Size) rest
    else ⟨p.line, p.column + n⟩

/-- What is left of a text. -/
structure Reader where
  rest : List Char
  place : Place

namespace Reader

def ofList (text : List Char) : Reader := ⟨text, ⟨1, 0⟩⟩

def head? (r : Reader) : Option Char := r.rest.head?

/-- Passes a character. -/
def skip (r : Reader) : Reader :=
  match r.rest with
  | [] => r
  | c :: rest => ⟨rest, r.place.after c⟩

/-- Passes the longest run of characters of a class. -/
def skipRun (r : Reader) (p : Char → Bool) : Reader :=
  ⟨r.rest.dropWhile p, (r.rest.takeWhile p).foldl .after r.place⟩

/-- Fails here. -/
def fail {α : Type} (r : Reader) (d : Defect) : Except Fault α := .error ⟨d, some r.place⟩

/-- Fails behind the next byte. -/
def failNext {α : Type} (r : Reader) (d : Defect) : Except Fault α :=
  .error ⟨d, some (r.place.afterBytes 1 r.rest)⟩

/-- Passes blanks and line breaks. -/
def skipBlanks (r : Reader) : Reader :=
  r.skipRun fun c => c == ' ' || c == '\n' || c == '\t' || c == '\r'

/-- Passes the characters of a name. -/
def skipName : List Char → Reader → Except Fault Reader
  | [], r => .ok r
  | x :: name, r =>
    match r.rest with
    | [] => r.fail .endOfValue
    | c :: _ => if c == x then skipName name r.skip else r.failNext .ident

/-! ### Strings -/

/-- The four digits of an escape. -/
def readHexDigits (r : Reader) : Except Fault (Nat × Reader) :=
  let bytes := (r.rest.take 4).foldr (fun c n => c.utf8Size + n) 0
  if bytes < 4 then (r.skipRun fun _ => true).fail .endOfString
  else
    match (r.rest.take 4).mapM hexValue? with
    | some ds => .ok (ds.foldl (16 * · + ·) 0, r.skip.skip.skip.skip)
    | none => .error ⟨.escape, some (r.place.afterBytes 4 r.rest)⟩

/-- Passes a character of an escape that stands for the second half of a pair. -/
def skipPairMark (r : Reader) (x : Char) : Except Fault Reader :=
  match r.rest with
  | [] => r.fail .endOfString
  | c :: _ => if c == x then .ok r.skip else r.failNext .hexEscape

/-- Reads the digits of an escape, and a second escape if the first is half of a pair. -/
def readCode (r : Reader) : Except Fault (Char × Reader) := do
  let (a, r) ← r.readHexDigits
  if 0xDC00 ≤ a ∧ a ≤ 0xDFFF then r.fail .loneSurrogate
  else if a < 0xD800 ∨ 0xDBFF < a then return (Char.ofNat a, r)
  else
    let r ← r.skipPairMark '\\'
    let r ← r.skipPairMark 'u'
    let (b, r) ← r.readHexDigits
    if b < 0xDC00 ∨ 0xDFFF < b then r.fail .loneSurrogate
    else return (Char.ofNat ((a - 0xD800) * 1024 + (b - 0xDC00) + 0x10000), r)

/-- What a backslash and this character stand for. -/
def escape? (c : Char) : Option Char :=
  match c with
  | '"' | '\\' | '/' => some c
  | 'b' => some '\x08'
  | 'f' => some '\x0c'
  | 'n' => some '\n'
  | 'r' => some '\r'
  | 't' => some '\t'
  | _ => none

/-- Reads an escape behind its backslash. -/
def readEscape (r : Reader) : Except Fault (Char × Reader) :=
  match r.rest with
  | [] => r.fail .endOfString
  | c :: _ =>
    match escape? c with
    | some x => .ok (x, r.skip)
    | none => if c == 'u' then r.skip.readCode else r.failNext .escape

/-- Rounds of `readString`, each over a character or an escape; the text is last first. -/
def readStringLoop : Nat → List Char → Reader → Except Fault (List Char × Reader)
  | 0, _, r => r.fail .endOfString
  | fuel + 1, text, r =>
    match r.rest with
    | [] => r.fail .endOfString
    | c :: _ =>
      if c == '"' then .ok (text, r.skip)
      else if c == '\\' then do
        let (x, r) ← r.skip.readEscape
        readStringLoop fuel (x :: text) r
      else if c.toNat < 0x20 then r.failNext .controlChar
      else readStringLoop fuel (c :: text) r.skip

/-- Reads a string behind its opening quote. -/
def readString (r : Reader) : Except Fault (String × Reader) := do
  let (text, r) ← readStringLoop (r.rest.length + 1) [] r
  return (String.ofList text.reverse, r)

end Reader

/-! ### Numbers -/

/-- A number. -/
inductive Number where
  | int (signed : Bool) (bits : BitVec 64)
  | float (x : Float)

/-- Natural numbers below this have at most 64 bits. -/
def wordBound : Nat := 0x10000000000000000

/-- Takes digits as long as the number they make with those before stays below a bound; gives that
number, how many were taken, and the digits that are left. -/
def takeDigits (bound : Nat) : Nat → List Char → Nat × Nat × List Char
  | n, [] => (n, 0, [])
  | n, d :: ds =>
    let m := 10 * n + (d.toNat - '0'.toNat)
    if m < bound then
      let (n, k, rest) := takeDigits bound m ds
      (n, k + 1, rest)
    else (n, 0, d :: ds)

/-- A power of ten with a small exponent. -/
def floatPow10 (n : Nat) : Float := Float.ofScientific 1 false n

/-- The number `s · 10 ^ e` by one multiplication or by divisions by at most `10 ^ 308` each; there
is none if it is too large. -/
def floatOfParts : Nat → Float → Int → Option Float
  | 0, s, _ => some s
  | fuel + 1, s, e =>
    if e.natAbs ≤ 308 then
      if e ≥ 0 then
        let x := s * floatPow10 e.natAbs
        if x.isInf then none else some x
      else some (s / floatPow10 e.natAbs)
    else if s == 0 then some s
    else if e ≥ 0 then none
    else floatOfParts fuel (s / floatPow10 308) (e + 308)

def float? (negative : Bool) (s : Nat) (e : Int) : Option Number :=
  (floatOfParts 4 (Float.ofScientific s false 0) e).map fun x =>
    .float (if negative then -x else x)

namespace Reader

/-- The digits from here on. -/
def digits (r : Reader) : List Char := r.rest.takeWhile Char.isDigit

def skipDigits (r : Reader) : Reader := r.skipRun Char.isDigit

/-- A floating point number, if it is not too large. -/
def float (r : Reader) (negative : Bool) (s : Nat) (e : Int) : Except Fault (Number × Reader) :=
  match float? negative s e with
  | some x => .ok (x, r)
  | none => r.fail .numberRange

/-- Reads the exponent of a number from its `e` on. -/
def readExponent (r : Reader) (negative : Bool) (s : Nat) (e : Int) :
    Except Fault (Number × Reader) :=
  let r := r.skip
  let down := r.head? == some '-'
  let r := if down || r.head? == some '+' then r.skip else r
  match r.head? with
  | none => r.fail .endOfValue
  | some c =>
    if !c.isDigit then r.failNext .number
    else
      let (n, k, excess) := takeDigits 0x80000000 0 r.digits
      if excess.isEmpty then r.skipDigits.float negative s (if down then e - n else e + n)
      else if s = 0 || down then r.skipDigits.float negative 0 0
      else .error ⟨.numberRange, some (r.place.afterBytes (k + 1) r.rest)⟩

/-- Reads the rest of a number behind the digits before its point. -/
def readFraction (r : Reader) (negative : Bool) (s : Nat) (e : Int) :
    Except Fault (Number × Reader) :=
  let r := r.skip
  match r.head? with
  | none => r.fail .endOfValue
  | some c =>
    if !c.isDigit then r.failNext .number
    else
      let (s, k, _) := takeDigits wordBound s r.digits
      let r := r.skipDigits
      match r.head? with
      | some 'e' | some 'E' => r.readExponent negative s (e - k)
      | _ => r.float negative s (e - k)

/-- Reads a number behind its sign.  Whole numbers that fit 64 bits are integers; a zero with a
sign is not. -/
def readNumber (r : Reader) (negative : Bool) : Except Fault (Number × Reader) :=
  match r.head? with
  | none => r.fail .endOfValue
  | some c =>
    if !c.isDigit then r.failNext .number
    else if c == '0' && r.skip.head?.any Char.isDigit then r.skip.failNext .number
    else
      let (s, _, excess) := takeDigits wordBound 0 r.digits
      let r := r.skipDigits
      match r.head? with
      | some '.' => r.readFraction negative s excess.length
      | some 'e' | some 'E' => r.readExponent negative s excess.length
      | _ =>
        if !excess.isEmpty || (negative && (s = 0 || s > wordBound / 2)) then
          r.float negative s excess.length
        else .ok (.int negative (.ofInt 64 (if negative then -s else s)), r)

end Reader

end TaggedYaml.Json
