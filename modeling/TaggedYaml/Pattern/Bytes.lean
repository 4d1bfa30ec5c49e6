import TaggedYaml.Unicode.CodeSet

/-!
# Bytes — sets of characters in UTF-8

The characters of an interval are, in UTF-8, a few sequences of ranges of bytes: a character belongs
to the interval if each of its bytes lies in the range at its place in one of the sequences.
-/

namespace TaggedYaml.Pattern

/-- The bytes from `first` to `last`. -/
structure ByteRange where
  first : Nat
  last : Nat
deriving DecidableEq, Repr

/-- The bytes of a character. -/
def utf8Bytes (n : Nat) : List Nat :=
  if n < 0x80 then [n]
  else if n < 0x800 then [0xC0 + n / 0x40, 0x80 + n % 0x40]
  else if n < 0x10000 then [0xE0 + n / 0x1000, 0x80 + n / 0x40 % 0x40, 0x80 + n % 0x40]
  else
    [0xF0 + n / 0x40000, 0x80 + n / 0x1000 % 0x40, 0x80 + n / 0x40 % 0x40, 0x80 + n % 0x40]

/-- The character whose bytes these are, if they are those of a single one. -/
def charOfBytes? (bytes : List Nat) : Option Nat :=
  match bytes with
  | [a] => if a < 0x80 then some a else none
  | [a, b] => if 0xC0 ≤ a && a < 0xE0 then some ((a - 0xC0) * 0x40 + (b - 0x80)) else none
  | [a, b, c] =>
    if 0xE0 ≤ a && a < 0xF0 then
      some ((a - 0xE0) * 0x1000 + (b - 0x80) * 0x40 + (c - 0x80))
    else none
  | [a, b, c, d] =>
    if 0xF0 ≤ a then
      some ((a - 0xF0) * 0x40000 + (b - 0x80) * 0x1000 + (c - 0x80) * 0x40 + (d - 0x80))
    else none
  | _ => none

/-- Where an interval is cut first, if it is more than one sequence: where the number of bytes
changes, or else where the bytes behind some place do not run through all their values. -/
def cutPlace? (first last : Nat) : Option Nat :=
  match [0x7F, 0x7FF, 0xFFFF].find? fun e => first ≤ e && e < last with
  | some e => some (e + 1)
  | none =>
    if last < 0x80 then none
    else
      [0x40, 0x1000, 0x40000].findSome? fun block =>
        if first / block == last / block then none
        else if first % block != 0 then some ((first / block + 1) * block)
        else if last % block != block - 1 then some (last / block * block)
        else none

/-- The parts of an interval that are one sequence each; it is cut at most `fuel` times on the way
to any of them. -/
def sequenceParts : Nat → Nat → Nat → List (Nat × Nat)
  | 0, first, last => [(first, last)]
  | fuel + 1, first, last =>
    match cutPlace? first last with
    | some c => sequenceParts fuel first (c - 1) ++ sequenceParts fuel c last
    | none => [(first, last)]

/-- The sequences of an interval. -/
def byteSequences (r : Unicode.Interval) : List (List ByteRange) :=
  (sequenceParts (r.last - r.first) r.first r.last).map fun (a, b) =>
    (utf8Bytes a).zipWith ByteRange.mk (utf8Bytes b)

end TaggedYaml.Pattern
