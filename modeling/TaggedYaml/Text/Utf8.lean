/-!
# Bytes as text

`decodeUtf8` reads well-formed UTF-8: no overlong forms, no surrogates, nothing above U+10FFFF.  At
the first byte that cannot be read it tells how many bytes belong to the broken sequence, or that
the text ends within one.
-/

namespace TaggedYaml

/-- Why bytes are no text. -/
structure Utf8Fault where
  /-- How many bytes are well-formed. -/
  validUpTo : Nat
  /-- The length of the broken sequence behind them; there is none if the text just ends. -/
  length : Option Nat
deriving DecidableEq, Repr

/-- The wording of a fault. -/
def Utf8Fault.message (f : Utf8Fault) : String :=
  match f.length with
  | some n =>
    "invalid utf-8 sequence of " ++ toString n ++ " bytes from index " ++ toString f.validUpTo
  | none => "incomplete utf-8 byte sequence from index " ++ toString f.validUpTo

/-- A byte that goes on with a sequence. -/
def isTrailByte (b : UInt8) : Bool := 0x80 ≤ b && b ≤ 0xBF

/-- The bytes that may stand second in a sequence with this first one. -/
def isSecondByte (first b : UInt8) : Bool :=
  if first == 0xE0 then 0xA0 ≤ b && b ≤ 0xBF
  else if first == 0xED then 0x80 ≤ b && b ≤ 0x9F
  else if first == 0xF0 then 0x90 ≤ b && b ≤ 0xBF
  else if first == 0xF4 then 0x80 ≤ b && b ≤ 0x8F
  else isTrailByte b

/-- The length of a sequence with this first byte. -/
def utf8Width? (first : UInt8) : Option Nat :=
  if first < 0x80 then some 1
  else if 0xC2 ≤ first && first ≤ 0xDF then some 2
  else if 0xE0 ≤ first && first ≤ 0xEF then some 3
  else if 0xF0 ≤ first && first ≤ 0xF4 then some 4
  else none

/-- The six low bits of a byte. -/
def lowBits (b : UInt8) : Nat := b.toNat % 64

/-- Reads bytes as characters, the last first; `pos` bytes were read before them. -/
def decodeUtf8Loop (text : List Char) (pos : Nat) :
    List UInt8 → Except Utf8Fault (List Char)
  | [] => .ok text
  | a :: rest =>
    match utf8Width? a with
    | none => .error ⟨pos, some 1⟩
    | some 1 => decodeUtf8Loop (Char.ofNat a.toNat :: text) (pos + 1) rest
    | some w =>
      match rest with
      | [] => .error ⟨pos, none⟩
      | b :: rest =>
        if !isSecondByte a b then .error ⟨pos, some 1⟩
        else if w = 2 then
          decodeUtf8Loop (Char.ofNat (a.toNat % 32 * 64 + lowBits b) :: text) (pos + 2) rest
        else
          match rest with
          | [] => .error ⟨pos, none⟩
          | c :: rest =>
            if !isTrailByte c then .error ⟨pos, some 2⟩
            else if w = 3 then
              let code := a.toNat % 16 * 4096 + lowBits b * 64 + lowBits c
              decodeUtf8Loop (Char.ofNat code :: text) (pos + 3) rest
            else
              match rest with
              | [] => .error ⟨pos, none⟩
              | d :: rest =>
                if !isTrailByte d then .error ⟨pos, some 3⟩
                else
                  let code := a.toNat % 8 * 262144 + lowBits b * 4096 + lowBits c * 64 + lowBits d
                  decodeUtf8Loop (Char.ofNat code :: text) (pos + 4) rest

/-- Reads bytes as text. -/
def decodeUtf8 (bytes : List UInt8) : Except Utf8Fault String := do
  return String.ofList (← decodeUtf8Loop [] 0 bytes).reverse

end TaggedYaml
