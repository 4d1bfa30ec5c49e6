/-!
# Shortest decimals

A binary fraction `m · 2 ^ q` of a floating point format stands for every real that rounds to it.
`shortest` is a decimal among these with as few digits as possible, and of two such the one nearer
to the fraction; of two equally near ones it is the greater.  All comparisons are between natural
numbers.
-/

namespace TaggedYaml

/-- A decimal `digits · 10 ^ exponent`. -/
structure Decimal where
  digits : Nat
  exponent : Int
deriving DecidableEq, Repr

/-- A positive number of a binary format, `mantissa · 2 ^ exponent`. -/
structure BinaryFraction where
  mantissa : Nat
  exponent : Int
  /-- The next smaller number of the format is only half as far away as the next greater one. -/
  narrowBelow : Bool
deriving DecidableEq, Repr

namespace BinaryFraction

/-- Compares `x · 2 ^ (exponent - 2)` with `c · 10 ^ k`. -/
def compareQuarters (b : BinaryFraction) (x c : Nat) (k : Int) : Ordering :=
  let q := b.exponent - 2
  compare (x * Nat.pow 2 q.toNat * Nat.pow 10 (-k).toNat)
    (c * Nat.pow 10 k.toNat * Nat.pow 2 (-q).toNat)

/-- The decimal `c · 10 ^ k` rounds to the fraction.  Halfway cases belong to an even mantissa. -/
def covers (b : BinaryFraction) (c : Nat) (k : Int) : Bool :=
  let low := 4 * b.mantissa - if b.narrowBelow then 1 else 2
  let high := 4 * b.mantissa + 2
  let closed := b.mantissa % 2 == 0
  match b.compareQuarters low c k, b.compareQuarters high c k with
  | .lt, .gt => true
  | .eq, _ | _, .eq => closed
  | _, _ => false

/-- The fraction in units of `10 ^ k`, rounded down. -/
def floorUnits (b : BinaryFraction) (k : Int) : Nat :=
  b.mantissa * Nat.pow 2 b.exponent.toNat * Nat.pow 10 (-k).toNat /
    (Nat.pow 10 k.toNat * Nat.pow 2 (-b.exponent).toNat)

/-- The middle between `c` and `c + 1` units of `10 ^ k` lies above the fraction. -/
def belowMiddle (b : BinaryFraction) (c : Nat) (k : Int) : Bool :=
  b.compareQuarters (8 * b.mantissa) (2 * c + 1) k == .lt

/-- The decimal next to the fraction on the grid of `10 ^ k`, if one of its two neighbours there
rounds to it. -/
def onGrid? (b : BinaryFraction) (k : Int) : Option Decimal :=
  let c := b.floorUnits k
  match c != 0 && b.covers c k, b.covers (c + 1) k with
  | true, true => some ⟨if b.belowMiddle c k then c else c + 1, k⟩
  | true, false => some ⟨c, k⟩
  | false, true => some ⟨c + 1, k⟩
  | false, false => none

/-- The first hit on ever finer grids. -/
def search (b : BinaryFraction) : Nat → Int → Decimal
  | 0, k => ⟨b.floorUnits k, k⟩
  | fuel + 1, k =>
    match b.onGrid? k with
    | some d => d
    | none => search b fuel (k - 1)

/-- A power of ten above the fraction. -/
def topExponent (b : BinaryFraction) : Int :=
  ((b.mantissa.log2 : Int) + b.exponent + 1) * 30103 / 100000 + 1

/-- The shortest decimal that rounds to the fraction. -/
def shortest (b : BinaryFraction) : Decimal := b.search 40 b.topExponent

end BinaryFraction

/-- What a floating point number is. -/
inductive FloatParts where
  | nan
  | infinite (negative : Bool)
  | zero (negative : Bool)
  | finite (negative : Bool) (size : BinaryFraction)

/-- Takes a double precision number apart. -/
def FloatParts.ofFloat (x : Float) : FloatParts :=
  let bits : Nat := x.toBits.toNat
  let unit : Nat := 0x10000000000000
  let negative := bits / (2048 * unit) == 1
  let e : Nat := bits / unit % 2048
  let f : Nat := bits % unit
  if e = 2047 then if f = 0 then .infinite negative else .nan
  else if e = 0 then if f = 0 then .zero negative else .finite negative ⟨f, -1074, false⟩
  else .finite negative ⟨unit + f, (e : Int) - 1075, f == 0 && e != 1⟩

end TaggedYaml
