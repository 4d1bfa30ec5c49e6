import TaggedYaml.Decimal.Shortest

/-!
# Floating point numbers as text

Both texts give the shortest digits.  `floatText` never uses an exponent and writes whole numbers
without a point; `floatExact` keeps a point in every number and uses an exponent for very large and
very small ones.
-/

namespace TaggedYaml

/-- The decimal digits of a number. -/
def natDigits (n : Nat) : List Char := Nat.toDigits 10 n

/-- A decimal without an exponent, in full. -/
def Decimal.positional (d : Decimal) : List Char :=
  let ds := natDigits d.digits
  if d.exponent ≥ 0 then ds ++ List.replicate d.exponent.toNat '0'
  else
    let places := (-d.exponent).toNat
    if ds.length > places then
      ds.take (ds.length - places) ++ '.' :: ds.drop (ds.length - places)
    else ['0', '.'] ++ List.replicate (places - ds.length) '0' ++ ds

/-- A decimal with an exponent, which has a sign, and one digit before the point. -/
def Decimal.scientific (d : Decimal) : List Char :=
  let ds := natDigits d.digits
  let e := d.exponent + ds.length - 1
  let sign := if e < 0 then '-' else '+'
  let exponent := 'e' :: sign :: natDigits e.natAbs
  match ds with
  | a :: rest => if rest.isEmpty then a :: exponent else a :: '.' :: rest ++ exponent
  | [] => exponent

/-- The digits without an exponent, with `.0` if there is no point. -/
def Decimal.pointed (d : Decimal) : List Char :=
  if d.exponent ≥ 0 then d.positional ++ ['.', '0'] else d.positional

/-- The place of the point, counted from the first digit. -/
def Decimal.point (d : Decimal) : Int := (natDigits d.digits).length + d.exponent

def signText (negative : Bool) : List Char := if negative then ['-'] else []

/-- A floating point number without an exponent. -/
def floatText (x : Float) : String :=
  String.ofList <|
    match FloatParts.ofFloat x with
    | .nan => ['N', 'a', 'N']
    | .infinite s => signText s ++ ['i', 'n', 'f']
    | .zero s => signText s ++ ['0']
    | .finite s b => signText s ++ b.shortest.positional

/-- A floating point number with a point or an exponent. -/
def floatExact (x : Float) : String :=
  String.ofList <|
    match FloatParts.ofFloat x with
    | .nan => ['N', 'a', 'N']
    | .infinite s => signText s ++ ['i', 'n', 'f']
    | .zero s => signText s ++ ['0', '.', '0']
    | .finite s b =>
      let d := b.shortest
      signText s ++ if -5 < d.point ∧ d.point ≤ 16 then d.pointed else d.scientific

end TaggedYaml
