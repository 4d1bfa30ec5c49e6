/-!
# What a plain scalar would be taken for

A reader that knows numbers, booleans, null and dates takes some plain texts for one of these.
`hasOtherMeaning` tells such texts from those that are read as strings.
-/

namespace TaggedYaml

/-- Words for null, booleans and the merge key. -/
def meaningWords : List String :=
  ["~", "null", "Null", "NULL", "true", "True", "TRUE", "false", "False", "FALSE", "yes", "Yes",
    "YES", "no", "No", "NO", "on", "On", "ON", "off", "Off", "OFF", "y", "Y", "n", "N", "<<"]

/-- The text behind a sign, if there is one. -/
def unsigned (s : List Char) : List Char :=
  match s with
  | '-' :: rest | '+' :: rest => rest
  | _ => s

/-- All characters are of a class, and there is one. -/
def isRun (p : Char → Bool) (s : List Char) : Bool := !s.isEmpty && s.all p

/-- A digit or an underscore. -/
def isGroupChar (c : Char) : Bool := c.isDigit || c == '_'

/-- A digit and then digits and underscores. -/
def isGrouped (s : List Char) : Bool :=
  match s with
  | [] => false
  | c :: rest => c.isDigit && rest.all isGroupChar

/-- `0x`, `0o` or `0b` and digits of that base or underscores. -/
def isRadix (s : List Char) : Bool :=
  match s with
  | '0' :: 'x' :: rest =>
    isRun (fun c => isGroupChar c || ('a' ≤ c && c ≤ 'f') || ('A' ≤ c && c ≤ 'F')) rest
  | '0' :: 'o' :: rest => isRun (fun c => ('0' ≤ c && c ≤ '7') || c == '_') rest
  | '0' :: 'b' :: rest => isRun (fun c => c == '0' || c == '1' || c == '_') rest
  | _ => false

/-- The letter that begins an exponent. -/
def isExponentMark (c : Char) : Bool := c == 'e' || c == 'E'

/-- The digits before an exponent: `.5`, `5`, `5.` or `5.5`, with underscores behind the first. -/
def isMantissa (s : List Char) : Bool :=
  match s with
  | '.' :: rest => isRun Char.isDigit rest
  | _ =>
    match s.dropWhile (· != '.') with
    | [] => isGrouped s
    | _ :: rest => isGrouped (s.takeWhile (· != '.')) && rest.all isGroupChar

/-- A decimal number with an optional exponent. -/
def isDecimalNumber (s : List Char) : Bool :=
  match s.dropWhile (!isExponentMark ·) with
  | [] => isMantissa s
  | _ :: e => isMantissa (s.takeWhile (!isExponentMark ·)) && isRun Char.isDigit (unsigned e)

/-- `.inf`, in one of three spellings. -/
def isInfinity (s : List Char) : Bool :=
  [".inf", ".Inf", ".INF"].any (·.toList == s)

/-- `.nan`, in one of three spellings. -/
def isNotANumber (s : List Char) : Bool :=
  [".nan", ".NaN", ".NAN"].any (·.toList == s)

/-- One or two digits, and what is behind them. -/
def dropDayDigits? (s : List Char) : List (List Char) :=
  match s with
  | a :: rest =>
    if a.isDigit then
      match rest with
      | b :: rest' => if b.isDigit then [rest', rest] else [rest]
      | [] => [rest]
    else []
  | [] => []

/-- A text that begins with a date: four digits, `-`, one or two digits, `-`, a digit. -/
def beginsWithDate (s : List Char) : Bool :=
  isRun Char.isDigit (s.take 4) && (s.take 4).length == 4 &&
    match s.drop 4 with
    | '-' :: rest =>
      (dropDayDigits? rest).any fun rest =>
        match rest with
        | '-' :: c :: _ => c.isDigit
        | _ => false
    | _ => false

/-- A plain text that a reader would not take for a string. -/
def hasOtherMeaning (s : List Char) : Bool :=
  meaningWords.any (·.toList == s) || isGrouped (unsigned s) || isRadix (unsigned s) ||
    isDecimalNumber (unsigned s) || isInfinity (unsigned s) || isNotANumber s || beginsWithDate s

end TaggedYaml
