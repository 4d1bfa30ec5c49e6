import TaggedYaml.Unicode.Property

/-!
# Classes of characters

The classes that patterns and messages need.  Patterns know the characters of version 16 of the
standard, and names of groups and messages also those of version 17.
-/

namespace TaggedYaml.Unicode

/-- The characters that version 17 added, by general category. -/
def laterCharacters : List (String × List String) :=
  [("Lu", ["A7CE A7D2 A7D4 16EA0-16EB8"]), ("Ll", ["A7CF 16EBB-16ED3"]),
    ("Lm", ["A7F1 10EC5 11DD9 16FF2-16FF3 1E6FF"]),
    ("Lo",
      ["88F C5C CDC 10940-10959 10EC6-10EC7 11DB0-11DD8 11DDA-11DDB 187F8-187FF 18D09-18D1E",
        "18D80-18DF2 1E6C0-1E6DE 1E6E0-1E6E2 1E6E4-1E6E5 1E6E7-1E6ED 1E6F0-1E6F4 1E6FE",
        "2B73A-2B73F 2CEA2-2CEAD 323B0-33479"]),
    ("Mn",
      ["1ACF-1ADD 1AE0-1AEB 10EFA-10EFB 11B60 11B62-11B64 11B66 1E6E3 1E6E6 1E6EE-1E6EF 1E6F5"]),
    ("Mc", ["11B61 11B65 11B67"]), ("Nd", ["11DE0-11DE9"]), ("Nl", ["16FF4-16FF6"]),
    ("Po", ["10ED0"]), ("Sc", ["20C1"]), ("Sm", ["1CEF0 1F8D0-1F8D8"]),
    ("So",
      ["2B96 FBC3-FBD2 FD90-FD91 FDC8-FDCE 10ED1-10ED8 1CCFA-1CCFC 1CEBA-1CED0 1CEE0-1CEEF 1F6D8",
        "1F777-1F77A 1FA54-1FA57 1FA8A 1FA8E 1FAC8 1FACD 1FAEA 1FAEF 1FBFA"])]

/-- The characters that version 17 added to some general categories. -/
def later (codes : List String) : CodeSet :=
  .ofIntervals <| laterCharacters.flatMap fun c =>
    if codes.any (·.isPrefixOf c.1) then (CodeSet.ofLines c.2).intervals else []

/-- Marks of version 17 that count as letters. -/
def laterAlphabetic : CodeSet :=
  .ofLines ["10EFA-10EFB 11B60-11B67 1E6E3 1E6E6 1E6EE-1E6EF 1E6F5"]

/-- Letters and numbers, and what counts as letters. -/
def alphanumericCodes : CodeSet :=
  (Rule.either .alphabetic (.category ["N"])).codes.union ((later ["L", "N"]).union laterAlphabetic)

/-- Letters, and what counts as letters. -/
def alphabeticCodes : CodeSet :=
  Rule.alphabetic.codes.union ((later ["L", "Nl"]).union laterAlphabetic)

def digitCodes : CodeSet := (Rule.category ["Nd"]).codes

/-- Characters of words: letters, marks, digits, connectors and the two joiners. -/
def wordCodes : CodeSet :=
  (Rule.either (.either .alphabetic (.category ["M", "Nd", "Pc"])) .joinControl).codes

/-- Characters that do not show as themselves: what has no form, is white space or belongs to the
character before it.  The sound marks of narrow kana show all the same. -/
def hiddenCodes : CodeSet :=
  ((Rule.except
      (.either (.category ["C", "Z"]) .graphemeExtend)
      (.listed ["FF9E-FF9F"])).codes.diff (later [""])).union (later ["Mn"])

/-- Letters of any script. -/
def isAlphabetic (n : Nat) : Bool :=
  if n < 0x80 then (Char.ofNat n).isAlpha else alphabeticCodes.contains n

/-- Letters and numbers of any script. -/
def isAlphanumeric (n : Nat) : Bool :=
  if n < 0x80 then (Char.ofNat n).isAlphanum else alphanumericCodes.contains n

/-- Decimal digits of any script. -/
def isDigit (n : Nat) : Bool :=
  if n < 0x80 then 0x30 ≤ n && n ≤ 0x39 else digitCodes.contains n

/-- ASCII letters, digits and the underscore. -/
def isAsciiWord (n : Nat) : Bool :=
  (0x61 ≤ n && n ≤ 0x7A) || (0x41 ≤ n && n ≤ 0x5A) || (0x30 ≤ n && n ≤ 0x39) || n == 0x5F

/-- Characters of words of any script. -/
def isWord (n : Nat) : Bool := if n < 0x80 then isAsciiWord n else wordCodes.contains n

/-- Characters that show as themselves in messages. -/
def isShown (n : Nat) : Bool := if n < 0x80 then 0x20 ≤ n && n < 0x7F else !hiddenCodes.contains n

end TaggedYaml.Unicode
