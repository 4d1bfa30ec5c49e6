import TaggedYaml.Unicode.Property

/-!
# Breaks

What a code point is where text is cut into characters as they are read, into words and into
sentences.
-/

namespace TaggedYaml.Unicode

namespace Rule

def carriageReturn : Rule := .listed ["D"]

def lineFeed : Rule := .listed ["A"]

/-- It joins what stands before and behind it. -/
def joiner : Rule := .listed ["200D"]

/-- Marks that keep to what stands before them. -/
def extend : Rule := .either graphemeExtend emojiModifier

/-- Format characters that are no signs of numbers. -/
def plainFormat : Rule := .except (.category ["Cf"]) prepended

/-- Characters that nothing is joined to. -/
def control : Rule :=
  .except
    (.either (.either (.category ["Zl", "Zp", "Cc"]) plainFormat)
      (.except ignorable (.except (.listed ["0-10FFFF"]) (.category ["Cn"]))))
    (.either extend (.listed ["A D 200C-200D"]))

/-- Characters that are joined to what stands behind them. -/
def prepend : Rule :=
  .either prepended
    (.listed
      ["D4E 111C2-111C3 113D1 1193F 11941 11A3A 11A84-11A89 11D46 11F02"])

/-- Marks with width that are joined to what stands before them. -/
def joinedSpacing : Rule :=
  .except (.either (.category ["Mc"]) (.listed ["E33 EB3"]))
    (.either extend
      (.listed
        ["102B-102C 1038 1062-1064 1067-106D 1083 1087-108C 108F 109A-109C 1A61 1A63-1A64 AA7B",
          "AA7D 11720-11721"]))

/-- Syllables without a last consonant. -/
def openSyllable : Rule := .every 28 0xAC00 0xD7A3

def closedSyllable : Rule := .except (.listed ["AC00-D7A3"]) openSyllable

/-- Digits of all scripts, and signs of numbers. -/
def numeric : Rule :=
  .either (.category ["Nd"])
    (.listed ["600-605 66B 6DD 890-891 8E2 110BD 110CD"])

/-- Marks of all kinds. -/
def anyMark : Rule := .either (.category ["Mc"]) extend

/-- Letters of scripts in which words are not set apart. -/
def unspaced : Rule :=
  .listed
    ["E01-E30 E32-E33 E40-E46 E81-E82 E84 E86-E8A E8C-EA3 EA5 EA7-EB0 EB2-EB3 EBD EC0-EC4 EC6",
      "EDC-EDF 1000-102A 103F 1050-1055 105A-105D 1061 1065-1066 106E-1070 1075-1081 108E",
      "1780-17B3 17D7 17DC 1950-196D 1970-1974 1980-19AB 19B0-19C9 1A20-1A54 1AA7 A9E0-A9E4",
      "A9E6-A9EF A9FA-A9FE AA60-AA76 AA7A AA7E-AAAF AAB1 AAB5-AAB6 AAB9-AABD AAC0 AAC2",
      "AADB-AADD 11700-1171A 11740-11746"]

def katakanaLetter : Rule :=
  .either (.script "Kana") (.listed ["3031-3035 309B-309C 30A0 30FC FF70"])

def hebrewLetter : Rule :=
  .except (.script "Hebr") (.except (.listed ["0-10FFFF"]) (.category ["Lo"]))

/-- Letters of words. -/
def wordLetter : Rule :=
  .except
    (.either alphabetic
      (.listed
        ["2C2-2C5 2D2-2D7 2DE-2DF 2E5-2EB 2ED 2EF-2FF 55A-55C 55E 58A 5F3 70F A708-A716",
          "A720-A721 A789-A78A AB5B"]))
    (.either (.either (.either ideographic katakanaLetter) (.either unspaced (.script "Hira")))
      (.either anyMark hebrewLetter))

/-- Full stops. -/
def fullStop : Rule := .listed ["2E 2024 FE52 FF0E"]

/-- Lower case letters, but for those that are no upper case letters either. -/
def lowerLetter : Rule :=
  .except lowercase (.either graphemeExtend (.listed ["10D0-10FA 10FD-10FF"]))

def upperLetter : Rule :=
  .except (.either uppercase (.category ["Lt"])) (.listed ["1C90-1CBA 1CBD-1CBF"])

end Rule

/-- What a code point is for the cut into characters as they are read. -/
def characterBreaks : List Property :=
  [⟨["CR"], .carriageReturn⟩, ⟨["LF"], .lineFeed⟩, ⟨["CN", "Control"], .control⟩,
    ⟨["EX", "Extend"], .extend⟩, ⟨["ZWJ"], .joiner⟩,
    ⟨["RI", "Regional_Indicator"], .regionalIndicator⟩, ⟨["PP", "Prepend"], .prepend⟩,
    ⟨["SM", "SpacingMark"], .joinedSpacing⟩, ⟨["L"], .listed ["1100-115F A960-A97C"]⟩,
    ⟨["V"], .listed ["1160-11A7 D7B0-D7C6 16D63 16D67-16D6A"]⟩,
    ⟨["T"], .listed ["11A8-11FF D7CB-D7FB"]⟩, ⟨["LV"], .openSyllable⟩,
    ⟨["LVT"], .closedSyllable⟩]

/-- What a code point is for the cut into words. -/
def wordBreaks : List Property :=
  [⟨["CR"], .carriageReturn⟩, ⟨["LF"], .lineFeed⟩,
    ⟨["NL", "Newline"], .listed ["B-C 85 2028-2029"]⟩, ⟨["ZWJ"], .joiner⟩,
    ⟨["Extend"], .except .anyMark .joiner⟩,
    ⟨["FO", "Format"],
      .except .plainFormat (.either .anyMark (.listed ["70F 200B-200D"]))⟩,
    ⟨["RI", "Regional_Indicator"], .regionalIndicator⟩, ⟨["KA", "Katakana"], .katakanaLetter⟩,
    ⟨["HL", "Hebrew_Letter"], .hebrewLetter⟩, ⟨["LE", "ALetter"], .wordLetter⟩,
    ⟨["SQ", "Single_Quote"], .listed ["27"]⟩, ⟨["DQ", "Double_Quote"], .listed ["22"]⟩,
    ⟨["MB", "MidNumLet"], .listed ["2E 2018-2019 2024 FE52 FF07 FF0E"]⟩,
    ⟨["ML", "MidLetter"], .listed ["3A B7 387 55F 5F4 2027 FE13 FE55 FF1A"]⟩,
    ⟨["MN", "MidNum"],
      .listed ["2C 3B 37E 589 60C-60D 66C 7F8 2044 FE10 FE14 FE50 FE54 FF0C FF1B"]⟩,
    ⟨["NU", "Numeric"], .numeric⟩,
    ⟨["EX", "ExtendNumLet"], .either (.category ["Pc"]) (.listed ["202F"])⟩,
    ⟨["WSegSpace"], .except (.category ["Zs"]) (.listed ["A0 2007 202F"])⟩]

/-- What a code point is for the cut into sentences. -/
def sentenceBreaks : List Property :=
  [⟨["CR"], .carriageReturn⟩, ⟨["LF"], .lineFeed⟩, ⟨["SE", "Sep"], .listed ["85 2028-2029"]⟩,
    ⟨["EX", "Extend"], .either (.category ["Mc"]) (.either .graphemeExtend .joiner)⟩,
    ⟨["FO", "Format"], .except .plainFormat (.either .graphemeExtend (.listed ["70F 200D"]))⟩,
    ⟨["SP", "Sp"], .except .white (.listed ["A D 85 2028-2029"])⟩, ⟨["LO", "Lower"], .lowerLetter⟩,
    ⟨["UP", "Upper"], .upperLetter⟩,
    ⟨["LE", "OLetter"],
      .except (.either .alphabetic (.listed ["5F3 70F"]))
        (.either (.either .lowerLetter .upperLetter) (.either (.category ["Mc"]) .graphemeExtend))⟩,
    ⟨["NU", "Numeric"], .either .numeric (.listed ["66C"])⟩, ⟨["AT", "ATerm"], .fullStop⟩,
    ⟨["ST", "STerm"], .except .sentenceEnd .fullStop⟩,
    ⟨["SC", "SContinue"],
      .listed
        ["2C-2D 3A-3B 37E 55D 60C-60D 7F8 1802 1808 2013-2014 3001 FE10-FE11 FE13-FE14 FE31-FE32",
          "FE50-FE51 FE54-FE55 FE58 FE63 FF0C-FF0D FF1A-FF1B FF64"]⟩,
    ⟨["CL", "Close"],
      .except
        (.either (.category ["Ps", "Pe", "Pi", "Pf"])
          (.listed ["22 27 275B-2760 2E00-2E01 2E06-2E08 2E0B 1F676-1F678"]))
        (.either .fullStop .sentenceEnd)⟩]

end TaggedYaml.Unicode
