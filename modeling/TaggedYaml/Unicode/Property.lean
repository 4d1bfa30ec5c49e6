import TaggedYaml.Unicode.Listed

/-!
# Property — what a code point is or is not

Properties with their names.  Some are lists, and the others follow from these and from the general
categories.
-/

namespace TaggedYaml.Unicode

namespace Rule

/-- Letters, and what counts as letters. -/
def alphabetic : Rule := .either (.category ["L", "Nl"]) otherAlphabetic

def lowercase : Rule := .either (.category ["Ll"]) otherLowercase

def uppercase : Rule := .either (.category ["Lu"]) otherUppercase

/-- Letters of upper, lower or title case. -/
def cased : Rule := .either (.either lowercase uppercase) (.category ["Lt"])

/-- Characters that casing passes. -/
def caseIgnorable : Rule :=
  .either (.category ["Mn", "Me", "Cf", "Lm", "Sk"])
    (.listed ["27 2E 3A B7 387 55F 5F4 2018-2019 2024 2027 FE13 FE52 FE55 FF07 FF0E FF1A"])

/-- Characters with a lower case form. -/
def lowered : Rule := .except (.either uppercase (.category ["Lt"])) fixedUpper

/-- Characters with an upper case form. -/
def raised : Rule := .except (.either lowercase (.category ["Lt"])) fixedLower

/-- Characters with a title case form. -/
def titled : Rule := .except (.either raised titleOnly) upperOnly

/-- Characters that folding changes. -/
def folded : Rule := .except (.either lowered foldedOnly) unfolded

/-- Characters with another form in some case. -/
def recased : Rule := .either (.either lowered raised) titled

/-- Characters that leave no trace where they are not known. -/
def ignorable : Rule :=
  .either
    (.except (.either (.category ["Cf"]) variationSelector)
      (.either (.either white prepended) (.listed ["FFF9-FFFB 13430-1343F"])))
    otherIgnorable

/-- Characters that belong to the one before them. -/
def graphemeExtend : Rule := .either (.category ["Mn", "Me"]) otherExtend

/-- Characters with a form, on which others may stand. -/
def graphemeBase : Rule :=
  .except (.listed ["0-10FFFF"])
    (.either (.category ["Cc", "Cf", "Cs", "Co", "Cn", "Zl", "Zp"]) graphemeExtend)

/-- Signs of patterns, and the white space between them. -/
def patternSign : Rule := .either patternSyntax patternWhite

/-- Characters that begin identifiers. -/
def identifierStart : Rule :=
  .except (.either (.category ["L", "Nl"]) otherIdentifierStart) patternSign

/-- Characters that continue identifiers. -/
def identifierPart : Rule :=
  .except
    (.either (.either (.category ["L", "Nl", "Mn", "Mc", "Nd", "Pc"]) otherIdentifierStart)
      otherIdentifierPart)
    patternSign

/-- Mathematical symbols, and other characters of formulas. -/
def math : Rule := .either (.category ["Sm"]) otherMath

end Rule

/-- A property with its names. -/
structure Property where
  names : List String
  rule : Rule

/-- All properties. -/
def properties : List Property :=
  [⟨["AHex", "ASCII_Hex_Digit"], .asciiHexDigit⟩, ⟨["Alpha", "Alphabetic"], .alphabetic⟩,
    ⟨["Bidi_C", "Bidi_Control"], .bidiControl⟩, ⟨["CI", "Case_Ignorable"], .caseIgnorable⟩,
    ⟨["Cased"], .cased⟩, ⟨["CWCF", "Changes_When_Casefolded"], .folded⟩,
    ⟨["CWCM", "Changes_When_Casemapped"], .recased⟩,
    ⟨["CWL", "Changes_When_Lowercased"], .lowered⟩,
    ⟨["CWT", "Changes_When_Titlecased"], .titled⟩,
    ⟨["CWU", "Changes_When_Uppercased"], .raised⟩, ⟨["Dash"], .dashes⟩,
    ⟨["DI", "Default_Ignorable_Code_Point"], .ignorable⟩, ⟨["Dep", "Deprecated"], .deprecated⟩,
    ⟨["Dia", "Diacritic"], .diacritic⟩, ⟨["Emoji"], .emoji⟩,
    ⟨["EComp", "Emoji_Component"], .emojiComponent⟩,
    ⟨["EMod", "Emoji_Modifier"], .emojiModifier⟩,
    ⟨["EBase", "Emoji_Modifier_Base"], .emojiModifierBase⟩,
    ⟨["EPres", "Emoji_Presentation"], .emojiPresentation⟩,
    ⟨["ExtPict", "Extended_Pictographic"], .pictographic⟩, ⟨["Ext", "Extender"], .extender⟩,
    ⟨["Gr_Base", "Grapheme_Base"], .graphemeBase⟩,
    ⟨["Gr_Ext", "Grapheme_Extend"], .graphemeExtend⟩,
    ⟨["Gr_Link", "Grapheme_Link"], .graphemeLink⟩, ⟨["Hex", "Hex_Digit"], .hexDigit⟩,
    ⟨["Hyphen"], .hyphen⟩, ⟨["IDSB", "IDS_Binary_Operator"], .binaryOperator⟩,
    ⟨["IDST", "IDS_Trinary_Operator"], .ternaryOperator⟩,
    ⟨["IDSU", "IDS_Unary_Operator"], .unaryOperator⟩,
    ⟨["ID_Compat_Math_Start"], .mathStart⟩,
    ⟨["ID_Compat_Math_Continue"], .either .mathStart .mathPart⟩,
    ⟨["IDC", "ID_Continue"], .identifierPart⟩, ⟨["IDS", "ID_Start"], .identifierStart⟩,
    ⟨["Ideo", "Ideographic"], .ideographic⟩, ⟨["Join_C", "Join_Control"], .joinControl⟩,
    ⟨["LOE", "Logical_Order_Exception"], .logicalOrderException⟩,
    ⟨["Lower", "Lowercase"], .lowercase⟩, ⟨["Math"], .math⟩,
    ⟨["MCM", "Modifier_Combining_Mark"], .modifierMark⟩,
    ⟨["NChar", "Noncharacter_Code_Point"], .noncharacter⟩,
    ⟨["OAlpha", "Other_Alphabetic"], .otherAlphabetic⟩,
    ⟨["ODI", "Other_Default_Ignorable_Code_Point"], .otherIgnorable⟩,
    ⟨["OGr_Ext", "Other_Grapheme_Extend"], .otherExtend⟩,
    ⟨["OIDC", "Other_ID_Continue"], .otherIdentifierPart⟩,
    ⟨["OIDS", "Other_ID_Start"], .otherIdentifierStart⟩,
    ⟨["OLower", "Other_Lowercase"], .otherLowercase⟩, ⟨["OMath", "Other_Math"], .otherMath⟩,
    ⟨["OUpper", "Other_Uppercase"], .otherUppercase⟩,
    ⟨["Pat_Syn", "Pattern_Syntax"], .patternSyntax⟩,
    ⟨["Pat_WS", "Pattern_White_Space"], .patternWhite⟩,
    ⟨["PCM", "Prepended_Concatenation_Mark"], .prepended⟩,
    ⟨["QMark", "Quotation_Mark"], .quotationMark⟩, ⟨["Radical"], .radical⟩,
    ⟨["RI", "Regional_Indicator"], .regionalIndicator⟩,
    ⟨["STerm", "Sentence_Terminal"], .sentenceEnd⟩, ⟨["SD", "Soft_Dotted"], .softDotted⟩,
    ⟨["Term", "Terminal_Punctuation"], .terminal⟩,
    ⟨["UIdeo", "Unified_Ideograph"], .unifiedIdeograph⟩,
    ⟨["Upper", "Uppercase"], .uppercase⟩, ⟨["VS", "Variation_Selector"], .variationSelector⟩,
    ⟨["WSpace", "White_Space", "space"], .white⟩,
    ⟨["XIDC", "XID_Continue"], .except .identifierPart .notPart⟩,
    ⟨["XIDS", "XID_Start"], .except .identifierStart .notStart⟩]

end TaggedYaml.Unicode
