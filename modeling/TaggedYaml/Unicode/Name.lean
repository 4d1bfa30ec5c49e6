import TaggedYaml.Unicode.AgeTable
import TaggedYaml.Unicode.Break

/-!
# Names of sets of code points

Properties, general categories and scripts have names, and so have the values of a few kinds of
property.  Names are compared without regard to case, blanks, `-` and `_`.
-/

namespace TaggedYaml.Unicode

/-- A name as names are compared: without case, blanks, `-`, `_` and a leading `is`. -/
def normalizeName (name : List Char) : List Char :=
  let plain := fun s : List Char =>
    (s.filter fun c => c.toNat < 0x80 && c != ' ' && c != '_' && c != '-').map Char.toLower
  match name with
  | a :: b :: rest =>
    if a.toLower == 'i' && b.toLower == 's' then
      if plain rest == ['c'] then ['i', 's', 'c'] else plain rest
    else plain name
  | _ => plain name

/-- The name, which is normal, is that of something. -/
def isNameOf (name : List Char) (written : String) : Bool := normalizeName written.toList == name

/-- The set of the property with a name. -/
def propertyIn? (properties : List Property) (name : List Char) : Option CodeSet :=
  (properties.find? fun p => p.names.any (isNameOf name)).map (·.rule.codes)

/-- The general categories with their names. -/
def categoryNames : List (List String × Rule) :=
  [(["Any"], .listed ["0-10FFFF"]), (["ASCII"], .listed ["0-7F"]),
    (["Assigned"], .except (.listed ["0-10FFFF"]) (.category ["Cn"])),
    (["L", "Letter"], .category ["L"]), (["LC", "Cased_Letter"], .category ["Lu", "Ll", "Lt"]),
    (["Lu", "Uppercase_Letter"], .category ["Lu"]),
    (["Ll", "Lowercase_Letter"], .category ["Ll"]),
    (["Lt", "Titlecase_Letter"], .category ["Lt"]),
    (["Lm", "Modifier_Letter"], .category ["Lm"]), (["Lo", "Other_Letter"], .category ["Lo"]),
    (["M", "Mark", "Combining_Mark"], .category ["M"]),
    (["Mn", "Nonspacing_Mark"], .category ["Mn"]), (["Mc", "Spacing_Mark"], .category ["Mc"]),
    (["Me", "Enclosing_Mark"], .category ["Me"]), (["N", "Number"], .category ["N"]),
    (["Nd", "Decimal_Number", "digit"], .category ["Nd"]),
    (["Nl", "Letter_Number"], .category ["Nl"]), (["No", "Other_Number"], .category ["No"]),
    (["P", "Punctuation", "punct"], .category ["P"]),
    (["Pc", "Connector_Punctuation"], .category ["Pc"]),
    (["Pd", "Dash_Punctuation"], .category ["Pd"]),
    (["Ps", "Open_Punctuation"], .category ["Ps"]),
    (["Pe", "Close_Punctuation"], .category ["Pe"]),
    (["Pi", "Initial_Punctuation"], .category ["Pi"]),
    (["Pf", "Final_Punctuation"], .category ["Pf"]),
    (["Po", "Other_Punctuation"], .category ["Po"]), (["S", "Symbol"], .category ["S"]),
    (["Sm", "Math_Symbol"], .category ["Sm"]), (["Sc", "Currency_Symbol"], .category ["Sc"]),
    (["Sk", "Modifier_Symbol"], .category ["Sk"]), (["So", "Other_Symbol"], .category ["So"]),
    (["Z", "Separator"], .category ["Z"]), (["Zs", "Space_Separator"], .category ["Zs"]),
    (["Zl", "Line_Separator"], .category ["Zl"]),
    (["Zp", "Paragraph_Separator"], .category ["Zp"]), (["C", "Other"], .category ["C"]),
    (["Cc", "Control", "cntrl"], .category ["Cc"]), (["Cf", "Format"], .category ["Cf"]),
    (["Co", "Private_Use"], .category ["Co"]), (["Cn", "Unassigned"], .category ["Cn"])]

/-- The set of the general category with a name. -/
def categoryOf? (name : List Char) : Option CodeSet :=
  (categoryNames.find? fun c => c.1.any (isNameOf name)).map (·.2.codes)

/-- The code of the script with a name. -/
def scriptCode? (name : List Char) : Option String :=
  (scriptNames.find? fun s => isNameOf name s.1 || isNameOf name s.2).map (·.1)

/-- The set of the script with a name. -/
def scriptOf? (name : List Char) : Option CodeSet :=
  (scriptCode? name).map fun code => (Rule.script code).codes

/-- The set of the characters that a script is written with, whether it shares them or not. -/
def scriptExtensionOf? (name : List Char) : Option CodeSet :=
  (scriptCode? name).map fun code =>
    let sets := sharedLines.map fun s => (s.1, CodeSet.ofLines [s.2])
    let shared := CodeSet.ofIntervals (sets.flatMap fun s => s.2.intervals)
    let own := sets.filter fun s => s.1 == code
    ((Rule.script code).codes.diff shared).union
      (.ofIntervals (own.flatMap fun s => s.2.intervals))

/-- The versions in which characters were added, in order. -/
def versions : List String :=
  ["1.1", "2.0", "2.1", "3.0", "3.1", "3.2", "4.0", "4.1", "5.0", "5.1", "5.2", "6.0", "6.1",
    "6.2", "6.3", "7.0", "8.0", "9.0", "10.0", "11.0", "12.0", "12.1", "13.0", "14.0", "15.0",
    "15.1", "16.0"]

/-- A version has two names: with a point, or with a letter and without a point. -/
def isVersionName (name : List Char) (version : String) : Bool :=
  name == version.toList || name == 'v' :: version.toList.filter (· != '.')

/-- The set of what was there in a version. -/
def ageOf? (name : List Char) : Option CodeSet :=
  if versions.any (isVersionName name) then
    let later := (versions.dropWhile fun v => !isVersionName name v).tail
    some (Run.select ageRuns fun value =>
      value != "-" && !later.contains (String.ofList value.toList.tail))
  else none

/-- The set of a value of a kind of property. -/
def valueOf? (kind value : List Char) : Option CodeSet :=
  let value := normalizeName value
  match String.ofList (normalizeName kind) with
  | "gc" | "generalcategory" => categoryOf? value
  | "sc" | "script" => scriptOf? value
  | "scx" | "scriptextensions" => scriptExtensionOf? value
  | "age" => ageOf? value
  | "gcb" | "graphemeclusterbreak" => propertyIn? characterBreaks value
  | "wb" | "wordbreak" => propertyIn? wordBreaks value
  | "sb" | "sentencebreak" => propertyIn? sentenceBreaks value
  | _ => none

/-- The set with a name: of a property, of a general category or of a script. -/
def named? (name : List Char) : Option CodeSet :=
  let name := normalizeName name
  propertyIn? properties name <|> categoryOf? name <|> scriptOf? name

end TaggedYaml.Unicode
