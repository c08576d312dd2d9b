import LatencyHiding.Text.CategoryTable
import LatencyHiding.Text.Ranges
import LatencyHiding.Text.ScriptTable
import LatencyHiding.Text.TraitTable

set_option autoImplicit false

namespace LatencyHiding.Text

def isNamePadding (c : Char) : Bool := c == ' ' || c == '_' || c == '-'

/-- A name in the form in which names are compared. One case apart, `isc` would lose its sense
without its front. -/
def plainName (name : String) : String :=
  let (front, rest) := match name.toList with
    | a :: b :: rest => if a.toLower == 'i' && b.toLower == 's' then (true, rest) else (false, a :: b :: rest)
    | cs => (false, cs)
  let plain := (rest.filter fun c => c.toNat < 128 && !isNamePadding c).map Char.toLower
  String.ofList (if front && plain == ['c'] then ['i', 's', 'c'] else plain)

def isNamed (names : List String) (plain : String) : Bool := names.any (plainName · == plain)

namespace CharRanges

def ofCategories (shorts : List String) : CharRanges :=
  ofLines (shorts.flatMap fun short => (categoryTable.lookup short).getD [])

def surrogates : CharRanges := ⟨[(0xD800, 0xDFFF)]⟩

def unassigned : CharRanges :=
  ((ofCategories (categoryTable.map (·.1))).union surrogates).complement

def categoryNames : List (List String × List String) := [
  (["L", "Letter"], ["Lu", "Ll", "Lt", "Lm", "Lo"]),
  (["LC", "Cased_Letter"], ["Lu", "Ll", "Lt"]),
  (["Lu", "Uppercase_Letter"], ["Lu"]), (["Ll", "Lowercase_Letter"], ["Ll"]),
  (["Lt", "Titlecase_Letter"], ["Lt"]), (["Lm", "Modifier_Letter"], ["Lm"]),
  (["Lo", "Other_Letter"], ["Lo"]),
  (["M", "Mark", "Combining_Mark"], ["Mn", "Mc", "Me"]),
  (["Mn", "Nonspacing_Mark"], ["Mn"]), (["Mc", "Spacing_Mark"], ["Mc"]),
  (["Me", "Enclosing_Mark"], ["Me"]),
  (["N", "Number"], ["Nd", "Nl", "No"]),
  (["Nd", "Decimal_Number", "digit"], ["Nd"]), (["Nl", "Letter_Number"], ["Nl"]),
  (["No", "Other_Number"], ["No"]),
  (["P", "Punctuation", "punct"], ["Pc", "Pd", "Ps", "Pe", "Pi", "Pf", "Po"]),
  (["Pc", "Connector_Punctuation"], ["Pc"]), (["Pd", "Dash_Punctuation"], ["Pd"]),
  (["Ps", "Open_Punctuation"], ["Ps"]), (["Pe", "Close_Punctuation"], ["Pe"]),
  (["Pi", "Initial_Punctuation"], ["Pi"]), (["Pf", "Final_Punctuation"], ["Pf"]),
  (["Po", "Other_Punctuation"], ["Po"]),
  (["S", "Symbol"], ["Sm", "Sc", "Sk", "So"]),
  (["Sm", "Math_Symbol"], ["Sm"]), (["Sc", "Currency_Symbol"], ["Sc"]),
  (["Sk", "Modifier_Symbol"], ["Sk"]), (["So", "Other_Symbol"], ["So"]),
  (["Z", "Separator"], ["Zs", "Zl", "Zp"]),
  (["Zs", "Space_Separator"], ["Zs"]), (["Zl", "Line_Separator"], ["Zl"]),
  (["Zp", "Paragraph_Separator"], ["Zp"]),
  (["Cc", "Control", "cntrl"], ["Cc"]), (["Cf", "Format"], ["Cf"]),
  (["Co", "Private_Use"], ["Co"])]

def ofCategory? (plain : String) : Option CharRanges :=
  if plain = "any" then some all
  else if plain = "ascii" then some ⟨[(0, 0x7F)]⟩
  else if plain = "assigned" then some unassigned.complement
  else if isNamed ["Cn", "Unassigned"] plain then some unassigned
  else if isNamed ["C", "Other"] plain then
    some ((ofCategories ["Cc", "Cf", "Co"]).union unassigned)
  else
    (categoryNames.find? fun entry => isNamed entry.1 plain).map fun entry => ofCategories entry.2

def ofScript? (plain : String) : Option CharRanges :=
  (scriptTable.find? (isNamed ·.names plain)).map fun script => ofLines script.own

def usedInScript? (plain : String) : Option CharRanges :=
  (scriptTable.find? (isNamed ·.names plain)).map fun script =>
    ((ofLines script.own).diff (ofLines script.ceded)).union (ofLines script.shared)

def ofTrait (trait : Trait) : CharRanges :=
  ((ofCategories trait.categories).diff (ofLines trait.missing)).union (ofLines trait.others)

def ofTrait? (plain : String) : Option CharRanges :=
  (traitTable.find? (isNamed ·.names plain)).map ofTrait

/-- The characters with the property of a name: a trait, a category or a script. Three short names
mean a category and nothing else. -/
def ofProperty? (name : String) : Option CharRanges :=
  let plain := plainName name
  let trait := if ["cf", "sc", "lc"].contains plain then none else ofTrait? plain
  trait.or ((ofCategory? plain).or (ofScript? plain))

def ofPropertyValue? (property value : String) : Option CharRanges :=
  let property := plainName property
  let value := plainName value
  if isNamed ["General_Category", "gc"] property then ofCategory? value
  else if isNamed ["Script", "sc"] property then ofScript? value
  else if isNamed ["Script_Extensions", "scx"] property then usedInScript? value
  else none

def digits : CharRanges := ofCategories ["Nd"]

def blanks : CharRanges := (ofTrait? "whitespace").getD empty

def letters : CharRanges := (ofTrait? "alphabetic").getD empty

def numbers : CharRanges := ofCategories ["Nd", "Nl", "No"]

def wordChars : CharRanges :=
  unions [letters, ofCategories ["Mn", "Mc", "Me", "Nd", "Pc"], (ofTrait? "joincontrol").getD empty]

end CharRanges

end LatencyHiding.Text
