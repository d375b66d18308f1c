import ByteSearch.Text.CaseFolding
import ByteSearch.Text.Script.Table

/-!
# Properties by name

`byName?` is the set of code points that a name alone stands for: a general category, a script, or
one of a few properties with the values yes and no. `byValue?` is the set for the name of a property
and the name of its value; it knows the general category and the script.

Other properties are unknown here, although there are libraries that know them: the sets of code
points `Hex_Digit`, `Emoji`, `Math` and others, the age, the script extensions, and the rules for
breaks. An expression that names one is refused like one with a name that does not exist.

Names are compared loosely: case, blanks, hyphens, low lines and a leading `is` do not count.
-/

namespace ByteSearch.Text.PropertyName

/-- A name in the form in which names are compared. -/
def loose (name : String) : String :=
  let keep := fun (s : List Char) =>
    (s.filter fun c => c.toNat < 0x80 && c != ' ' && c != '_' && c != '-').map Char.toLower
  match name.toList with
  | a :: b :: rest =>
    if a.toLower == 'i' && b.toLower == 's' then
      if keep rest == ['c'] then "isc" else String.ofList (keep rest)
    else String.ofList (keep (a :: b :: rest))
  | s => String.ofList (keep s)

/-- The general categories and their groups, with all their names in loose form. -/
def categories : List (List String × List Category) := [
  (["lu", "uppercaseletter"], [.lu]),
  (["ll", "lowercaseletter"], [.ll]),
  (["lt", "titlecaseletter"], [.lt]),
  (["lm", "modifierletter"], [.lm]),
  (["lo", "otherletter"], [.lo]),
  (["mn", "nonspacingmark"], [.mn]),
  (["mc", "spacingmark"], [.mc]),
  (["me", "enclosingmark"], [.me]),
  (["nd", "decimalnumber", "digit"], [.nd]),
  (["nl", "letternumber"], [.nl]),
  (["no", "othernumber"], [.no]),
  (["pc", "connectorpunctuation"], [.pc]),
  (["pd", "dashpunctuation"], [.pd]),
  (["ps", "openpunctuation"], [.ps]),
  (["pe", "closepunctuation"], [.pe]),
  (["pi", "initialpunctuation"], [.pi]),
  (["pf", "finalpunctuation"], [.pf]),
  (["po", "otherpunctuation"], [.po]),
  (["sm", "mathsymbol"], [.sm]),
  (["sc", "currencysymbol"], [.sc]),
  (["sk", "modifiersymbol"], [.sk]),
  (["so", "othersymbol"], [.so]),
  (["zs", "spaceseparator"], [.zs]),
  (["zl", "lineseparator"], [.zl]),
  (["zp", "paragraphseparator"], [.zp]),
  (["cc", "control", "cntrl"], [.cc]),
  (["cf", "format"], [.cf]),
  (["cs", "surrogate"], [.cs]),
  (["co", "privateuse"], [.co]),
  (["cn", "unassigned"], [.cn]),
  (["l", "letter"], [.lu, .ll, .lt, .lm, .lo]),
  (["lc", "casedletter"], [.lu, .ll, .lt]),
  (["m", "mark", "combiningmark"], [.mn, .mc, .me]),
  (["n", "number"], [.nd, .nl, .no]),
  (["p", "punctuation", "punct"], [.pc, .pd, .ps, .pe, .pi, .pf, .po]),
  (["s", "symbol"], [.sm, .sc, .sk, .so]),
  (["z", "separator"], [.zs, .zl, .zp]),
  (["c", "other"], [.cc, .cf, .cs, .co, .cn])]

/-- The code points of a general category by its loose name. -/
def category? (name : String) : Option Ranges :=
  if name == "any" then some [⟨0, 0x10FFFF⟩]
  else if name == "assigned" then
    some (Ranges.complement 0x10FFFF (Category.ranges [.cn]))
  else if name == "ascii" then some [⟨0, 0x7F⟩]
  else (categories.find? fun (names, _) => names.contains name).map fun (_, cs) =>
    Category.ranges cs

/-- The code points of a script by its loose name. -/
def script? (name : String) : Option Ranges :=
  (Script.rows.find? fun (names, _) => names.contains name).map fun (_, rows) =>
    Property.readRows rows

/-- The code points of a property with the values yes and no, by its loose name. -/
def binary? (name : String) : Option Ranges :=
  if name == "alphabetic" || name == "alpha" then
    some (Ranges.union (Category.ranges [.lu, .ll, .lt, .lm, .lo, .nl])
      Property.otherAlphabeticRanges)
  else if name == "lowercase" || name == "lower" then
    some (Ranges.union (Category.ranges [.ll]) (Property.readRows Property.otherLowercase))
  else if name == "uppercase" || name == "upper" then
    some (Ranges.union (Category.ranges [.lu]) (Property.readRows Property.otherUppercase))
  else if name == "whitespace" || name == "wspace" || name == "space" then some Property.space
  else if name == "graphemeextend" || name == "grext" then
    some (Ranges.union (Category.ranges [.mn, .me]) Property.otherGraphemeExtendRanges)
  else if name == "joincontrol" || name == "joinc" then some [⟨0x200C, 0x200D⟩]
  else none

/-- The code points that a name alone stands for. -/
def byName? (name : String) : Option Ranges :=
  let name := loose name
  binary? name <|> category? name <|> script? name

/-- The code points with a value of a property. -/
def byValue? (name value : String) : Option Ranges :=
  let name := loose name
  if name == "generalcategory" || name == "gc" then category? (loose value)
  else if name == "script" || name == "sc" then script? (loose value)
  else none

end ByteSearch.Text.PropertyName
