/-
Looking up a set of characters by the name of a property. Names are compared in loose form: case,
blanks, hyphens, underscores and a leading `is` do not count.
-/
import Codemod.Unicode.Age
import Codemod.Unicode.Boundary
import Codemod.Unicode.Script

namespace Codemod.Unicode

def looseName (name : String) : String :=
  let cs := name.toList
  let isPrefixed := match cs with
    | a :: b :: _ => (a == 'i' || a == 'I') && (b == 's' || b == 'S')
    | _ => false
  let kept := ((if isPrefixed then cs.drop 2 else cs).filter fun c =>
    c != ' ' && c != '_' && c != '-' && c.toNat ≤ 0x7F).map Char.toLower
  -- With a leading "is" gone, "isc" would read as the class "c", which it does not name.
  if isPrefixed && kept == ['c'] then "isc" else String.ofList kept

/-- The set named on its own: a property, a general category or a script, looked up in this order.
Three short names belong to categories although properties have them too. -/
def setNamed? (name : String) : Option CharSet :=
  let name := looseName name
  let viaProperty := if ["cf", "sc", "lc"].contains name then none else property? name
  match viaProperty with
  | some s => some s
  | none => match category? name with
    | some s => some s
    | none => script? name

/-- The set of characters for which the property has the value. -/
def setOf? (property value : String) : Option CharSet :=
  let property := looseName property
  let value := looseName value
  if ["gc", "generalcategory"].contains property then category? value
  else if ["sc", "script"].contains property then script? value
  else if ["scx", "scriptextensions"].contains property then scriptExtension? value
  else if property == "age" then knownIn? value
  else if ["gcb", "graphemeclusterbreak"].contains property then graphemeBreak? value
  else if ["wb", "wordbreak"].contains property then wordBreak? value
  else if ["sb", "sentencebreak"].contains property then sentenceBreak? value
  else none

end Codemod.Unicode
