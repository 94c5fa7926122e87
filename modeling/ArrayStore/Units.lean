import ArrayStore.ListLiteral.Parser

/-!
# The units attribute

No units are stored as the empty text, one unit as itself, several as a list literal. A single
unit that starts with a bracket is stored as a literal of one entry, so that it reads back.

* `Units.toAttribute` : the stored text of a unit list;
* `Units.ofAttribute` : the unit list of a stored text.
-/

namespace ArrayStore.Units
open Text ListLiteral

/-- The text starts with an opening bracket, leading blanks apart. -/
def opensBracket (text : String) : Bool := (trimLeft text.toList).head? == some '['

def toAttribute : Option (List String) → String
  | none => ""
  | some [unit] => if opensBracket unit then render [unit] else unit
  | some units => render units

def quotedText? : Entry → Option String
  | .quoted text => some (String.ofList text)
  | .bare _ => none

/-- The unit list of a stored text. Only a list of quoted entries is a list: `[a.u.]` is a unit. -/
def ofAttribute (text : String) : Option (List String) :=
  if (trim text.toList).isEmpty then none
  else
    match (entries? text).bind fun entries => entries.mapM quotedText? with
    | some units => if units.all String.isEmpty then none else some units
    | none => some [text]

end ArrayStore.Units
