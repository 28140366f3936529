/-
# The text of JSON values

Two layouts: everything on one line without blanks, or one item a line, indented by two blanks.
Empty arrays and objects stay on one line in both.
-/
import RowExpr.Json
import RowExpr.Number.Format
import RowExpr.Text.Quoted

namespace RowExpr.Json

/-- The text of a number: a whole number below `2 ^ 53` has no fraction. -/
def numberText (x : Float) : String :=
  match Number.wholeOf? x with
  | some n => if n.natAbs < 0x20000000000000 then toString n else Number.jsonLayout.text x
  | none => Number.jsonLayout.text x

/-- The text of a string, quotes included. -/
def stringText (s : String) : String := String.ofList (Text.jsonQuote s.toList)

/-! ## On one line -/

mutual

/-- The text of a value on one line. -/
def text : Json → String
  | null => "null"
  | boolean b => toString b
  | number x => numberText x
  | string s => stringText s
  | array items => "[" ++ textOfItems items ++ "]"
  | object members => "\x7b" ++ textOfMembers members ++ "\x7d"

/-- The text of items, separated by commas. -/
def textOfItems : List Json → String
  | [] => ""
  | [item] => text item
  | item :: rest => text item ++ "," ++ textOfItems rest

/-- The text of members, separated by commas. -/
def textOfMembers : List (String × Json) → String
  | [] => ""
  | [(name, value)] => stringText name ++ ":" ++ text value
  | (name, value) :: rest => stringText name ++ ":" ++ text value ++ "," ++ textOfMembers rest

end

/-! ## One item a line -/

/-- The start of a line inside `depth` arrays and objects. -/
def indent (depth : Nat) : String := String.ofList (List.replicate (2 * depth) ' ')

mutual

/-- The text of a value inside `depth` arrays and objects, one item a line. -/
def prettyText (depth : Nat) : Json → String
  | null => "null"
  | boolean b => toString b
  | number x => numberText x
  | string s => stringText s
  | array [] => "[]"
  | array items => "[\n" ++ prettyItems (depth + 1) items ++ "\n" ++ indent depth ++ "]"
  | object [] => "\x7b\x7d"
  | object members =>
    "\x7b\n" ++ prettyMembers (depth + 1) members ++ "\n" ++ indent depth ++ "\x7d"

/-- The lines of items. -/
def prettyItems (depth : Nat) : List Json → String
  | [] => ""
  | [item] => indent depth ++ prettyText depth item
  | item :: rest => indent depth ++ prettyText depth item ++ ",\n" ++ prettyItems depth rest

/-- The lines of members. -/
def prettyMembers (depth : Nat) : List (String × Json) → String
  | [] => ""
  | [(name, value)] => indent depth ++ stringText name ++ ": " ++ prettyText depth value
  | (name, value) :: rest =>
    indent depth ++ stringText name ++ ": " ++ prettyText depth value ++ ",\n"
      ++ prettyMembers depth rest

end

/-- The text of a value, one item a line. -/
def pretty (j : Json) : String := prettyText 0 j

end RowExpr.Json
