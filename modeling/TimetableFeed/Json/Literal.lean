import TimetableFeed.Json.Value
import TimetableFeed.Number.Layout
import TimetableFeed.Text.Quoted

/-!
# Values as program text

The text of a JSON value as messages show it: the constants with capitals, texts quoted, and of the
members with one key only the last value, in the place of the first. A text on its own is not
quoted.
-/

namespace TimetableFeed.Json

/-- Puts a member in front of others: if one of them has its key, that one's value counts. -/
def addMember (key : String) (value : String) (others : List (String × String)) :
    List (String × String) :=
  match others.find? (·.1 == key) with
  | some found => found :: others.filter (·.1 != key)
  | none => (key, value) :: others

mutual

/-- The value as program text. -/
def literal : Json → String
  | .null => "None"
  | .boolean true => "True"
  | .boolean false => "False"
  | .integer i => integerText i
  | .real x => x.write .literal
  | .text s => Text.quoted s
  | .array items => "[" ++ ", ".intercalate (itemLiterals items) ++ "]"
  | .object members =>
    "\x7b" ++
      ", ".intercalate ((memberLiterals members).map fun m => Text.quoted m.1 ++ ": " ++ m.2) ++
      "\x7d"

def itemLiterals : List Json → List String
  | [] => []
  | item :: rest => item.literal :: itemLiterals rest

/-- The keys of the members, each once, and their values as program text. -/
def memberLiterals : List (String × Json) → List (String × String)
  | [] => []
  | (key, value) :: rest => addMember key value.literal (memberLiterals rest)

end

/-- The value as text; a text is itself. -/
def plainText : Json → String
  | .text s => s
  | json => json.literal

end TimetableFeed.Json
