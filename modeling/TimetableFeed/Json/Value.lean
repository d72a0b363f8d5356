import TimetableFeed.Json.Members
import TimetableFeed.Number.Binary64

/-!
# JSON values

A document is a tree. Whole numbers are kept apart from the others, and the members of an object in
their order.
-/

namespace TimetableFeed

inductive Json where
  | null
  | boolean (value : Bool)
  | integer (value : Int)
  | real (value : Binary64)
  | text (value : String)
  | array (items : List Json)
  | object (members : List (String × Json))

namespace Json

instance : Inhabited Json := ⟨.null⟩

/-- The value of a member of an object; other values have no members. -/
def get? (json : Json) (key : String) : Option Json :=
  match json with
  | .object members => Members.lookup key members
  | _ => none

end Json

end TimetableFeed
