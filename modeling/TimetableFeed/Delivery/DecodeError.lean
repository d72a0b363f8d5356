import TimetableFeed.Delivery.Draft
import TimetableFeed.Json.SyntaxError
import TimetableFeed.Text.Quoted

/-!
# Errors in documents

Why a document is not a delivery, and which node is to blame. A node is named by its path inside the
journey that it belongs to, or inside the document if it belongs to none.

Main definitions: `DecodeError.blame`, `DecodeError.message`, `Blame.describe`.
-/

namespace TimetableFeed

/-- The kinds of errors, as consumers tell them apart. -/
inductive ErrorKind where
  | malformedEnvelope
  | missingMandatoryField
  | invalidTimestamp
  deriving DecidableEq, Repr

def ErrorKind.name : ErrorKind → String
  | .malformedEnvelope => "malformed_envelope"
  | .missingMandatoryField => "missing_mandatory_field"
  | .invalidTimestamp => "invalid_timestamp"

def ErrorKind.ofName? (name : String) : Option ErrorKind :=
  [malformedEnvelope, missingMandatoryField, invalidTimestamp].find? fun kind => kind.name = name

/-- What is to blame for an error: a field of the document, of a journey or of a call. -/
structure Blame where
  kind : ErrorKind
  field? : Option String
  journey? : Option Int
  call? : Option Int
  deriving DecidableEq, Repr

/-- The blame in one line. An empty name of a field is left out. -/
def Blame.describe (b : Blame) : String :=
  let field := (b.field?.filter (· ≠ "")).map ("field=" ++ ·)
  let journey := b.journey?.map fun i => "journey=" ++ integerText i
  let call := b.call?.map fun i => "call=" ++ integerText i
  " ".intercalate (b.kind.name :: [field, journey, call].filterMap id)

inductive Place where
  | delivery
  | journey (index : Nat)
  | call (journey index : Nat)
  deriving DecidableEq, Repr

def Place.journey? : Place → Option Nat
  | .delivery => none
  | .journey i => some i
  | .call i _ => some i

def Place.call? : Place → Option Nat
  | .call _ j => some j
  | _ => none

/-- A field, or the value inside a reference. -/
inductive Node where
  | field (f : Field)
  | valueOf (f : Field)
  deriving DecidableEq, Repr

def Node.name : Node → String
  | .field f => f.camel
  | .valueOf f => f.camel ++ "." ++ Field.value.camel

/-- Why a document is not a delivery. -/
inductive DecodeError where
  | notJson (cause : Json.SyntaxCause) (line column : Nat)
  | wrongType (mismatch : Mismatch)
  | noRoot
  | noServiceDelivery
  | missing (node : Node) (place : Place)
  | invalidTimestamp (text : String) (field : Field) (place : Place)
  deriving DecidableEq, Repr

/-! ## Paths -/

namespace Path

def writeStep (written : String) : PathStep → String
  | .index i => written ++ "[" ++ integerText i ++ "]"
  | .key name => if written = "" then name else written ++ "." ++ name

/-- The written form of a path: names with points between them, indices in brackets. -/
def write (path : Path) : String := path.foldl writeStep ""

/-- The part of a path that names a node inside its journey, and the indices of journey and call. -/
structure Location where
  journey? : Option Nat
  call? : Option Nat
  inner : Path
  deriving DecidableEq, Repr

/-- Looks for the indices of journey and call along a path; `found` is what has been found before.
An index is one of a journey or call by the name, in camel case, of the array that it stands in. -/
def locateFrom (found : Location) : Path → Location
  | .key name :: .index i :: rest =>
    if name = Field.estimatedTimetableDelivery.camel then
      locateFrom ⟨some i, found.call?, rest⟩ rest
    else if name = Field.estimatedCall.camel then
      locateFrom { found with call? := some i } rest
    else locateFrom found rest
  | _ :: rest => locateFrom found rest
  | [] => found

/-- The journey and call that a path leads into, and the part of the path inside the journey. -/
def locate (path : Path) : Location := locateFrom ⟨none, none, path⟩ path

end Path

/-! ## Blame and text -/

/-- The place in words. A call counts only inside a journey. -/
def placeText (journey? call? : Option Int) : String :=
  match journey?, call? with
  | none, _ => "service delivery"
  | some i, none => s!"journey {integerText i}"
  | some i, some j => s!"journey {integerText i}, call {integerText j}"

def Place.blame (place : Place) (kind : ErrorKind) (name : String) : Blame :=
  ⟨kind, some name, place.journey?.map Int.ofNat, place.call?.map Int.ofNat⟩

def NodeType.message : NodeType → String
  | .object => "Input should be an object"
  | .array => "Input should be a valid array"
  | .text => "Input should be a valid string"

namespace DecodeError

def blame : DecodeError → Blame
  | .notJson _ _ _ => ⟨.malformedEnvelope, none, none, none⟩
  | .wrongType mismatch =>
    let location := Path.locate mismatch.path
    let name := Path.write location.inner
    ⟨.malformedEnvelope, if name = "" then none else some name,
      location.journey?.map Int.ofNat, location.call?.map Int.ofNat⟩
  | .noRoot => ⟨.malformedEnvelope, some Field.siri.camel, none, none⟩
  | .noServiceDelivery =>
    ⟨.malformedEnvelope, some (Field.siri.camel ++ "." ++ Field.serviceDelivery.camel), none, none⟩
  | .missing node place => place.blame .missingMandatoryField node.name
  | .invalidTimestamp _ field place => place.blame .invalidTimestamp field.camel

def message (e : DecodeError) : String :=
  let place := placeText e.blame.journey? e.blame.call?
  match e with
  | .notJson cause line column =>
    s!"Payload is not valid JSON: Invalid JSON: {cause.message} at line {line} column {column}"
  | .wrongType mismatch =>
    let name := e.blame.field?.getD "<root>"
    s!"Malformed node {name} in {place}: {mismatch.expected.message}"
  | .noRoot => "Missing Siri root node"
  | .noServiceDelivery => "Missing Siri.serviceDelivery node"
  | .missing node _ => s!"Missing mandatory field {node.name} in {place}"
  | .invalidTimestamp text field _ =>
    s!"Invalid timestamp {Text.quoted text} for {field.camel} in {place}"

end DecodeError

end TimetableFeed
