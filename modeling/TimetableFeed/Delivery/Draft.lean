import TimetableFeed.Delivery.Field
import TimetableFeed.Json.Value
import TimetableFeed.Number.Layout

/-!
# Drafts of deliveries

A document as far as its shape tells: each recognised node has the type that belongs to it, but any
of them may be missing, and no text has been looked at. Feeds write references and names as objects
with a `value`, and nest neither timetables nor versions: the journeys stand right in the service
delivery. A null counts as missing, a number in the place of a text as its digits.

The nodes are read in the order of their declaration, each with all that lies inside it; the first
one with a wrong type is the error.
-/

namespace TimetableFeed

inductive PathStep where
  | key (name : String)
  | index (i : Nat)
  deriving DecidableEq, Repr

/-- The way from the root of a document to a node. -/
abbrev Path := List PathStep

inductive NodeType where
  | object
  | array
  | text
  deriving DecidableEq, Repr

structure Mismatch where
  path : Path
  expected : NodeType
  deriving DecidableEq, Repr

namespace Draft

/-- A reference or a name. -/
structure Ref where
  value : Option String
  deriving DecidableEq, Repr

structure Call where
  stopPointRef : Option Ref
  aimedArrivalTime : Option String
  aimedDepartureTime : Option String
  expectedArrivalTime : Option String
  expectedDepartureTime : Option String
  deriving DecidableEq, Repr

structure Journey where
  recordedAtTime : Option String
  datedVehicleJourneyRef : Option Ref
  destinationRef : Option Ref
  directionRef : Option Ref
  lineRef : Option Ref
  publishedLineName : List Ref
  destinationName : List Ref
  estimatedCalls : List Call
  deriving DecidableEq, Repr

structure Delivery where
  responseTimestamp : Option String
  producerRef : Option String
  journeys : List Journey
  deriving DecidableEq, Repr

structure Siri where
  serviceDelivery : Option Delivery
  deriving DecidableEq, Repr

structure Document where
  siri : Option Siri
  deriving DecidableEq, Repr

/-! ## Reading -/

/-- Reads the node that a path leads to. -/
abbrev NodeReader (α : Type) := Path → Json → Except Mismatch α

def members : NodeReader (Members Json)
  | _, .object ms => .ok ms
  | path, _ => .error ⟨path, .object⟩

/-- A text, or the digits of a number. -/
def text : NodeReader String
  | _, .text s => .ok s
  | _, .integer i => .ok (integerText i)
  | _, .real x => .ok (x.write .plain)
  | path, _ => .error ⟨path, .text⟩

/-- The items of an array, the first of which has the index `index`. -/
def itemsFrom {α : Type} (read : NodeReader α) (path : Path) (index : Nat) :
    List Json → Except Mismatch (List α)
  | [] => .ok []
  | item :: rest => do
    let first ← read (path ++ [.index index]) item
    let others ← itemsFrom read path (index + 1) rest
    return first :: others

def items {α : Type} (read : NodeReader α) : NodeReader (List α)
  | path, .array list => itemsFrom read path 0 list
  | path, _ => .error ⟨path, .array⟩

/-- A field, if it is there and not null. -/
def field {α : Type} (read : NodeReader α) (path : Path) (ms : Members Json) (f : Field) :
    Except Mismatch (Option α) :=
  match f.find? ms with
  | none => .ok none
  | some (_, .null) => .ok none
  | some (name, value) => (read (path ++ [.key name]) value).map some

/-- A field that holds an array; a missing one holds nothing. -/
def arrayField {α : Type} (read : NodeReader α) (path : Path) (ms : Members Json)
    (f : Field) : Except Mismatch (List α) :=
  (field (items read) path ms f).map (·.getD [])

def ref : NodeReader Ref := fun path json => do
  let ms ← members path json
  return ⟨← field text path ms .value⟩

def call : NodeReader Call := fun path json => do
  let ms ← members path json
  let stopPointRef ← field ref path ms .stopPointRef
  let aimedArrivalTime ← field text path ms .aimedArrivalTime
  let aimedDepartureTime ← field text path ms .aimedDepartureTime
  let expectedArrivalTime ← field text path ms .expectedArrivalTime
  let expectedDepartureTime ← field text path ms .expectedDepartureTime
  return ⟨stopPointRef, aimedArrivalTime, aimedDepartureTime, expectedArrivalTime,
    expectedDepartureTime⟩

/-- The object around the calls of a journey. -/
def calls : NodeReader (List Call) := fun path json => do
  let ms ← members path json
  arrayField call path ms .estimatedCall

def journey : NodeReader Journey := fun path json => do
  let ms ← members path json
  let recordedAtTime ← field text path ms .recordedAtTime
  let datedVehicleJourneyRef ← field ref path ms .datedVehicleJourneyRef
  let destinationRef ← field ref path ms .destinationRef
  let directionRef ← field ref path ms .directionRef
  let lineRef ← field ref path ms .lineRef
  let publishedLineName ← arrayField ref path ms .publishedLineName
  let destinationName ← arrayField ref path ms .destinationName
  let estimatedCalls ← field calls path ms .estimatedCalls
  return ⟨recordedAtTime, datedVehicleJourneyRef, destinationRef, directionRef, lineRef,
    publishedLineName, destinationName, estimatedCalls.getD []⟩

def delivery : NodeReader Delivery := fun path json => do
  let ms ← members path json
  let responseTimestamp ← field text path ms .responseTimestamp
  let producerRef ← field text path ms .producerRef
  let journeys ← arrayField journey path ms .estimatedTimetableDelivery
  return ⟨responseTimestamp, producerRef, journeys⟩

def siri : NodeReader Siri := fun path json => do
  let ms ← members path json
  return ⟨← field delivery path ms .serviceDelivery⟩

def document (json : Json) : Except Mismatch Document := do
  let ms ← members [] json
  return ⟨← field siri [] ms .siri⟩

end Draft

end TimetableFeed
