import TimetableFeed.Delivery.Basic
import TimetableFeed.Delivery.Draft
import TimetableFeed.Time.Lenient

/-!
# Keyed data

Values under names, from which deliveries are built without a feed. Unlike a document, such data may
hold points in time, and it is checked throughout: all that is wrong with it is told, in the order
of the fields, and keys that no field has come last.

Main definitions: `Checked`, `Datum.record`.
-/

namespace TimetableFeed

/-- A value under a name. -/
inductive Datum where
  | null
  | number (value : Quantity)
  | text (value : String)
  | moment (value : Moment)
  | array (items : List Datum)
  | object (members : List (String × Datum))

inductive Fault where
  | missing
  | unknownKey
  | notText
  | emptyText
  | notTimestamp (error : LenientError)
  | notArray
  | notRecord (type : String)
  | notMode
  deriving DecidableEq, Repr

def Fault.name : Fault → String
  | .missing => "missing"
  | .unknownKey => "extra_forbidden"
  | .notText => "string_type"
  | .emptyText => "string_too_short"
  | .notTimestamp error => error.name
  | .notArray => "tuple_type"
  | .notRecord _ => "model_type"
  | .notMode => "enum"

def Fault.message : Fault → String
  | .missing => "Field required"
  | .unknownKey => "Extra inputs are not permitted"
  | .notText => "Input should be a valid string"
  | .emptyText => "String should have at least 1 character"
  | .notTimestamp error => error.message
  | .notArray => "Input should be a valid tuple"
  | .notRecord type => "Input should be a valid dictionary or instance of " ++ type
  | .notMode => "Input should be 'full' or 'incremental'"

structure Issue where
  path : Path
  fault : Fault
  deriving DecidableEq, Repr

/-- A value, or all that is wrong with the data for it. -/
inductive Checked (α : Type) where
  | ok (value : α)
  | faulty (issues : List Issue)
  deriving Repr

namespace Checked

def fault {α : Type} (path : Path) (fault : Fault) : Checked α := .faulty [⟨path, fault⟩]

/-- Applies what one part gives to what the other gives; the issues of both count. -/
def apply {α β : Type} : Checked (α → β) → Checked α → Checked β
  | .ok f, .ok x => .ok (f x)
  | .ok _, .faulty issues => .faulty issues
  | .faulty issues, .ok _ => .faulty issues
  | .faulty issues, .faulty more => .faulty (issues ++ more)

instance : Applicative Checked where
  pure := .ok
  seq f x := apply f (x ())

end Checked

namespace Datum

/-- Reads the datum that a path leads to. -/
abbrev DatumReader (α : Type) := Path → Datum → Checked α

def required {α : Type} (read : DatumReader α) (path : Path) (members : Members Datum)
    (field : Field) : Checked α :=
  match field.find? members with
  | some (name, datum) => read (path ++ [.key name]) datum
  | none => .fault (path ++ [.key field.camel]) .missing

def optional {α : Type} (read : DatumReader α) (path : Path) (members : Members Datum)
    (field : Field) (default : α) : Checked α :=
  match field.find? members with
  | some (name, datum) => read (path ++ [.key name]) datum
  | none => .ok default

def nullable {α : Type} (read : DatumReader α) : DatumReader (Option α)
  | _, .null => .ok none
  | path, datum => some <$> read path datum

def string : DatumReader String
  | _, .text s => .ok s
  | path, _ => .fault path .notText

def nonEmptyText : DatumReader NonEmptyText
  | path, .text s => if h : s = "" then .fault path .emptyText else .ok ⟨s, h⟩
  | path, _ => .fault path .notText

/-- The timestamp that a datum gives: a point in time with its offset, a text or a number. -/
def timestamp? : Datum → Except LenientError Timestamp
  | .moment m =>
    match m.timestamp? with
    | some t => .ok t
    | none => .error .noOffset
  | .text s => Timestamp.ofText? s
  | .number q => Timestamp.ofQuantity? q
  | _ => .error .noTime

def timestamp : DatumReader Timestamp := fun path datum =>
  match datum.timestamp? with
  | .ok t => .ok t
  | .error e => .fault path (.notTimestamp e)

/-- Items, the first of which has the index `index`. -/
def itemsFrom {α : Type} (read : DatumReader α) (path : Path) (index : Nat) :
    List Datum → Checked (List α)
  | [] => .ok []
  | item :: rest =>
    List.cons <$> read (path ++ [.index index]) item <*> itemsFrom read path (index + 1) rest

def items {α : Type} (read : DatumReader α) : DatumReader (List α)
  | path, .array list => itemsFrom read path 0 list
  | path, _ => .fault path .notArray

/-- Every key must be the one under which one of the fields stands. -/
def knownKeys (fields : List Field) (path : Path) (members : Members Datum) :
    Checked Unit :=
  let known := fields.filterMap fun field => (field.find? members).map (·.1)
  match members.filter fun member => !known.contains member.1 with
  | [] => .ok ()
  | unknown => .faulty (unknown.map fun member => ⟨path ++ [.key member.1], .unknownKey⟩)

def record {α : Type} (type : String) (fields : List Field)
    (read : Path → Members Datum → Checked α) : DatumReader α
  | path, .object members =>
    Function.const Unit <$> read path members <*> knownKeys fields path members
  | path, _ => .fault path (.notRecord type)

end Datum

end TimetableFeed
