import TimetableFeed.Delivery.Datum

/-!
# The staleness gate

Between two polls a poller remembers the response timestamp of the last snapshot that it accepted,
and whether the next one is to replace what its consumers have or to be added to it. A snapshot that
is older than the last accepted one is stale; any other is accepted, equal instants included, and
from then on snapshots are incremental.

Main definitions: `Session.start?`, `Gate.judge`, `Gate.run`.
-/

namespace TimetableFeed

/-- How a snapshot is to be applied. -/
inductive DatasetMode where
  | full
  | incremental
  deriving DecidableEq, Repr

def DatasetMode.name : DatasetMode → String
  | .full => "full"
  | .incremental => "incremental"

def DatasetMode.ofName? (name : String) : Option DatasetMode :=
  if name = "full" then some .full else if name = "incremental" then some .incremental else none

/-- What a poller remembers between two polls. -/
structure Session where
  lastTimestamp : Timestamp
  mode : DatasetMode
  deriving DecidableEq, Repr

inductive SessionError where
  /-- The first timestamp would lie outside the years 1 to 9999. -/
  | outOfRange
  | issues (list : List Issue)
  deriving DecidableEq, Repr

def SessionError.outOfRangeMessage : String := "date value out of range"

namespace Session

def checkMoment (m : Moment) : Checked Timestamp :=
  Datum.timestamp [.key "last_timestamp"] (.moment m)

/-- The name of a mode; none if it is not a text. -/
def checkMode (name : Option String) : Checked DatasetMode :=
  match name.bind DatasetMode.ofName? with
  | some mode => .ok mode
  | none => .fault [.key "mode"] .notMode

/-- The session with the given values; the mode is full unless given. -/
def of? (last : Moment) (mode : Option (Option String)) : Except SessionError Session :=
  let mode :=
    match mode with
    | none => .ok .full
    | some name => checkMode name
  match Session.mk <$> checkMoment last <*> mode with
  | .ok session => .ok session
  | .faulty issues => .error (.issues issues)

/-- The session of a new poller: as if the last snapshot had been accepted `lookback` ago. -/
def start? (now : Moment) (lookback : Duration) : Except SessionError Session :=
  match LocalTime.ofMicros? (now.wall.micros - lookback.micros) with
  | none => .error .outOfRange
  | some wall => of? ⟨wall, now.offset?⟩ none

end Session

namespace Gate

/-- The verdict on a snapshot: whether it is accepted, how it is to be applied, and the session from
then on. -/
structure Decision where
  accepted : Bool
  mode : DatasetMode
  session : Session
  deriving DecidableEq, Repr

def judge (s : Session) (t : Timestamp) : Decision :=
  if t.instant < s.lastTimestamp.instant then ⟨false, s.mode, s⟩
  else ⟨true, s.mode, ⟨t, .incremental⟩⟩

def run (s : Session) : List Timestamp → List Decision
  | [] => []
  | t :: rest => judge s t :: run (judge s t).session rest

def final (s : Session) (ts : List Timestamp) : Session :=
  ts.foldl (fun s t => (judge s t).session) s

end Gate

end TimetableFeed
