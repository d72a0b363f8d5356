import Std.Time.DateTime.Timestamp
import TimetableFeed.Command.Run

/-!
# The command line

Looks at what is around the command, runs it, and then carries out what the run does. No HTTP client
comes with the library: every request fails like a connection that cannot be made, so that only the
decoding of files is of use without a client put in its place.
-/

open TimetableFeed TimetableFeed.Command

namespace TimetableFeed.CommandLine

def settingNames : List String :=
  ["SIRI_URL", "SIRI_FEED_ID", "SIRI_REQUEST_TIMEOUT", "SIRI_INITIAL_LOOKBACK_DAYS"]

def readEnvironment : IO Settings.Environment := do
  let values ← settingNames.mapM fun name => return (name, ← IO.getEnv name)
  return fun name => (values.lookup name).join

def readFile (name : FileName) : IO (Except FileFault (List UInt8)) := do
  try
    return .ok (← IO.FS.readBinFile name.write).toList
  catch
    | .noFileOrDirectory .. => return .error .missing
    | .inappropriateType _ 21 _ => return .error .isDirectory
    | .inappropriateType .. => return .error .notDirectory
    | .invalidArgument .. => return .error (if name.hasNul then .nul else .nameTooLong)
    | e => throw e

def readClock : IO Moment := do
  let now ← Std.Time.Timestamp.now
  match Moment.ofUnix? (now.toNanosecondsSinceUnixEpoch.toInt / 1000) with
  | some moment => return moment
  | none => throw (IO.userError SessionError.outOfRangeMessage)

/-- What takes the place of an answer as long as there is no HTTP client. -/
def noClient : Reply := ⟨some (.http .connection "no HTTP client is available"), 0, none, none⟩

/-- Whole milliseconds; infinitely many are cut to what a pause can have. -/
def milliseconds : Binary64 → UInt32
  | .finite false mantissa exponent =>
    UInt32.ofNat (min (mantissa * twoPow exponent * 1000 / Binary64.one) (UInt32.size - 1))
  | .infinite false => UInt32.ofNat (UInt32.size - 1)
  | _ => 0

def perform : Effect → IO Unit
  | .print text => IO.println text
  | .complain text => IO.eprintln text
  | .sleep seconds => IO.sleep (milliseconds seconds)

/-- The content of the file that the arguments name, if they name one. -/
def contentOf (arguments : List String) : IO (Except FileFault (List UInt8)) :=
  match Options.read? arguments with
  | .ok o => if o.file = "" then return .error .missing else readFile (FileName.read o.file)
  | .error _ => return .error .missing

end TimetableFeed.CommandLine

open TimetableFeed.CommandLine in
def main (arguments : List String) : IO UInt32 := do
  let content ← contentOf arguments
  let around : Surroundings :=
    ⟨← readEnvironment, fun _ => content, ← readClock, ⟨0, 0⟩, fun _ => noClient⟩
  let run := run around arguments
  run.effects.forM perform
  match run.ending with
  | .ok status => return UInt32.ofNat status
  | .error crash =>
    IO.eprintln crash.message
    return 1
