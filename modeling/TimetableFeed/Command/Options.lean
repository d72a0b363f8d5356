import TimetableFeed.Command.Flag
import TimetableFeed.Number.Numeral

/-!
# Options

What the command line asks for. All arguments get their forms before any of them takes effect; then
they take effect one after the other, and the first fault ends it. What is left over is a fault at
the end. The later one of two values of a setting counts.

Main definitions: `Options`, `Options.read?`.
-/

namespace TimetableFeed.Command

/-- What the command line asks for. An empty text stands for one that is not given; a number is none
if it was given as nothing. -/
structure Options where
  url : String
  feedId : String
  count : Option Int
  interval : Option Binary64
  json : Bool
  file : String
  verbose : Bool
  deriving DecidableEq, Repr

/-- One poll, and thirty seconds between two. -/
def Options.default : Options := ⟨"", "", some 1, some (.ofInt 30), false, "", false⟩

inductive Halt where
  | help
  | usage (error : UsageError)
  deriving DecidableEq, Repr

namespace Options

/-- A setting is given as nothing. -/
def clear (o : Options) : Setting → Options
  | .url => { o with url := "" }
  | .feedId => { o with feedId := "" }
  | .count => { o with count := none }
  | .interval => { o with interval := none }
  | .file => { o with file := "" }

/-- A setting is given as a text. -/
def put? (o : Options) (s : Setting) (text : String) : Except UsageError Options :=
  match s with
  | .url => .ok { o with url := text }
  | .feedId => .ok { o with feedId := text }
  | .file => .ok { o with file := text }
  | .count =>
    match Numeral.integer? text with
    | some n => .ok { o with count := some n }
    | none => .error (.notWhole s text)
  | .interval =>
    match Numeral.real? text with
    | some x => .ok { o with interval := some x }
    | none => .error (.notNumeric s text)

/-- A setting is given by the text attached to it. A double dash there stands for nothing. -/
def attach? (o : Options) (s : Setting) (text : String) : Except UsageError Options :=
  if text = "--" then .ok (o.clear s) else o.put? s text

def switch? (o : Options) : List Switch → Except Halt Options
  | [] => .ok o
  | .help :: _ => .error .help
  | .json :: rest => switch? { o with json := true } rest
  | .verbose :: rest => switch? { o with verbose := true } rest

/-- The options after the arguments have taken effect on `o`, and the arguments that have none. -/
def take? (o : Options) : List (String × Form) → Except Halt (Options × List String)
  | [] => .ok (o, [])
  | (_, .flag ⟨_, .setting s⟩ none) :: (text, .word) :: rest => do
    let o ← (o.put? s text).mapError .usage
    take? o rest
  | (_, .flag ⟨_, .setting s⟩ none) :: _ => .error (.usage (.noValue s))
  | (_, .flag ⟨_, .setting s⟩ (some text)) :: rest => do
    let o ← (o.attach? s (String.ofList text)).mapError .usage
    take? o rest
  | (_, .flag ⟨spelling, .switch s⟩ attached) :: rest => do
    let switches ← (s.expand? ⟨spelling, .switch s⟩ attached).mapError .usage
    let o ← o.switch? switches
    take? o rest
  | (argument, .word) :: rest | (argument, .unknown) :: rest => do
    let (o, left) ← take? o rest
    return (o, argument :: left)

def read? (arguments : List String) : Except Halt Options := do
  let forms ← (Form.ofAll? arguments).mapError .usage
  match ← take? .default forms with
  | (o, []) => return o
  | (_, left) => .error (.usage (.unrecognized left))

end Options

/-! ## Help -/

def usage : String :=
  "usage: poll_feed.py [-h] [--url URL] [--feed-id FEED_ID] [--count COUNT]\n" ++
  "                    [--interval INTERVAL] [--json] [--file FILE] [--verbose]\n"

def help : String :=
  usage ++ "\nPoll a SIRI Lite ET feed\n\noptions:\n" ++
  "  -h, --help           show this help message and exit\n" ++
  "  --url URL            Feed URL (overrides SIRI_URL)\n" ++
  "  --feed-id FEED_ID    Feed id (overrides SIRI_FEED_ID)\n" ++
  "  --count COUNT        Number of polls\n" ++
  "  --interval INTERVAL  Seconds between polls\n" ++
  "  --json               Print accepted deliveries as JSON\n" ++
  "  --file FILE          Decode a saved feed body instead of fetching\n" ++
  "  --verbose, -v        Enable debug logging"

def UsageError.report (e : UsageError) : String := usage ++ "poll_feed.py: error: " ++ e.message

end TimetableFeed.Command
