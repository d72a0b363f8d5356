import TimetableFeed.Command.Files
import TimetableFeed.Command.Options
import TimetableFeed.Command.Report

/-!
# Running the command

The command either decodes a file or polls a feed, once or several times with a pause in between,
and reports what it gets. A run is computed as a whole from what the command finds around it: the
environment, the files, the clock, and what the other side answers.

Main definitions: `Run`, `rounds`, `run`.
-/

namespace TimetableFeed.Command

/-- What the command finds around it. -/
structure Surroundings where
  environment : Settings.Environment
  files : FileName → Except FileFault (List UInt8)
  now : Moment
  timing : Timing
  /-- What the other side does in the poll with the given number. -/
  reply : Nat → Reply

/-- What ends the command without an exit status. -/
inductive Crash where
  | file (name : FileName) (fault : FileFault)
  | settings (error : SettingsError)
  | session (error : SessionError)
  | poll (escape : Escape)
  /-- The number of polls was given as nothing. -/
  | noCount
  /-- The length of the pause was given as nothing. -/
  | noInterval
  deriving DecidableEq, Repr

/-- The text of what ends the command; the faults of a session speak for themselves. -/
def Crash.message : Crash → String
  | .file name fault => fault.message name
  | .settings error => error.message
  | .session .outOfRange => SessionError.outOfRangeMessage
  | .session (.issues list) => "\n".intercalate (list.map fun issue => issue.fault.message)
  | .poll e => e.message
  | .noCount => "can only concatenate list (not \"int\") to list"
  | .noInterval => "'>' not supported between instances of 'list' and 'int'"

inductive Effect where
  /-- Writes a text and a line feed to the standard output. -/
  | print (text : String)
  /-- Writes a text and a line feed to the standard error. -/
  | complain (text : String)
  | sleep (seconds : Binary64)
  deriving DecidableEq, Repr

/-- A run of the command: what it does, the connections that it has opened, and how it ends. -/
structure Run where
  effects : List Effect
  connections : List Connection
  ending : Except Crash Nat

def Run.crashed (crash : Crash) : Run := ⟨[], [], .error crash⟩

/-- An event is told: always, unless it is of use in debugging only. -/
def Options.shows (o : Options) (e : LogEvent) : Bool := o.verbose || e.level != .debug

def Options.tell (o : Options) (log : List LogEvent) : List Effect :=
  (log.filter o.shows).map fun e => .complain e.line

/-! ## Decoding a file -/

/-- What decoding a body gives, with the exit status; `title` stands above the report. -/
def decodeBody (o : Options) (title : String) (body : List UInt8) : List Effect × Nat :=
  match decode? body with
  | .error e => ([.complain ("decode failed (" ++ e.blame.describe ++ "): " ++ e.message)], 1)
  | .ok d =>
    let lines := if o.json then [(d.toJson .camel).print .page] else heading title :: d.report
    (o.tell [.ofDelivery d] ++ lines.map .print, 0)

def decodeFile (w : Surroundings) (o : Options) : Run :=
  let name := FileName.read o.file
  match w.files name with
  | .error fault => .crashed (.file name fault)
  | .ok body =>
    let (effects, status) := decodeBody o o.file body
    ⟨effects, [], .ok status⟩

/-! ## Polling a feed -/

/-- Polls, one after the other: what they do, the poller afterwards, and how they end. -/
structure Rounds where
  effects : List Effect
  poller : Poller
  ending : Except Crash Unit

/-- The pause before the poll with the given number: none before the first, and none unless its
length exceeds nought. -/
def pause? (o : Options) (attempt : Nat) : Except Crash (List Effect) :=
  if attempt ≤ 1 then .ok []
  else
    match o.interval with
    | none => .error .noInterval
    | some seconds => .ok (if seconds.isPositive then [.sleep seconds] else [])

def rounds (w : Surroundings) (o : Options) (p : Poller) (attempt : Nat) : Nat → Rounds
  | 0 => ⟨[], p, .ok ()⟩
  | left + 1 =>
    match pause? o attempt with
    | .error crash => ⟨[], p, .error crash⟩
    | .ok pause =>
      let poll := p.poll w.timing (w.reply attempt)
      let told := pause ++ o.tell poll.log
      match poll.outcome with
      | .error escape => ⟨told, poll.poller, .error (.poll escape)⟩
      | .ok outcome =>
        let later := rounds w o poll.poller (attempt + 1) left
        ⟨told ++ (outcome.report o.json attempt).map .print ++ later.effects, later.poller,
          later.ending⟩

def title (description : String) (feedId : Option String) : String :=
  heading (description ++ " feed_id=" ++ feedId.getD "None")

def visit (w : Surroundings) (o : Options) (p : Poller) : Rounds :=
  match p.describe? with
  | .error e => ⟨[], p, .error (.poll (.url e))⟩
  | .ok description =>
    let top : Effect := .print (title description p.settings.feedId)
    match o.count with
    | none => ⟨[top], p, .error .noCount⟩
    | some count =>
      let polls := rounds w o p 1 count.toNat
      ⟨top :: polls.effects, polls.poller, polls.ending⟩

/-- The settings that the options give; they count more than the environment. -/
def Options.overrides (o : Options) : Settings.Overrides :=
  let given (s : String) : Option (Option String) := if s = "" then none else some (some s)
  ⟨given o.url, given o.feedId, none, none⟩

/-- Polls the feed of the settings. The poller is left in any case. -/
def pollFeed (w : Surroundings) (o : Options) : Run :=
  match Settings.ofEnvironment? w.environment o.overrides with
  | .error e => .crashed (.settings e)
  | .ok settings =>
    match Poller.start? settings (.own [] none) w.now with
    | .error e => .crashed (.session e)
    | .ok p =>
      let polls := visit w o p.enter
      ⟨polls.effects, polls.poller.leave.link.connections, polls.ending.map fun _ => 0⟩

def run (w : Surroundings) (arguments : List String) : Run :=
  match Options.read? arguments with
  | .error .help => ⟨[.print help], [], .ok 0⟩
  | .error (.usage e) => ⟨[.complain e.report], [], .ok 2⟩
  | .ok o => if o.file ≠ "" then decodeFile w o else pollFeed w o

end TimetableFeed.Command
