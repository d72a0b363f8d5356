import TimetableFeed.Feed.Poller

/-!
# Actions on a poller

What may be done with a poller, in any order, and the steps that a sequence of actions takes. An
action that fails lets something escape, but the poller stays usable.

Main definitions: `Poller.act`, `Poller.steps`, `Poller.after`.
-/

namespace TimetableFeed

/-- What may be done with a poller; a poll goes with what the other side does. -/
inductive Action where
  | enter
  | leave
  | describe
  | poll (reply : Reply)
  deriving DecidableEq, Repr

inductive Result where
  | entered
  | left
  | described (text : Except Url.Error String)
  | polled (outcome : Except Escape Outcome)

/-- A step: what the action gives, what is told, and the poller from then on. -/
structure Step where
  result : Result
  log : List LogEvent
  poller : Poller

def Step.accepts (s : Step) : Bool :=
  match s.result with
  | .polled (.ok (.accepted _)) => true
  | _ => false

namespace Poller

def act (timing : Timing) (p : Poller) : Action → Step
  | .enter => ⟨.entered, [], p.enter⟩
  | .leave => ⟨.left, [], p.leave⟩
  | .describe => ⟨.described p.describe?, [], p⟩
  | .poll reply =>
    let poll := p.poll timing reply
    ⟨.polled poll.outcome, poll.log, poll.poller⟩

def steps (timing : Timing) (p : Poller) : List Action → List Step
  | [] => []
  | action :: rest =>
    let step := p.act timing action
    step :: step.poller.steps timing rest

def after (timing : Timing) (p : Poller) (actions : List Action) : Poller :=
  actions.foldl (fun p action => (p.act timing action).poller) p

end Poller

end TimetableFeed
