import TimetableFeed.Delivery.Dump
import TimetableFeed.Feed.Poller
import TimetableFeed.Json.Printer

/-!
# Reports

What the command prints: a heading, and the lines that sum up a delivery or a poll.

Main definitions: `heading`, `ServiceDelivery.report`, `Outcome.report`.
-/

namespace TimetableFeed

def heading (title : String) : String :=
  let rule := String.ofList (List.replicate 60 '=')
  "\n" ++ rule ++ "\n  " ++ title ++ "\n" ++ rule

/-- How many different lines a summary lists. -/
def lineLimit : Nat := 20

/-- The elements of an ordered list, each once. -/
def distinct : List String → List String
  | x :: y :: rest => if x = y then distinct (y :: rest) else x :: distinct (y :: rest)
  | short => short

/-- The first of the lines that the journeys run on, each once and in the order of code points. -/
def servedLines (journeys : List EstimatedVehicleJourney) : List String :=
  let lines := (journeys.map fun j => j.lineRef.text).mergeSort fun a b => decide (a ≤ b)
  (distinct lines).take lineLimit

def callCount (journeys : List EstimatedVehicleJourney) : Nat :=
  (journeys.flatMap fun j => j.estimatedCalls).length

def ServiceDelivery.report (d : ServiceDelivery) : List String :=
  ["  producer  : " ++ d.producerRef.text, "  timestamp : " ++ d.responseTimestamp.write,
    "  journeys  : " ++ integerText d.journeys.length]

namespace Snapshot

def report (s : Snapshot) : List String :=
  let journeys := journeysOf s.deliveries
  ["  producer  : " ++ s.producerRef.text, "  timestamp : " ++ s.responseTimestamp.write,
    "  mode      : " ++ s.mode.name, "  journeys  : " ++ integerText journeys.length,
    "  calls     : " ++ integerText (callCount journeys)] ++
    (servedLines journeys).map ("    line " ++ ·)

def toJson (s : Snapshot) : Json := .array (s.deliveries.map (·.toJson .camel))

end Snapshot

def Outcome.report (json : Bool) (attempt : Nat) : Outcome → List String
  | .accepted s =>
    if json then [s.toJson.print .page]
    else ("  poll " ++ integerText attempt ++ ": accepted") :: s.report
  | .noUpdate cause =>
    ["  poll " ++ integerText attempt ++ ": no update (" ++ cause.reason ++ ")"]

end TimetableFeed
