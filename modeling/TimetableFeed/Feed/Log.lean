import TimetableFeed.Delivery.Basic
import TimetableFeed.Delivery.DecodeError
import TimetableFeed.Feed.Excerpt
import TimetableFeed.Feed.Fetch

/-!
# The log

What is told about a poll while it goes on. Each event has a level, the part of the poller that it
comes from, and a message in which the address is masked and a body is cut.

Main definitions: `LogEvent.message`, `LogEvent.line`.
-/

namespace TimetableFeed

inductive LogLevel where
  | debug
  | info
  | warning
  deriving DecidableEq, Repr

def LogLevel.name : LogLevel → String
  | .debug => "DEBUG"
  | .info => "INFO"
  | .warning => "WARNING"

/-- The part of the poller that an event comes from. -/
inductive LogOrigin where
  | transport
  | decoder
  | poller
  deriving DecidableEq, Repr

def LogOrigin.name : LogOrigin → String
  | .transport => "pysiri._transport"
  | .decoder => "pysiri.ingestion.decoder"
  | .poller => "pysiri.source"

/-- What is told about a poll. Addresses are given as they may be shown, times in milliseconds. -/
inductive LogEvent where
  | requesting (url : String)
  | fetchFailed (url : String) (elapsed : Nat) (error : FetchError)
  | noData (url : String)
  | fetched (elapsed : Nat)
  | decodeFailed (url : String) (error : DecodeError)
  | rejected (body : List UInt8)
  | decoded (journeys : Nat) (producer : String) (time : Timestamp)
  | parsed (elapsed : Nat)
  | stale (snapshot last : Timestamp)
  deriving DecidableEq, Repr

namespace LogEvent

def level : LogEvent → LogLevel
  | .requesting _ | .rejected _ | .decoded _ _ _ => .debug
  | .fetched _ | .parsed _ | .stale _ _ => .info
  | .fetchFailed _ _ _ | .noData _ | .decodeFailed _ _ => .warning

def origin : LogEvent → LogOrigin
  | .requesting _ => .transport
  | .decoded _ _ _ => .decoder
  | _ => .poller

def message : LogEvent → String
  | .requesting url => "GET " ++ url
  | .fetchFailed url elapsed error =>
    "Failed to fetch SIRI Lite ET feed from " ++ url ++ " after " ++ integerText elapsed ++
      " ms: " ++ error.message
  | .noData url => "SIRI Lite ET feed " ++ url ++ " returned no data"
  | .fetched elapsed => "Fetching ET data took " ++ integerText elapsed ++ " ms"
  | .decodeFailed url error =>
    "Failed to decode SIRI Lite ET feed from " ++ url ++ " (" ++ error.blame.describe ++ "): " ++
      error.message
  | .rejected body => "Rejected payload: " ++ Excerpt.write Excerpt.defaultLimit body
  | .decoded journeys producer time =>
    "Decoded " ++ integerText journeys ++ " vehicle journeys from " ++ producer ++ " at " ++
      time.writeSpaced
  | .parsed elapsed => "Decoding ET data took " ++ integerText elapsed ++ " ms"
  | .stale snapshot last =>
    "Newer data has already been processed (snapshot " ++ snapshot.write ++ ", last accepted " ++
      last.write ++ ")"

def line (e : LogEvent) : String := e.level.name ++ " " ++ e.origin.name ++ ": " ++ e.message

def ofDelivery (d : ServiceDelivery) : LogEvent :=
  .decoded d.journeys.length d.producerRef.text d.responseTimestamp

end LogEvent

end TimetableFeed
