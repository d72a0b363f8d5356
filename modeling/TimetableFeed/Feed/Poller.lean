import TimetableFeed.Delivery.Decode
import TimetableFeed.Feed.Gate
import TimetableFeed.Feed.Log

/-!
# The poller

A poller fetches a feed again and again, decodes what it gets and lets the staleness gate judge it.
It works through a fetcher or an HTTP connection that it is given, or through connections of its
own, which it opens when it is entered and closes when it is left. A poll that fetches nothing
usable is a result like any other; the session changes only when a snapshot is accepted.

Main definitions: `Poller.start?`, `Poller.enter`, `Poller.leave`, `Poller.poll`.
-/

namespace TimetableFeed

/-- An HTTP connection: the requests that went over it, and how often it has been closed. -/
structure Connection where
  requests : List Request
  closed : Nat
  deriving DecidableEq, Repr

def Connection.fresh : Connection := ⟨[], 0⟩

/-- What a poller fetches through. -/
inductive Link where
  /-- A ready-made fetcher, and how often it has been asked. -/
  | fetcher (fetches : Nat)
  /-- A connection that belongs to someone else; it is used from the first entry on. -/
  | given (entered : Bool) (connection : Connection)
  /-- Connections of its own: the closed ones, in their order, and the open one. -/
  | own (past : List Connection) (current : Option Connection)
  deriving DecidableEq, Repr

namespace Link

def isReady : Link → Bool
  | .fetcher _ => true
  | .given entered _ => entered
  | .own _ current => current.isSome

/-- The connections that there are or have been, in their order. -/
def connections : Link → List Connection
  | .fetcher _ => []
  | .given _ connection => [connection]
  | .own past current => past ++ current.toList

/-- Opens a connection if none is at hand. -/
def enter : Link → Link
  | .fetcher fetches => .fetcher fetches
  | .given _ connection => .given true connection
  | .own past none => .own past (some .fresh)
  | .own past (some connection) => .own past (some connection)

/-- Closes the open connection, if it is the poller's own. -/
def leave : Link → Link
  | .own past (some c) => .own (past ++ [{ c with closed := c.closed + 1 }]) none
  | link => link

def note (request : Request) : Link → Link
  | .fetcher fetches => .fetcher (fetches + 1)
  | .given entered c => .given entered { c with requests := c.requests ++ [request] }
  | .own past (some c) => .own past (some { c with requests := c.requests ++ [request] })
  | .own past none => .own past none

end Link

structure Poller where
  settings : Settings
  session : Session
  link : Link
  deriving DecidableEq, Repr

structure Snapshot where
  deliveries : List EstimatedTimetableDelivery
  mode : DatasetMode
  responseTimestamp : Timestamp
  producerRef : NonEmptyText
  deriving DecidableEq, Repr

/-- Why a poll brings nothing new. A fetch without a body has no error if there was nothing to
deliver. -/
inductive NoUpdate where
  | fetchFailed (error? : Option FetchError)
  | decodeFailed (error : DecodeError)
  | stale
  deriving DecidableEq, Repr

def NoUpdate.reason : NoUpdate → String
  | .fetchFailed _ => "fetch_failed"
  | .decodeFailed _ => "decode_failed"
  | .stale => "stale_snapshot"

inductive Outcome where
  | accepted (snapshot : Snapshot)
  | noUpdate (cause : NoUpdate)
  deriving DecidableEq, Repr

/-- How many milliseconds fetching and decoding took. -/
structure Timing where
  fetch : Nat
  decode : Nat
  deriving DecidableEq, Repr

/-- A poll: what it gives or what escapes from it, the poller afterwards, and what was told. -/
structure Poll where
  outcome : Except Escape Outcome
  poller : Poller
  log : List LogEvent

/-- What a body leads to: the outcome, the session from then on, and what is told. -/
structure Verdict where
  outcome : Outcome
  session : Session
  log : List LogEvent
  deriving DecidableEq, Repr

def Session.consider (s : Session) (url : String) (timing : Timing) (body : List UInt8) : Verdict :=
  match decode? body with
  | .error e => ⟨.noUpdate (.decodeFailed e), s, [.decodeFailed url e, .rejected body]⟩
  | .ok d =>
    let decision := Gate.judge s d.responseTimestamp
    let told : List LogEvent := [.ofDelivery d, .parsed timing.decode]
    if decision.accepted then
      ⟨.accepted ⟨d.estimatedTimetableDeliveries, decision.mode, d.responseTimestamp,
        d.producerRef⟩, decision.session, told⟩
    else ⟨.noUpdate .stale, decision.session, told ++ [.stale d.responseTimestamp s.lastTimestamp]⟩

namespace Poller

def start? (settings : Settings) (link : Link) (now : Moment) : Except SessionError Poller :=
  (Session.start? now settings.lookback).map fun session => ⟨settings, session, link⟩

def describe? (p : Poller) : Except Url.Error String :=
  (Url.masked? p.settings.url).map fun url => "SiriLiteEtSource(" ++ url ++ ")"

def enter (p : Poller) : Poller := { p with link := p.link.enter }

def leave (p : Poller) : Poller := { p with link := p.link.leave }

/-- Fetches through the link: what that gives, the link afterwards, and what is told. -/
def fetchThrough (p : Poller) (reply : Reply) : Fetched × Link × List LogEvent :=
  match p.link with
  | .fetcher _ => (reply.delivered, p.link.note p.settings.request, [])
  | _ =>
    let f := fetch p.settings reply
    (f.result, (f.request?.map p.link.note).getD p.link, f.shown?.toList.map .requesting)

/-- Polls the feed once; `reply` is what the other side does. -/
def poll (p : Poller) (timing : Timing) (reply : Reply) : Poll :=
  if !p.link.isReady then ⟨.error .notReady, p, []⟩
  else
    match Url.masked? p.settings.url with
    | .error e => ⟨.error (.url e), p, []⟩
    | .ok url =>
      let (fetched, link, told) := p.fetchThrough reply
      match fetched with
      | .escaped escape => ⟨.error escape, { p with link }, told⟩
      | .failed e =>
        ⟨.ok (.noUpdate (.fetchFailed (some e))), { p with link },
          told ++ [.fetchFailed url timing.fetch e]⟩
      | .nothing =>
        ⟨.ok (.noUpdate (.fetchFailed none)), { p with link }, told ++ [.noData url]⟩
      | .body body =>
        let verdict := p.session.consider url timing body
        ⟨.ok verdict.outcome, { p with link, session := verdict.session },
          told ++ .fetched timing.fetch :: verdict.log⟩

end Poller

/-- What is told to someone who polls a poller that has not been entered. -/
def Escape.notReadyMessage : String :=
  "Source not initialized. Use 'async with SiriLiteEtSource(...) as source:'"

def Escape.message : Escape → String
  | .url e => e.message
  | .notReady => Escape.notReadyMessage
  | .failure (.http _ message) => message
  | .failure (.fetch e) => e.message
  | .failure (.foreign _ message) => message

end TimetableFeed
