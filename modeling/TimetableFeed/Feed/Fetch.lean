import TimetableFeed.Feed.Settings
import TimetableFeed.Url.Mask

/-!
# Fetching a feed

One request for the body of a feed, without retries. The answer with the status 204 has nothing to
deliver, and so has an empty body; any status but 200 and 204 is an error, and so is a connection
that fails before the body has been read. An error never shows the credentials of the address.

Main definitions: `Reply`, `FetchError`, `fetch`.
-/

namespace TimetableFeed

inductive HttpFault where
  | timeout
  | serverTimeout
  | connection
  | payload
  | client
  deriving DecidableEq, Repr

def HttpFault.isTimeout : HttpFault → Bool
  | .timeout | .serverTimeout => true
  | .connection | .payload | .client => false

/-- Faults that have nothing to do with the exchange. -/
inductive ForeignFault where
  | runtime
  | system
  deriving DecidableEq, Repr

inductive FetchError where
  /-- An error that the other side reports in these words. -/
  | reported (message : String) (status : Option Int) (url : String)
  /-- A status other than 200 and 204, and the beginning of the body. -/
  | status (url : String) (code : Int) (head : List UInt8)
  | timedOut (url : String) (timeout : Quantity) (fault : HttpFault)
  | failed (url : String) (fault : HttpFault) (message : String)
  deriving DecidableEq, Repr

namespace FetchError

def message : FetchError → String
  | .reported message _ _ => message
  | .status url code head =>
    "HTTP " ++ integerText code ++ " from " ++ url ++ ": " ++ Text.quotedBytes head
  | .timedOut url timeout _ => "Request to " ++ url ++ " timed out after " ++ timeout.write ++ "s"
  | .failed url _ message => "Request to " ++ url ++ " failed: " ++ message

/-- The status of the answer, if there was one. -/
def status? : FetchError → Option Int
  | .reported _ code _ => code
  | .status _ code _ => some code
  | _ => none

def url : FetchError → String
  | .reported _ _ shown => shown
  | .status shown _ _ => shown
  | .timedOut shown _ _ => shown
  | .failed shown _ _ => shown

def cause? : FetchError → Option HttpFault
  | .timedOut _ _ fault => some fault
  | .failed _ fault _ => some fault
  | _ => none

end FetchError

/-- What happens in the place of an answer. -/
inductive Failure where
  | http (fault : HttpFault) (message : String)
  | fetch (error : FetchError)
  | foreign (fault : ForeignFault) (message : String)
  deriving DecidableEq, Repr

/-- What the other side does when it is asked: it fails at once, or it answers with a status and a
body, which perhaps cannot be read. -/
structure Reply where
  failure? : Option Failure
  status : Int
  body? : Option (List UInt8)
  readFailure? : Option Failure
  deriving DecidableEq, Repr

def Reply.noContent : Reply := ⟨none, 204, none, none⟩

structure Request where
  url : String
  headers : List (String × String)
  timeout : Quantity
  deriving DecidableEq, Repr

/-- The request for the feed of the settings. It carries the address as it is. -/
def Settings.request (s : Settings) : Request :=
  ⟨s.url, [("accept", "application/json"), ("user-agent", "pysiri/1 (+aiohttp)")], s.timeout⟩

/-- What escapes from a poller instead of a result. -/
inductive Escape where
  | url (error : Url.Error)
  | notReady
  | failure (failure : Failure)
  deriving DecidableEq, Repr

inductive Fetched where
  | body (bytes : List UInt8)
  | nothing
  | failed (error : FetchError)
  | escaped (escape : Escape)
  deriving DecidableEq, Repr

def quotedHead : Nat := 200

/-- What a failure gives: those of the exchange become errors of the fetch, others escape. -/
def Failure.fetched (url : String) (timeout : Quantity) : Failure → Fetched
  | .fetch error => .failed error
  | .http fault message =>
    if fault.isTimeout then .failed (.timedOut url timeout fault)
    else .failed (.failed url fault message)
  | .foreign fault message => .escaped (.failure (.foreign fault message))

/-- What a reply over HTTP gives; `url` is the address as it may be shown. -/
def Reply.fetched (url : String) (timeout : Quantity) (r : Reply) : Fetched :=
  match r.failure? with
  | some failure => failure.fetched url timeout
  | none =>
    if r.status = 204 then .nothing
    else
      match r.readFailure? with
      | some failure => failure.fetched url timeout
      | none =>
        let body := r.body?.getD []
        if r.status ≠ 200 then .failed (.status url r.status (body.take quotedHead))
        else if body.isEmpty then .nothing
        else .body body

/-- A fetch: the request, unless the address cannot be shown, in which case none is sent; the
address as it may be shown; and what comes of it. -/
structure Fetch where
  request? : Option Request
  shown? : Option String
  result : Fetched
  deriving DecidableEq, Repr

def fetch (s : Settings) (r : Reply) : Fetch :=
  match Url.masked? s.url with
  | .error e => ⟨none, none, .escaped (.url e)⟩
  | .ok url => ⟨some s.request, some url, r.fetched url s.timeout⟩

/-- What a ready-made fetcher gives. It knows no status; its failures are errors of the fetch only
if it reports them as such. -/
def Reply.delivered (r : Reply) : Fetched :=
  match r.failure? with
  | some (.fetch error) => .failed error
  | some failure => .escaped (.failure failure)
  | none =>
    match r.body? with
    | some bytes => .body bytes
    | none => .nothing

end TimetableFeed
