import TimetableFeed.Proofs.PollerRuns

/-!
# Whose connections

A poller closes what it has opened and nothing else. The connections of a link are told in the order
in which they were opened; one is open as long as nobody has closed it. The invariant of a poller
with connections of its own: those at hand before have been closed once, and the one at hand is
open. What an action does to the connections is then an equation, whatever came before it.

Main definitions: `Link.Orderly`, `Step.raises`. Main statements: `act_connections`,
`connections_by_owner`.
-/

namespace TimetableFeed

namespace Connection

def isOpen (c : Connection) : Bool := c.closed == 0

def shut (c : Connection) : Connection := if c.isOpen then { c with closed := c.closed + 1 } else c

/-- The connection after a request has gone over it, if it is open. -/
def asked (request : Request) (c : Connection) : Connection :=
  if c.isOpen then { c with requests := c.requests ++ [request] } else c

theorem isOpen_of_closed_zero {c : Connection} (h : c.closed = 0) : c.isOpen = true := by
  simp [isOpen, h]

theorem not_isOpen_of_closed_one {c : Connection} (h : c.closed = 1) : c.isOpen = false := by
  simp [isOpen, h]

theorem map_shut_of_closed {cs : List Connection} (h : ∀ c ∈ cs, c.closed = 1) :
    cs.map shut = cs := by
  have hsame : ∀ c ∈ cs, shut c = c := by
    intro c hc
    rw [shut, not_isOpen_of_closed_one (h c hc), if_neg Bool.false_ne_true]
  exact (List.map_congr_left hsame).trans cs.map_id'

theorem map_asked_of_closed {cs : List Connection} (h : ∀ c ∈ cs, c.closed = 1)
    (request : Request) : cs.map (asked request) = cs := by
  have hsame : ∀ c ∈ cs, asked request c = c := by
    intro c hc
    rw [asked, not_isOpen_of_closed_one (h c hc), if_neg Bool.false_ne_true]
  exact (List.map_congr_left hsame).trans cs.map_id'

@[simp] theorem shut_closed (c : Connection) : c.shut.closed = max c.closed 1 := by
  unfold shut isOpen
  by_cases hopen : c.closed = 0
  · simp [hopen]
  · simp only [beq_iff_eq, hopen, if_false]
    omega

@[simp] theorem asked_closed (request : Request) (c : Connection) :
    (c.asked request).closed = c.closed := by
  unfold asked
  split <;> rfl

end Connection

/-! ## The errors of polls -/

/-- The error is of a kind that the poller itself reports; others come from elsewhere. -/
def Escape.isReported : Escape → Bool
  | .notReady | .failure (.fetch _) => true
  | .url _ | .failure (.http _ _) | .failure (.foreign _ _) => false

/-- An error of the poller's own kinds escapes from the step. -/
def Step.raises (s : Step) : Bool :=
  match s.result with
  | .polled (.error e) => e.isReported
  | _ => false

theorem Reply.fetched_not_reported {url : String} {timeout : Quantity} {r : Reply} {e : Escape}
    (h : r.fetched url timeout = .escaped e) : e.isReported = false := by
  rcases r.course_cases with ⟨f, hfails⟩ | hnothing | ⟨body, hreads⟩
  · rw [fetched_of_fails hfails] at h
    rcases f.fetched_cases url timeout with ⟨error, he⟩ | ⟨fault, message, rfl, he⟩
    · rw [he] at h
      cases h
    · rw [he] at h
      cases h
      rfl
  · rw [fetched_of_hasNothing hnothing] at h
    cases h
  · -- a body that has been read is a result or an error, never an escape
    rw [fetched_of_reads hreads] at h
    split at h
    · cases h
    · split at h <;> cases h

theorem Reply.delivered_not_reported {r : Reply} {e : Escape} (h : r.delivered = .escaped e) :
    e.isReported = false := by
  unfold Reply.delivered at h
  split at h
  · cases h
  · rename_i failure hnot _
    cases h
    cases failure with
    | fetch error => exact absurd rfl (hnot error)
    | http fault message => rfl
    | foreign fault message => rfl
  · split at h <;> cases h

/-- What escapes from a fetch is not of the poller's own kinds. -/
theorem Link.fetched_not_reported {link : Link} {url : String} {timeout : Quantity} {r : Reply}
    {e : Escape} (h : link.fetched url timeout r = .escaped e) : e.isReported = false := by
  cases link with
  | fetcher fetches => exact Reply.delivered_not_reported h
  | given entered c => exact Reply.fetched_not_reported h
  | own past current => exact Reply.fetched_not_reported h

namespace Poller

theorem poll_not_reported {p : Poller} (h : p.link.isReady = true) {timing : Timing} {r : Reply}
    {e : Escape} (he : (p.poll timing r).outcome = .error e) : e.isReported = false := by
  cases hurl : Url.masked? p.settings.url with
  | error error =>
      rw [poll_unshown hurl h] at he
      cases he
      rfl
  | ok url =>
      rw [poll_eq hurl h] at he
      cases hfetched : p.link.fetched url p.settings.timeout r with
      | escaped escape =>
          rw [hfetched] at he
          cases he
          exact Link.fetched_not_reported hfetched
      | body body => rw [hfetched] at he; cases he
      | nothing => rw [hfetched] at he; cases he
      | failed error => rw [hfetched] at he; cases he

/-- A poll raises an error of the poller's own kinds exactly if there is nothing to fetch
through. -/
theorem poll_raises (p : Poller) (timing : Timing) (r : Reply) :
    (p.act timing (.poll r)).raises = !p.link.isReady := by
  show (match Result.polled (p.poll timing r).outcome with
    | .polled (.error e) => e.isReported
    | _ => false) = _
  cases hready : p.link.isReady with
  | false =>
      rw [poll_notReady hready]
      rfl
  | true =>
      cases houtcome : (p.poll timing r).outcome with
      | ok outcome => rfl
      | error e => exact poll_not_reported hready houtcome

/-! ## What becomes of the link -/

/-- A poll sends one request if there is something to fetch through and the address can be shown,
and changes nothing else about the link. -/
theorem poll_link (p : Poller) (timing : Timing) (r : Reply) :
    (p.poll timing r).poller.link =
      if p.link.isReady && (Url.masked? p.settings.url).isOk then p.link.note p.settings.request
      else p.link := by
  cases hready : p.link.isReady with
  | false =>
      rw [poll_notReady hready]
      rfl
  | true =>
      cases hurl : Url.masked? p.settings.url with
      | error e =>
          rw [poll_unshown hurl hready]
          rfl
      | ok url =>
          rw [poll_eq hurl hready]
          exact conclude_link p.asking url timing _

end Poller

namespace Link

def hasOpen (link : Link) : Bool := link.connections.any Connection.isOpen

/-- Connections of a poller's own in good order: the past ones have been closed once, the one at
hand has not. -/
inductive Orderly : Link → Prop where
  | idle {past : List Connection} (h : ∀ c ∈ past, c.closed = 1) : Orderly (.own past none)
  | busy {past : List Connection} {c : Connection} (h : ∀ c ∈ past, c.closed = 1)
      (hc : c.closed = 0) : Orderly (.own past (some c))

namespace Orderly

variable {link : Link}

theorem isReady_eq (h : link.Orderly) : link.isReady = link.hasOpen := by
  cases h with
  | idle h =>
      refine (List.any_eq_false.mpr fun c hc => ?_).symm
      rw [connections, Option.toList_none, List.append_nil] at hc
      simp [Connection.not_isOpen_of_closed_one (h c hc)]
  | busy h hc => simp [isReady, hasOpen, connections, Connection.isOpen_of_closed_zero hc]

theorem closed_le_one (h : link.Orderly) : ∀ c ∈ link.connections, c.closed ≤ 1 := by
  intro c hc
  cases h with
  | idle h =>
      rw [connections, Option.toList_none, List.append_nil] at hc
      exact Nat.le_of_eq (h c hc)
  | busy h hlast =>
      rw [connections, Option.toList_some, List.mem_append, List.mem_singleton] at hc
      rcases hc with hc | rfl
      · exact Nat.le_of_eq (h c hc)
      · omega

theorem one_open (h : link.Orderly) :
    (link.connections.filter Connection.isOpen).length ≤ 1 := by
  have hpast : ∀ past : List Connection, (∀ c ∈ past, c.closed = 1) →
      past.filter Connection.isOpen = [] := by
    intro past h
    refine List.filter_eq_nil_iff.mpr fun c hc => ?_
    simp [Connection.not_isOpen_of_closed_one (h c hc)]
  cases h with
  | idle h => simp [connections, hpast _ h]
  | busy h hc => simp [connections, hpast _ h, Connection.isOpen_of_closed_zero hc]

theorem enter (h : link.Orderly) :
    link.enter.Orderly ∧ link.enter.connections =
      if link.hasOpen then link.connections else link.connections ++ [.fresh] := by
  rw [← h.isReady_eq]
  cases h with
  | idle h => exact ⟨.busy h rfl, by simp [Link.enter, connections, isReady]⟩
  | busy h hc => exact ⟨.busy h hc, rfl⟩

theorem leave (h : link.Orderly) :
    link.leave.Orderly ∧ link.leave.connections = link.connections.map Connection.shut := by
  cases h with
  | idle h =>
      refine ⟨.idle h, ?_⟩
      simp [Link.leave, connections, Connection.map_shut_of_closed h]
  | @busy past c h hc =>
      refine ⟨.idle fun c' hc' => ?_, ?_⟩
      · rcases List.mem_append.mp hc' with hc' | hc'
        · exact h c' hc'
        · rw [List.mem_singleton.mp hc']
          show c.closed + 1 = 1
          omega
      · simp [Link.leave, connections, Connection.map_shut_of_closed h, Connection.shut,
          Connection.isOpen_of_closed_zero hc]

theorem note (h : link.Orderly) (request : Request) :
    (link.note request).Orderly ∧
      (link.note request).connections = link.connections.map (Connection.asked request) := by
  cases h with
  | idle h =>
      refine ⟨.idle h, ?_⟩
      simp [Link.note, connections, Connection.map_asked_of_closed h]
  | busy h hc =>
      refine ⟨.busy h hc, ?_⟩
      simp [Link.note, connections, Connection.map_asked_of_closed h, Connection.asked,
        Connection.isOpen_of_closed_zero hc]

theorem asked_of_not_ready (h : link.Orderly) (hready : link.isReady = false)
    (request : Request) :
    link.connections.map (Connection.asked request) = link.connections := by
  cases h with
  | busy h hc => cases hready
  | idle h => simp [connections, Connection.map_asked_of_closed h]

end Orderly

end Link

namespace Poller

/-! ## One action -/

/-- What an action makes of the connections of a poller that has its own. -/
def connectionsAfter (settings : Settings) (cs : List Connection) : Action → List Connection
  | .enter => if cs.any Connection.isOpen then cs else cs ++ [.fresh]
  | .leave => cs.map Connection.shut
  | .describe => cs
  | .poll _ =>
    if (Url.masked? settings.url).isOk then cs.map (Connection.asked settings.request) else cs

/-- **Step lemma**: connections of the poller's own stay in good order. -/
theorem act_connections {p : Poller} (h : p.link.Orderly) (timing : Timing) (action : Action) :
    (p.act timing action).poller.link.Orderly ∧
      (p.act timing action).poller.link.connections =
        connectionsAfter p.settings p.link.connections action := by
  cases action with
  | enter => exact h.enter
  | leave => exact h.leave
  | describe => exact ⟨h, rfl⟩
  | poll r =>
      show (p.poll timing r).poller.link.Orderly ∧ (p.poll timing r).poller.link.connections = _
      rw [poll_link, connectionsAfter]
      -- a poll whose address cannot be shown fails before it asks for anything
      cases hok : (Url.masked? p.settings.url).isOk with
      | false => simpa using h
      | true =>
          cases hready : p.link.isReady with
          | true => simpa using h.note p.settings.request
          | false =>
              have hasked := h.asked_of_not_ready hready p.settings.request
              simpa [hasked] using h

/-! ## Runs -/

theorem after_append (timing : Timing) (p : Poller) (xs ys : List Action) :
    p.after timing (xs ++ ys) = (p.after timing xs).after timing ys :=
  List.foldl_append

/-- **Run lemma**. -/
theorem after_orderly {p : Poller} (h : p.link.Orderly) (timing : Timing)
    (actions : List Action) : (p.after timing actions).link.Orderly := by
  induction actions generalizing p with
  | nil => exact h
  | cons action rest ih => exact ih (act_connections h timing action).1

/-- How often the connection with the given number has been closed. -/
def closings (p : Poller) (n : Nat) : Option Nat := p.link.connections[n]?.map Connection.closed

/-- **Step lemma** for one connection: a leave closes it if it is still open, and nothing else
does. -/
theorem act_closings {p : Poller} (h : p.link.Orderly) (timing : Timing) (action : Action)
    {n closed : Nat} (hn : p.closings n = some closed) :
    (p.act timing action).poller.closings n =
      some (if action = .leave then max closed 1 else closed) := by
  obtain ⟨c, hc, rfl⟩ := Option.map_eq_some_iff.mp hn
  unfold closings
  rw [(act_connections h timing action).2]
  cases action with
  | describe => simp [connectionsAfter, hc]
  | leave => simp [connectionsAfter, hc]
  | enter =>
      -- a new connection comes behind the others
      have hlt : n < p.link.connections.length := (List.getElem?_eq_some_iff.mp hc).1
      have hbehind : (p.link.connections ++ [.fresh])[n]? = some c := by
        rw [List.getElem?_append_left hlt, hc]
      rw [connectionsAfter]
      split <;> simp [hc, hbehind]
  | poll r =>
      rw [connectionsAfter]
      split <;> simp [hc]

theorem after_closings_open {p : Poller} (h : p.link.Orderly) (timing : Timing)
    {actions : List Action} (hactions : .leave ∉ actions) {n : Nat} (hn : p.closings n = some 0) :
    (p.after timing actions).closings n = some 0 := by
  induction actions generalizing p with
  | nil => exact hn
  | cons action rest ih =>
      have haction : action ≠ .leave := fun heq => hactions (by simp [heq])
      have hrest : .leave ∉ rest := fun hmem => hactions (List.mem_cons_of_mem _ hmem)
      have hstep := act_closings h timing action hn
      rw [if_neg haction] at hstep
      exact ih (act_connections h timing action).1 hrest hstep

theorem after_closings_closed {p : Poller} (h : p.link.Orderly) (timing : Timing)
    (actions : List Action) {n : Nat} (hn : p.closings n = some 1) :
    (p.after timing actions).closings n = some 1 := by
  induction actions generalizing p with
  | nil => exact hn
  | cons action rest ih =>
      have hstep := act_closings h timing action hn
      rw [Nat.max_self, ite_self] at hstep
      exact ih (act_connections h timing action).1 hstep

/-- The life of a connection: it is open from the entry that makes it up to the first leave, and
closed once and for all from there on. -/
theorem closings_of_life {p : Poller} (h : p.link.Orderly) (timing : Timing)
    (hnone : p.link.hasOpen = false) {between : List Action} (hbetween : .leave ∉ between)
    (later : List Action) :
    (p.after timing (.enter :: between)).closings p.link.connections.length = some 0 ∧
      (p.after timing (.enter :: between ++ .leave :: later)).closings
        p.link.connections.length = some 1 := by
  obtain ⟨hentered, hconnections⟩ := act_connections h timing .enter
  have hmade : (p.act timing .enter).poller.closings p.link.connections.length = some 0 := by
    unfold closings
    rw [hconnections, connectionsAfter, show p.link.connections.any _ = false from hnone,
      if_neg Bool.false_ne_true, List.getElem?_concat_length]
    rfl
  have hopen : (p.after timing (.enter :: between)).closings p.link.connections.length = some 0 :=
    after_closings_open hentered timing hbetween hmade
  refine ⟨hopen, ?_⟩
  have horderly : (p.after timing (.enter :: between)).link.Orderly :=
    after_orderly h timing (.enter :: between)
  have hleft := act_closings horderly timing .leave hopen
  rw [if_pos rfl] at hleft
  rw [after_append]
  exact after_closings_closed (act_connections horderly timing .leave).1 timing later hleft

/-! ## Connections and fetchers of others -/

/-- A connection that is given stays the only one, is never closed, and is used once the poller has
been entered. -/
theorem after_given {p : Poller} {entered : Bool} {c : Connection}
    (h : p.link = .given entered c) (timing : Timing) (actions : List Action) :
    ∃ c', (p.after timing actions).link = .given (entered || actions.contains .enter) c' ∧
      c'.closed = c.closed := by
  -- the flag is the part of the state that an entry sets, so it is generalised with the connection
  induction actions generalizing p entered c with
  | nil => exact ⟨c, by rw [List.contains_nil, Bool.or_false]; exact h, rfl⟩
  | cons action rest ih =>
      have hstep : ∃ c', (p.act timing action).poller.link =
          .given (entered || action == .enter) c' ∧ c'.closed = c.closed := by
        cases action with
        | enter => exact ⟨c, by simp [act, enter, h, Link.enter], rfl⟩
        | leave => exact ⟨c, by simp [act, leave, h, Link.leave], rfl⟩
        | describe => exact ⟨c, by simp [act, h], rfl⟩
        | poll r =>
            show ∃ c', (p.poll timing r).poller.link = _ ∧ _
            rw [poll_link, h]
            split
            · exact ⟨{ c with requests := c.requests ++ [p.settings.request] },
                by simp [Link.note], rfl⟩
            · exact ⟨c, by simp, rfl⟩
      obtain ⟨c₁, hlink, hclosed⟩ := hstep
      obtain ⟨c₂, hlink', hclosed'⟩ := ih hlink
      refine ⟨c₂, ?_, hclosed'.trans hclosed⟩
      show ((p.act timing action).poller.after timing rest).link = _
      rw [hlink', List.contains_cons, Bool.or_assoc, Bool.beq_comm]

theorem after_fetcher {p : Poller} {fetches : Nat} (h : p.link = .fetcher fetches)
    (timing : Timing) (actions : List Action) :
    ∃ fetches', (p.after timing actions).link = .fetcher fetches' := by
  induction actions generalizing p fetches with
  | nil => exact ⟨fetches, h⟩
  | cons action rest ih =>
      have hstep : ∃ fetches', (p.act timing action).poller.link = .fetcher fetches' := by
        cases action with
        | enter => exact ⟨fetches, by simp [act, enter, h, Link.enter]⟩
        | leave => exact ⟨fetches, by simp [act, leave, h, Link.leave]⟩
        | describe => exact ⟨fetches, by simp [act, h]⟩
        | poll r =>
            show ∃ fetches', (p.poll timing r).poller.link = _
            rw [poll_link, h]
            split
            · exact ⟨fetches + 1, rfl⟩
            · exact ⟨fetches, rfl⟩
      obtain ⟨fetches', hlink⟩ := hstep
      exact ih hlink

/-- **Connections belong to those who open them.** After any actions, of the connections that a
poller has opened itself at most one is open, and none has been closed twice. To enter opens one
exactly if none is open, to leave closes what is open, a poll sends its request over the open one
and fails exactly if there is none; so the connection that an entry makes is closed by the first
leave after it and never again. A connection that is given is never closed, and a poll fails exactly
before the first entry. With a fetcher there are no connections, and no poll fails for want of
one. -/
theorem connections_by_owner (settings : Settings) (session : Session) (timing : Timing)
    (actions : List Action) :
    (let q := after timing ⟨settings, session, .own [] none⟩ actions
      let cs := q.link.connections
      (cs.filter Connection.isOpen).length ≤ 1 ∧ (∀ c ∈ cs, c.closed ≤ 1) ∧
      (∀ action, (q.act timing action).poller.link.connections =
        connectionsAfter settings cs action) ∧
      (∀ r, (q.act timing (.poll r)).raises = !cs.any Connection.isOpen) ∧
      (∀ between later, cs.any Connection.isOpen = false → .leave ∉ between →
        (q.after timing (.enter :: between)).closings cs.length = some 0 ∧
        (q.after timing (.enter :: between ++ .leave :: later)).closings cs.length = some 1)) ∧
    (∀ c, let q := after timing ⟨settings, session, .given false c⟩ actions
      (∃ c', q.link.connections = [c'] ∧ c'.closed = c.closed) ∧
      ∀ r, (q.act timing (.poll r)).raises = !actions.contains .enter) ∧
    (∀ fetches, let q := after timing ⟨settings, session, .fetcher fetches⟩ actions
      q.link.connections = [] ∧ ∀ r, (q.poll timing r).outcome ≠ .error .notReady) := by
  refine ⟨?_, fun c => ?_, fun fetches => ?_⟩
  · intro q cs
    have horderly : q.link.Orderly := after_orderly (.idle (by simp)) timing actions
    have hsettings : q.settings = settings := after_settings timing _ actions
    refine ⟨horderly.one_open, horderly.closed_le_one, fun action => ?_, fun r => ?_, ?_⟩
    · rw [(act_connections horderly timing action).2, hsettings]
    · rw [poll_raises q timing r, horderly.isReady_eq]
      rfl
    · intro between later hnone hbetween
      exact closings_of_life horderly timing hnone hbetween later
  · intro q
    obtain ⟨c', hlink, hclosed⟩ := after_given (p := ⟨settings, session, .given false c⟩) rfl timing
      actions
    refine ⟨⟨c', ?_, hclosed⟩, fun r => ?_⟩
    · rw [show q.link = _ from hlink]
      rfl
    · rw [poll_raises q timing r, show q.link = _ from hlink, Bool.false_or]
      rfl
  · intro q
    obtain ⟨fetches', hlink⟩ := after_fetcher (p := ⟨settings, session, .fetcher fetches⟩) rfl
      timing actions
    refine ⟨?_, fun r hescape => ?_⟩
    · rw [show q.link = _ from hlink]
      rfl
    · have hready : q.link.isReady = true := by
        rw [show q.link = _ from hlink]
        rfl
      cases poll_not_reported hready hescape

/-- Entered, polled, left, entered again and left again. -/
theorem connections_by_owner_reentry :
    let p : Poller := ⟨plainSettings, idesSession, .own [] none⟩
    let poll := Action.poll (answer [0x5B])
    (p.after ⟨0, 0⟩ [.enter, poll]).closings 0 = some 0 ∧
      (p.after ⟨0, 0⟩ [.enter, poll, .leave, .enter, .leave]).closings 0 = some 1 := by
  intro p poll
  obtain ⟨⟨-, -, -, -, hlife⟩, -, -⟩ := connections_by_owner plainSettings idesSession ⟨0, 0⟩ []
  exact hlife [poll] [.enter, .leave] rfl (by decide)

end Poller

end TimetableFeed
