import TimetableFeed.Command.Run
import TimetableFeed.Proofs.Connections
import TimetableFeed.Proofs.Containment

/-!
# Polling again and again

What the command does when it polls a feed: its polls are those of a poller with which nothing else
is done, there is a pause between two of them, and each is reported. The invariant of the loop is
that all requests have gone over the one connection that was opened at the beginning. The loop stops
at the first poll that something escapes from, and the connection is closed in any case.

Main definitions: `turns`, `LoopCourse`, `RunCourse`. Main statement: `run_course`.
-/

namespace TimetableFeed.Command

variable {w : Surroundings} {o : Options} {x : Binary64} {p : Poller}

/-! ## The polls of a loop -/

/-- So many polls, from the one with the number `attempt` on. -/
def polls (w : Surroundings) (attempt count : Nat) : List Action :=
  (List.range' attempt count).map fun number => .poll (w.reply number)

/-- What a poll gives after so many others, of which the first has the number `attempt`. -/
def outcomeAfter (w : Surroundings) (p : Poller) (attempt before : Nat) : Except Escape Outcome :=
  ((p.after w.timing (polls w attempt before)).poll w.timing (w.reply (attempt + before))).outcome

/-- The polls from the one with the number `attempt` on give these outcomes. -/
def Gives (w : Surroundings) (p : Poller) (attempt : Nat) (outcomes : List Outcome) : Prop :=
  ∀ before (h : before < outcomes.length), outcomeAfter w p attempt before = .ok outcomes[before]

theorem after_polls_succ (w : Surroundings) (p : Poller) (attempt count : Nat) :
    p.after w.timing (polls w attempt (count + 1)) =
      (p.poll w.timing (w.reply attempt)).poller.after w.timing (polls w (attempt + 1) count) := by
  rw [polls, List.range'_succ]
  rfl

theorem outcomeAfter_succ (w : Surroundings) (p : Poller) (attempt before : Nat) :
    outcomeAfter w p attempt (before + 1) =
      outcomeAfter w (p.poll w.timing (w.reply attempt)).poller (attempt + 1) before := by
  unfold outcomeAfter
  rw [after_polls_succ, Nat.add_right_comm, Nat.add_assoc]

theorem gives_nil (w : Surroundings) (p : Poller) (attempt : Nat) : Gives w p attempt [] := nofun

theorem gives_cons {attempt : Nat} {outcome : Outcome} {outcomes : List Outcome}
    (hfirst : (p.poll w.timing (w.reply attempt)).outcome = .ok outcome)
    (hrest : Gives w (p.poll w.timing (w.reply attempt)).poller (attempt + 1) outcomes) :
    Gives w p attempt (outcome :: outcomes) := by
  intro before h
  cases before with
  | zero => exact hfirst
  | succ before =>
      rw [outcomeAfter_succ, List.getElem_cons_succ]
      exact hrest before (Nat.lt_of_succ_lt_succ h)

/-- Over an open connection each poll of an address that can be shown sends one request. -/
theorem polls_link {past : List Connection} {c : Connection} {shown : String}
    (hlink : p.link = .own past (some c)) (hurl : Url.masked? p.settings.url = .ok shown)
    (w : Surroundings) (attempt count : Nat) :
    (p.after w.timing (polls w attempt count)).link =
      .own past
        (some { c with requests := c.requests ++ .replicate count p.settings.request }) := by
  induction count generalizing p attempt c with
  | zero => simpa [polls, Poller.after] using hlink
  | succ count ih =>
      have hsettings : (p.poll w.timing (w.reply attempt)).poller.settings = p.settings :=
        Poller.act_settings w.timing p (.poll (w.reply attempt))
      have hstep : (p.poll w.timing (w.reply attempt)).poller.link =
          .own past (some { c with requests := c.requests ++ [p.settings.request] }) := by
        rw [Poller.poll_link, hlink, hurl]
        rfl
      rw [after_polls_succ, ih hstep (by rw [hsettings, hurl]), hsettings, List.append_assoc,
        List.replicate_succ]
      rfl

/-! ## What is seen of a loop -/

namespace Effect

def isComplaint : Effect → Bool
  | .complain _ => true
  | _ => false

/-- The length of the pause, if the effect is one. -/
def pause? : Effect → Option Binary64
  | .sleep seconds => some seconds
  | _ => none

end Effect

/-- What there is beside the standard error: the standard output and the pauses. -/
def seen (effects : List Effect) : List Effect := effects.filter fun e => !e.isComplaint

def pauses (effects : List Effect) : List Binary64 := effects.filterMap Effect.pause?

/-- The pause before the poll with the given number. -/
def pauseBefore (x : Binary64) (number : Nat) : List Effect :=
  if 1 < number ∧ x.isPositive = true then [.sleep x] else []

/-- What is seen of polls with these outcomes: a pause before each but the one with the number 1,
and its report. -/
def turns (o : Options) (x : Binary64) (attempt : Nat) : List Outcome → List Effect
  | [] => []
  | outcome :: rest =>
    pauseBefore x attempt ++ (outcome.report o.json attempt).map .print ++
      turns o x (attempt + 1) rest

theorem seen_append (xs ys : List Effect) : seen (xs ++ ys) = seen xs ++ seen ys :=
  List.filter_append xs ys

theorem seen_tell (o : Options) (log : List LogEvent) : seen (o.tell log) = [] := by
  unfold seen Options.tell
  refine List.filter_eq_nil_iff.mpr fun e he => ?_
  obtain ⟨event, -, rfl⟩ := List.mem_map.mp he
  exact Bool.false_ne_true

theorem seen_print (lines : List String) : seen (lines.map .print) = lines.map .print := by
  simp [seen, Effect.isComplaint]

theorem seen_pauseBefore (x : Binary64) (number : Nat) :
    seen (pauseBefore x number) = pauseBefore x number := by
  unfold pauseBefore
  split <;> rfl

theorem pauses_append (xs ys : List Effect) : pauses (xs ++ ys) = pauses xs ++ pauses ys :=
  List.filterMap_append

theorem pauses_print (lines : List String) : pauses (lines.map .print) = [] := by
  simp [pauses, Effect.pause?]

theorem pauses_seen (effects : List Effect) : pauses (seen effects) = pauses effects := by
  unfold pauses seen
  rw [List.filterMap_filter]
  refine List.filterMap_congr fun e _ => ?_
  cases e <;> rfl

theorem pauses_pauseBefore (x : Binary64) {number : Nat} (h : 1 < number) :
    pauses (pauseBefore x number) = if x.isPositive then [x] else [] := by
  unfold pauseBefore
  cases x.isPositive <;> simp [h, pauses, Effect.pause?]

/-- From the second poll on there is a pause before each. -/
theorem pauses_turns (o : Options) (x : Binary64) {attempt : Nat} (h : 1 < attempt)
    (outcomes : List Outcome) :
    pauses (turns o x attempt outcomes) =
      if x.isPositive then .replicate outcomes.length x else [] := by
  induction outcomes generalizing attempt with
  | nil => simp [turns, pauses]
  | cons outcome rest ih =>
      rw [turns, pauses_append, pauses_append, pauses_print, pauses_pauseBefore x h,
        ih (Nat.lt_succ_of_lt h)]
      cases x.isPositive <;> rfl

/-- From the first poll on there is one pause less. -/
theorem pauses_turns_one (o : Options) (x : Binary64) (outcomes : List Outcome) :
    pauses (turns o x 1 outcomes) =
      if x.isPositive then .replicate (outcomes.length - 1) x else [] := by
  cases outcomes with
  | nil => simp [turns, pauses]
  | cons outcome rest =>
      rw [turns, pauses_append, pauses_append, pauses_print, pauses_turns o x (by decide)]
      rfl

theorem pause_eq (h : o.interval = some x) (number : Nat) :
    pause? o number = .ok (pauseBefore x number) := by
  unfold pause? pauseBefore
  rw [h]
  by_cases hfirst : number ≤ 1
  · rw [if_pos hfirst, if_neg (by omega)]
  · simp only [if_neg hfirst, Nat.lt_of_not_le hfirst, true_and]

/-! ## The loop -/

/-- The course of so many polls from the one with the number `attempt` on: what is seen, how many
have been made, and how they end. -/
inductive LoopCourse (w : Surroundings) (o : Options) (x : Binary64) (p : Poller)
    (attempt left : Nat) : List Effect → Nat → Except Crash Unit → Prop where
  /-- Each poll gives an outcome, and is reported. -/
  | complete {outcomes : List Outcome} (gives : Gives w p attempt outcomes)
      (length : outcomes.length = left) :
      LoopCourse w o x p attempt left (turns o x attempt outcomes) left (.ok ())
  /-- Something escapes from a poll, when those before it have been reported. -/
  | escaped {outcomes : List Outcome} {e : Escape} (gives : Gives w p attempt outcomes)
      (length : outcomes.length < left)
      (escapes : outcomeAfter w p attempt outcomes.length = .error e) :
      LoopCourse w o x p attempt left
        (turns o x attempt outcomes ++ pauseBefore x (attempt + outcomes.length))
        (outcomes.length + 1) (.error (.poll e))

namespace LoopCourse

variable {attempt left made : Nat} {outcome : Outcome} {effects : List Effect}
  {ending : Except Crash Unit}

/-- A poll that gives an outcome comes before the others. -/
theorem cons (hfirst : (p.poll w.timing (w.reply attempt)).outcome = .ok outcome)
    (h : LoopCourse w o x (p.poll w.timing (w.reply attempt)).poller (attempt + 1) left effects made
      ending) :
    LoopCourse w o x p attempt (left + 1)
      (pauseBefore x attempt ++ (outcome.report o.json attempt).map .print ++ effects) (made + 1)
      ending := by
  cases h with
  | complete gives length => exact .complete (gives_cons hfirst gives) (congrArg Nat.succ length)
  | @escaped outcomes e gives length escapes =>
      have hescapes : outcomeAfter w p attempt (outcome :: outcomes).length = .error e := by
        rw [List.length_cons, outcomeAfter_succ, escapes]
      have hcourse := LoopCourse.escaped (o := o) (x := x) (gives_cons hfirst gives)
        (Nat.succ_lt_succ length) hescapes
      rw [turns, List.length_cons, ← Nat.add_assoc, Nat.add_right_comm,
        List.append_assoc] at hcourse
      exact hcourse

theorem made_le (h : LoopCourse w o x p attempt left effects made ending) : made ≤ left := by
  cases h with
  | complete gives length => exact Nat.le_refl left
  | escaped gives length escapes => exact length

/-- There are pauses between the polls that have been made, and nowhere else. -/
theorem pauses_eq (h : LoopCourse w o x p 1 left effects made ending) :
    pauses effects = if x.isPositive then .replicate (made - 1) x else [] := by
  cases h with
  | complete gives length => rw [pauses_turns_one, length]
  | @escaped outcomes e gives length escapes =>
      rw [pauses_append, pauses_turns_one, Nat.add_sub_cancel]
      cases outcomes with
      | nil => simp [pauses, pauseBefore]
      | cons outcome rest =>
          rw [pauses_pauseBefore x (by simp)]
          cases x.isPositive with
          | false => rfl
          | true => exact List.replicate_succ'.symm

end LoopCourse

/-- **Run lemma**: the loop takes one of these courses, and all it does with the poller is to
poll. -/
theorem rounds_course (hinterval : o.interval = some x) (w : Surroundings) (p : Poller)
    (attempt left : Nat) :
    let r := rounds w o p attempt left
    ∃ made, LoopCourse w o x p attempt left (seen r.effects) made r.ending ∧
      r.poller = p.after w.timing (polls w attempt made) := by
  induction left generalizing p attempt with
  | zero => exact ⟨0, .complete (gives_nil w p attempt) rfl, rfl⟩
  | succ left ih =>
      rw [rounds, pause_eq hinterval]
      dsimp only
      cases houtcome : (p.poll w.timing (w.reply attempt)).outcome with
      | error e =>
          refine ⟨1, ?_, rfl⟩
          dsimp only
          rw [seen_append, seen_pauseBefore, seen_tell, List.append_nil]
          exact .escaped (gives_nil w p attempt) (Nat.succ_pos left) houtcome
      | ok outcome =>
          obtain ⟨made, hcourse, hpoller⟩ := ih (p.poll w.timing (w.reply attempt)).poller
            (attempt + 1)
          refine ⟨made + 1, ?_, ?_⟩
          · dsimp only
            rw [seen_append, seen_append, seen_append, seen_pauseBefore, seen_tell,
              List.append_nil, seen_print]
            exact hcourse.cons houtcome
          · rw [after_polls_succ, ← hpoller]

/-! ## The run -/

/-- The course of a run that polls a feed: what is seen, how many polls have been made, and how it
ends. -/
inductive RunCourse (w : Surroundings) (o : Options) (x : Binary64) (p : Poller) (count : Nat) :
    List Effect → Nat → Except Crash Nat → Prop where
  /-- The address cannot be shown, so that nothing is done. -/
  | unshown {e : Url.Error} (fails : p.describe? = .error e) :
      RunCourse w o x p count [] 0 (.error (.poll (.url e)))
  /-- There is a title, and the polls follow; the status is nought. -/
  | shown {description : String} {effects : List Effect} {made : Nat} {ending : Except Crash Unit}
      (describes : p.describe? = .ok description)
      (course : LoopCourse w o x p 1 count effects made ending) :
      RunCourse w o x p count (.print (title description p.settings.feedId) :: effects) made
        (ending.map fun _ => 0)

namespace RunCourse

variable {count made status : Nat} {effects : List Effect} {ending : Except Crash Nat}

theorem made_le (h : RunCourse w o x p count effects made ending) : made ≤ count := by
  cases h with
  | unshown fails => exact Nat.zero_le count
  | shown describes course => exact course.made_le

theorem pauses_eq (h : RunCourse w o x p count effects made ending) :
    pauses effects = if x.isPositive then .replicate (made - 1) x else [] := by
  cases h with
  | unshown fails => simp [pauses]
  | shown describes course => exact course.pauses_eq

/-- Where nothing escapes, all polls have been made. -/
theorem of_status (h : RunCourse w o x p count effects made (.ok status)) :
    status = 0 ∧ made = count := by
  generalize hending : Except.ok status = ending at h
  cases h with
  | unshown fails => cases hending
  | shown describes course =>
      cases course with
      | complete gives length =>
          cases hending
          exact ⟨rfl, rfl⟩
      | escaped gives length escapes => cases hending

end RunCourse

theorem visit_course {count : Int} {past : List Connection} {c : Connection}
    (hcount : o.count = some count) (hinterval : o.interval = some x)
    (hlink : p.link = .own past (some c)) (w : Surroundings) :
    let r := visit w o p
    ∃ made, RunCourse w o x p count.toNat (seen r.effects) made (r.ending.map fun _ => 0) ∧
      r.poller.link = .own past
        (some { c with requests := c.requests ++ .replicate made p.settings.request }) := by
  unfold visit
  cases hdescribe : p.describe? with
  | error e =>
      refine ⟨0, .unshown hdescribe, ?_⟩
      dsimp only
      rw [List.replicate_zero, List.append_nil]
      exact hlink
  | ok description =>
      obtain ⟨shown, hurl⟩ := (p.describe_returns_iff).mp ⟨description, hdescribe⟩
      obtain ⟨made, hcourse, hpoller⟩ := rounds_course hinterval w p 1 count.toNat
      simp only [hcount]
      refine ⟨made, .shown hdescribe hcourse, ?_⟩
      rw [hpoller, polls_link hlink hurl]

/-- **The course of polling a feed**, for all arguments that ask for it, wherever there are settings
and a poller can be started. If the address cannot be shown, the run ends before anything is done.
Else each poll is reported in its turn, with the given pause between two if it is more than nought;
the run ends with the first poll that something escapes from, or after as many as were asked for,
and then with the status nought whatever they gave. One connection is opened, each poll sends one
request to the address over it, and it is closed once. -/
theorem run_course {arguments : List String} {count : Int} {settings : Settings}
    (hoptions : Options.read? arguments = .ok o) (hfile : o.file = "")
    (hcount : o.count = some count) (hinterval : o.interval = some x)
    (hsettings : Settings.ofEnvironment? w.environment o.overrides = .ok settings)
    (hstart : Poller.start? settings (.own [] none) w.now = .ok p) :
    let r := run w arguments
    ∃ made c, RunCourse w o x p.enter count.toNat (seen r.effects) made r.ending ∧
      made ≤ count.toNat ∧ (∀ status, r.ending = .ok status → status = 0 ∧ made = count.toNat) ∧
      pauses r.effects = (if x.isPositive then .replicate (made - 1) x else []) ∧
      r.connections = [c] ∧ c.closed = 1 ∧
      c.requests.map Request.url = .replicate made settings.url := by
  obtain ⟨hsame, -⟩ := Poller.start_eq hstart
  have hentered : p.enter.link = .own [] (some .fresh) := by
    show p.link.enter = _
    rw [Poller.start_link hstart]
    rfl
  obtain ⟨made, hcourse, hleft⟩ := visit_course hcount hinterval hentered w
  have hrun : run w arguments = ⟨(visit w o p.enter).effects,
      (visit w o p.enter).poller.leave.link.connections,
      (visit w o p.enter).ending.map fun _ => 0⟩ := by
    unfold run pollFeed
    simp only [hoptions, hfile, hsettings, hstart]
    rfl
  intro r
  have hr : r = _ := hrun
  have hconnections : r.connections = [⟨.replicate made settings.request, 1⟩] := by
    rw [hr]
    show (visit w o p.enter).poller.link.leave.connections = _
    rw [hleft, show p.enter.settings = settings from hsame]
    rfl
  have hcourse : RunCourse w o x p.enter count.toNat (seen r.effects) made r.ending := by
    rw [hr]
    exact hcourse
  refine ⟨made, _, hcourse, hcourse.made_le, fun status hstatus => ?_, ?_, hconnections, rfl, ?_⟩
  · rw [hstatus] at hcourse
    exact hcourse.of_status
  · rw [← pauses_seen, hcourse.pauses_eq]
  · rw [List.map_replicate]
    rfl

open Poller (answer emptyFeed ides plainSettings) in
/-- A delivery, then nothing, then an error that has nothing to do with the exchange. -/
def failingThird : Surroundings where
  environment name := if name = "SIRI_URL" then some plainSettings.url else none
  files _ := .error .missing
  now := ides
  timing := ⟨0, 0⟩
  reply
    | 1 => answer (emptyFeed "2023-03-15T10:00Z")
    | 2 => .noContent
    | _ => ⟨some (.foreign .runtime "gone"), 0, none, none⟩

open Poller (idesSession plainSettings) in
theorem run_course_third :
    let half : Binary64 := .finite false 4503599627370496 1021
    let r := run failingThird ["--count", "4", "--interval", "0.5"]
    r.ending = .error (.poll (.failure (.foreign .runtime "gone"))) ∧
      pauses r.effects = [half, half] ∧
      ∃ c, r.connections = [c] ∧ c.closed = 1 ∧ c.requests.map Request.url = ["x", "x", "x"] := by
  intro half r
  have hoptions : Options.read? ["--count", "4", "--interval", "0.5"] =
      .ok ⟨"", "", some 4, some half, false, "", false⟩ := toOption_eq_some.mp (by decide +kernel)
  have hsettings : Settings.ofEnvironment? failingThird.environment
      (Options.overrides ⟨"", "", some 4, some half, false, "", false⟩) = .ok plainSettings :=
    toOption_eq_some.mp (by decide +kernel)
  have hstart : Poller.start? plainSettings (.own [] none) failingThird.now =
      .ok ⟨plainSettings, idesSession, .own [] none⟩ := toOption_eq_some.mp (by decide +kernel)
  obtain ⟨made, c, -, -, -, hpauses, hconnections, hclosed, hrequests⟩ :=
    run_course hoptions rfl rfl rfl hsettings hstart
  have hthree : r.connections.map (·.requests.length) = [3] := by decide +kernel
  have hmade : made = 3 := by
    have hlength := congrArg List.length hrequests
    rw [List.length_map, List.length_replicate] at hlength
    rw [show r.connections = [c] from hconnections, List.map_singleton, hlength] at hthree
    exact List.singleton_inj.mp hthree
  subst hmade
  have hending : r.ending = .error (.poll (.failure (.foreign .runtime "gone"))) := by
    decide +kernel
  exact ⟨hending, hpauses, c, hconnections, hclosed, hrequests⟩

end TimetableFeed.Command
