import TimetableFeed.Feed.Gate

/-!
# Runs of the staleness gate

What the gate does with a sequence of snapshots, told by the instants of all the snapshots that it
has been shown. The invariant: the last timestamp of the session denotes the latest instant seen so
far, of the stale snapshots too, since a snapshot is refused only where an accepted one is later.

Main statement: `run_by_instants`.
-/

namespace TimetableFeed.Gate

/-- The latest instant among those of a session and of some snapshots. -/
def latest (s : Session) (ts : List Timestamp) : Int :=
  (ts.map Timestamp.instant).foldl max s.lastTimestamp.instant

/-- The mode once the decisions have been made: a single accepted snapshot switches it. -/
def modeAfter (s : Session) (ds : List Decision) : DatasetMode :=
  if ds.any Decision.accepted then .incremental else s.mode

/-- What a decision says of a snapshot, apart from the session that it leads to. -/
def Decision.verdict (d : Decision) : Bool × DatasetMode := (d.accepted, d.mode)

/-- Two sessions that the gate cannot tell apart: the timestamps may differ in their offsets. -/
def Alike (s s' : Session) : Prop :=
  s'.lastTimestamp.instant = s.lastTimestamp.instant ∧ s'.mode = s.mode

/-! ## One decision -/

theorem judge_accepted (s : Session) (t : Timestamp) :
    (judge s t).accepted = true ↔ s.lastTimestamp.instant ≤ t.instant := by
  unfold judge
  by_cases h : t.instant < s.lastTimestamp.instant
  · rw [if_pos h]
    simpa using h
  · rw [if_neg h]
    simpa using h

@[simp] theorem judge_mode (s : Session) (t : Timestamp) : (judge s t).mode = s.mode := by
  unfold judge
  split <;> rfl

theorem judge_rejected {s : Session} {t : Timestamp} (h : (judge s t).accepted = false) :
    (judge s t).session = s := by
  unfold judge at h ⊢
  split at h
  · rename_i hlt
    rw [if_pos hlt]
  · exact Bool.noConfusion h

theorem judge_session_of_accepted {s : Session} {t : Timestamp}
    (h : (judge s t).accepted = true) : (judge s t).session = ⟨t, .incremental⟩ := by
  unfold judge at h ⊢
  split at h
  · exact Bool.noConfusion h
  · rename_i hle
    rw [if_neg hle]

/-- Either way the session moves to the later of the two instants. -/
theorem judge_instant (s : Session) (t : Timestamp) :
    (judge s t).session.lastTimestamp.instant = max s.lastTimestamp.instant t.instant := by
  cases h : (judge s t).accepted with
  | true =>
      have hle := (judge_accepted s t).mp h
      rw [judge_session_of_accepted h]
      show t.instant = _
      omega
  | false =>
      -- a refused snapshot is older, so the latest instant stays where it is
      have hlt : ¬ s.lastTimestamp.instant ≤ t.instant := by
        rw [← judge_accepted, h]
        exact Bool.false_ne_true
      rw [judge_rejected h]
      omega

theorem judge_session_mode (s : Session) (t : Timestamp) :
    (judge s t).session.mode = modeAfter s [judge s t] := by
  cases h : (judge s t).accepted with
  | true =>
      rw [judge_session_of_accepted h]
      simp [modeAfter, h]
  | false =>
      rw [judge_rejected h]
      simp [modeAfter, h]

/-! ## Runs -/

theorem final_append (s : Session) (xs ys : List Timestamp) :
    final s (xs ++ ys) = final (final s xs) ys :=
  List.foldl_append

theorem run_append (s : Session) (xs ys : List Timestamp) :
    run s (xs ++ ys) = run s xs ++ run (final s xs) ys := by
  induction xs generalizing s with
  | nil => rfl
  | cons x rest ih =>
      show judge s x :: run (judge s x).session (rest ++ ys) = _
      rw [ih]
      rfl

theorem run_length (s : Session) (ts : List Timestamp) : (run s ts).length = ts.length := by
  induction ts generalizing s with
  | nil => rfl
  | cons t rest ih => simp only [run, List.length_cons, ih]

/-- The decision on a snapshot is made in the session that the snapshots before it lead to. -/
theorem run_getElem (s : Session) (before : List Timestamp) (t : Timestamp)
    (after : List Timestamp) :
    (run s (before ++ t :: after))[before.length]? = some (judge (final s before) t) := by
  rw [run_append, List.getElem?_append_right (Nat.le_of_eq (run_length s before)), run_length,
    Nat.sub_self]
  rfl

/-- **The invariant**: the session stands at the latest instant seen. -/
theorem final_instant (s : Session) (ts : List Timestamp) :
    (final s ts).lastTimestamp.instant = latest s ts := by
  induction ts generalizing s with
  | nil => rfl
  | cons t rest ih =>
      show (final (judge s t).session rest).lastTimestamp.instant = _
      rw [ih]
      unfold latest
      rw [judge_instant]
      rfl

theorem modeAfter_cons (s : Session) (t : Timestamp) (ds : List Decision) :
    modeAfter s (judge s t :: ds) = modeAfter (judge s t).session ds := by
  rw [modeAfter, modeAfter, judge_session_mode, modeAfter]
  cases h : (judge s t).accepted <;> simp [h]

theorem final_mode (s : Session) (ts : List Timestamp) :
    (final s ts).mode = modeAfter s (run s ts) := by
  induction ts generalizing s with
  | nil => rfl
  | cons t rest ih =>
      show (final (judge s t).session rest).mode = modeAfter s (judge s t :: run _ rest)
      rw [ih, modeAfter_cons]

theorem latest_perm {xs ys : List Timestamp} (h : xs.Perm ys) (s : Session) :
    latest s xs = latest s ys := by
  unfold latest
  refine (h.map Timestamp.instant).foldl_eq' ?_ _
  intro x _ y _ z
  omega

/-! ## Offsets do not count -/

theorem judge_alike {s s' : Session} {t t' : Timestamp} (hs : Alike s s')
    (ht : t'.instant = t.instant) :
    (judge s' t').verdict = (judge s t).verdict ∧
      Alike (judge s t).session (judge s' t').session := by
  obtain ⟨hinstant, hmode⟩ := hs
  unfold judge
  rw [ht, hinstant]
  split
  · exact ⟨by simp only [Decision.verdict, hmode], hinstant, hmode⟩
  · exact ⟨by simp only [Decision.verdict, hmode], ht, rfl⟩

theorem run_alike {ts : List Timestamp} : ∀ {ts' : List Timestamp} {s s' : Session},
    Alike s s' → ts'.map Timestamp.instant = ts.map Timestamp.instant →
      (run s' ts').map Decision.verdict = (run s ts).map Decision.verdict := by
  induction ts with
  | nil =>
      intro ts' s s' _ h
      rw [List.map_eq_nil_iff.mp h]
      rfl
  | cons t rest ih =>
      intro ts' s s' hs h
      obtain ⟨t', rest', rfl, ht, hrest⟩ := List.map_eq_cons_iff.mp h
      obtain ⟨hverdict, hnext⟩ := judge_alike hs ht
      simp only [run, List.map_cons, hverdict, ih hnext hrest]

/-! ## Runs by instants -/

/-- **A run of the gate, told by all the instants that it has been shown.** A snapshot is accepted
if and only if it is not older than the session at the start or any snapshot before it, accepted or
not. The first accepted snapshot has the mode of the session at the start, the later ones are
incremental; a refused one leaves the session as it was. -/
theorem run_by_instants (s : Session) (ts : List Timestamp) :
    (run s ts).length = ts.length ∧
    (∀ before t after, ts = before ++ t :: after →
      ∃ d, (run s ts)[before.length]? = some d ∧
        (d.accepted = true ↔ latest s before ≤ t.instant) ∧
        d.mode = modeAfter s (run s before) ∧
        (d.accepted = true → d.session = ⟨t, .incremental⟩) ∧
        (d.accepted = false → d.session = final s before) ∧
        d.session = final s (before ++ [t])) ∧
    (final s ts).lastTimestamp.instant = latest s ts ∧
    (∀ ts', ts'.Perm ts →
      (final s ts').lastTimestamp.instant = (final s ts).lastTimestamp.instant) ∧
    (final s ts).mode = modeAfter s (run s ts) ∧
    (∀ s' ts', Alike s s' → ts'.map Timestamp.instant = ts.map Timestamp.instant →
      (run s' ts').map Decision.verdict = (run s ts).map Decision.verdict) := by
  refine ⟨run_length s ts, ?_, final_instant s ts, ?_, final_mode s ts, ?_⟩
  · rintro before t after rfl
    refine ⟨judge (final s before) t, run_getElem s before t after, ?_, ?_, ?_, ?_, ?_⟩
    · rw [judge_accepted, final_instant]
    · rw [judge_mode, final_mode]
    · exact judge_session_of_accepted
    · exact judge_rejected
    · rw [final_append]
      rfl
  · intro ts' h
    rw [final_instant, final_instant, latest_perm h]
  · intro s' ts' hs hts
    exact run_alike hs hts

/-! ## The ends of the calendar -/

def minutesAhead (n : Int) (h : -1440 < n ∧ n < 1440) : Offset :=
  ⟨n * 60000000, by unfold dayMicros; omega, by unfold dayMicros; omega⟩

/-- On the first day of the calendar, so many minutes after midnight. -/
def firstDay (minute : Nat) (offset : Offset) : Timestamp :=
  ⟨⟨⟨1, 1, 1, by decide, by decide, by decide⟩, .ofMicros (minute * 60000000)⟩, offset⟩

/-- On the last day of the calendar, so many minutes after midnight. -/
def lastDay (minute : Nat) (offset : Offset) : Timestamp :=
  ⟨⟨⟨9999, 12, 31, by decide, by decide, by decide⟩, .ofMicros (minute * 60000000)⟩, offset⟩

/-- A snapshot from before the calendar of UTC, one from after it, and the first one again. -/
def beyondCalendar (ahead behind : Offset) (minute : Nat) : List Timestamp :=
  [firstDay minute ahead, lastDay (1439 - minute) behind, firstDay minute ahead]

/-- Instants that no clock of UTC shows, each by two clocks: the gate judges both alike. -/
theorem run_by_instants_beyond_calendar :
    let s : Session := ⟨firstDay 0 (minutesAhead 1438 (by decide)), .full⟩
    let s' : Session := ⟨firstDay 1 (minutesAhead 1439 (by decide)), .full⟩
    let ts := beyondCalendar (minutesAhead 1438 (by decide)) (minutesAhead (-1438) (by decide)) 0
    let ts' := beyondCalendar (minutesAhead 1439 (by decide)) (minutesAhead (-1439) (by decide)) 1
    Alike s s' ∧ ts'.map Timestamp.instant = ts.map Timestamp.instant ∧ ts.reverse.Perm ts ∧
      (run s' ts').map Decision.verdict = (run s ts).map Decision.verdict ∧
      (run s ts).map Decision.verdict =
        [(true, .full), (true, .incremental), (false, .incremental)] ∧
      (final s ts.reverse).lastTimestamp.instant = (final s ts).lastTimestamp.instant ∧
      (∃ d, (run s ts)[2]? = some d ∧ d.session = final s (ts.take 2)) := by
  intro s s' ts ts'
  have hs : Alike s s' := ⟨by decide, by decide⟩
  have hts : ts'.map Timestamp.instant = ts.map Timestamp.instant := by decide
  have hperm : ts.reverse.Perm ts := List.reverse_perm ts
  obtain ⟨-, hjudged, -, horder, -, hoffsets⟩ := run_by_instants s ts
  obtain ⟨d, hd, -, -, -, hrefused, -⟩ := hjudged (ts.take 2) _ [] rfl
  have hstale : d.accepted = false := by
    have : (run s ts)[2]?.map Decision.accepted = some false := by decide
    rw [show (run s ts)[2]? = some d from hd] at this
    exact Option.some.inj this
  exact ⟨hs, hts, hperm, hoffsets s' ts' hs hts, by decide, horder _ hperm, d, hd,
    hrefused hstale⟩

end TimetableFeed.Gate
