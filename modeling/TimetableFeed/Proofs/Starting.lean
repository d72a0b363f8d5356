import TimetableFeed.Proofs.BuiltSettings
import TimetableFeed.Proofs.Calendar
import TimetableFeed.Proofs.PollerRuns

/-!
# Starting a poller

A new poller remembers a snapshot that it never saw, as old as the lookback says. That takes the
clock on the wall back by the lookback, and there is no local time before the year 1: a lookback
that leads there passes the checks of the settings, but no poller starts with it. Every other
lookback is taken exactly.

Main statement: `Poller.starts_iff_in_calendar`.
-/

namespace TimetableFeed

namespace Session

/-- A session starts at the local time that is the lookback back, with the offset of the clock. -/
theorem start_of_offset {now : Moment} {offset : Offset} (haware : now.offset? = some offset)
    (lookback : Duration) :
    start? now lookback =
      match LocalTime.ofMicros? (now.wall.micros - lookback.micros) with
      | none => .error .outOfRange
      | some wall => .ok ⟨⟨wall, offset⟩, .full⟩ := by
  unfold start?
  rw [haware]
  cases LocalTime.ofMicros? (now.wall.micros - lookback.micros) with
  | none => rfl
  | some wall => rfl

theorem start_before_calendar {now : Moment} {offset : Offset}
    (haware : now.offset? = some offset) {lookback : Duration}
    (hbefore : now.wall.micros < lookback.micros) :
    start? now lookback = .error .outOfRange := by
  rw [start_of_offset haware, LocalTime.ofMicros_of_neg (by omega)]

/-- A lookback that is not negative and stays in the calendar is taken exactly. -/
theorem start_in_calendar {now : Moment} {offset : Offset} (haware : now.offset? = some offset)
    {lookback : Duration} (hback : 0 ≤ lookback.micros)
    (hinside : lookback.micros ≤ now.wall.micros) :
    ∃ wall : LocalTime, wall.micros = now.wall.micros - lookback.micros ∧
      start? now lookback = .ok ⟨⟨wall, offset⟩, .full⟩ := by
  have hlast := now.wall.micros_bounds.2
  have hlow : 0 ≤ now.wall.micros - lookback.micros := by omega
  have hhigh : now.wall.micros - lookback.micros < lastOrdinal * dayMicros := by omega
  obtain ⟨wall, hwall, hmicros⟩ := LocalTime.exists_ofMicros hlow hhigh
  refine ⟨wall, hmicros, ?_⟩
  rw [start_of_offset haware, hwall]

end Session

namespace Poller

theorem start_of_session {settings : Settings} {now : Moment} {session : Session}
    (h : Session.start? now settings.lookback = .ok session) (link : Link) :
    start? settings link now = .ok ⟨settings, session, link⟩ := by
  unfold start?
  rw [h]
  rfl

theorem start_of_error {settings : Settings} {now : Moment} {e : SessionError}
    (h : Session.start? now settings.lookback = .error e) (link : Link) :
    start? settings link now = .error e := by
  unfold start?
  rw [h]
  rfl

/-- **When a poller starts.** With settings that have been built and a clock that knows its offset,
a poller starts if and only if the lookback does not lead out of the calendar, by the clock on the
wall. Then its first snapshot is to be full, and the timestamp that it remembers is the clock's, the
lookback before. Otherwise it fails as out of range, whatever it was to fetch through. -/
theorem starts_iff_in_calendar {settings : Settings} (hbuilt : settings.Built) {now : Moment}
    {offset : Offset} (haware : now.offset? = some offset) (link : Link) :
    ((∃ p, start? settings link now = .ok p) ↔ settings.lookback.micros ≤ now.wall.micros) ∧
      (∀ p, start? settings link now = .ok p →
        p.settings = settings ∧ p.link = link ∧ p.session.mode = .full ∧
          p.session.lastTimestamp.offset = offset ∧
          p.session.lastTimestamp.instant =
            Timestamp.instant ⟨now.wall, offset⟩ - settings.lookback.micros) ∧
      ∀ e, start? settings link now = .error e → e = .outOfRange := by
  have hback := (Settings.built_iff_passes.mp hbuilt).lookback
  rcases Int.lt_or_le now.wall.micros settings.lookback.micros with hbefore | hinside
  · have hfails := start_of_error (Session.start_before_calendar haware hbefore) link
    rw [hfails]
    refine ⟨iff_of_false ?_ (Int.not_le.mpr hbefore), ?_, ?_⟩
    · rintro ⟨p, hp⟩
      cases hp
    · intro p hp
      cases hp
    · intro e he
      exact (Except.error.inj he).symm
  · obtain ⟨wall, hmicros, hsession⟩ := Session.start_in_calendar haware hback hinside
    have hstarts := start_of_session hsession link
    rw [hstarts]
    refine ⟨iff_of_true ⟨_, rfl⟩ hinside, ?_, ?_⟩
    · intro p hp
      cases hp
      refine ⟨rfl, rfl, rfl, rfl, ?_⟩
      show wall.micros - offset.micros = now.wall.micros - offset.micros - settings.lookback.micros
      omega
    · intro e he
      cases he

/-- A minute into the calendar, by a clock half a day behind UTC. -/
def calendarMorning : Moment :=
  ⟨(Gate.firstDay 1 .utc).wall, some ⟨-43200000000, by decide, by decide⟩⟩

def minuteSettings : Settings :=
  ⟨"x", none, Settings.defaultTimeout, ⟨60000000, by decide, by decide⟩⟩

/-- A lookback that leads to the very beginning of the calendar. -/
theorem starts_iff_in_calendar_beginning :
    minuteSettings.Built ∧ (∃ offset, calendarMorning.offset? = some offset) ∧
      ∃ p, start? minuteSettings (.fetcher 0) calendarMorning = .ok p ∧
        p.session.mode = .full ∧ p.session.lastTimestamp.instant = 43200000000 := by
  have hbuilt : minuteSettings.Built :=
    Settings.built_iff_passes.mpr ⟨by decide, by decide +kernel, by decide⟩
  have haware : calendarMorning.offset? = some ⟨-43200000000, by decide, by decide⟩ := rfl
  obtain ⟨hiff, hexact, -⟩ := starts_iff_in_calendar hbuilt haware (.fetcher 0)
  obtain ⟨p, hp⟩ := hiff.mpr (by decide)
  obtain ⟨-, -, hmode, -, hinstant⟩ := hexact p hp
  refine ⟨hbuilt, ⟨_, haware⟩, p, hp, hmode, ?_⟩
  rw [hinstant]
  decide

def longLookback : Duration := ⟨800000 * dayMicros, by decide, by decide⟩

/-- Settings with a lookback of eight hundred thousand days can be built, and no poller starts with
them in the year 2023; nor does one with a lookback of thirty hours on the second day of the
calendar, half a day behind UTC, although the instant that it would remember lies in the
calendar. -/
theorem built_not_started :
    let long : Settings := ⟨"http://x", none, Settings.defaultTimeout, longLookback⟩
    let short : Settings :=
      ⟨"http://x", none, Settings.defaultTimeout, ⟨108000000000, by decide, by decide⟩⟩
    let now : Moment := ⟨⟨⟨1, 1, 2, by decide, by decide, by decide⟩, .ofMicros 0⟩,
      some ⟨-43200000000, by decide, by decide⟩⟩
    Settings.ofEnvironment? (fun name =>
      if name = "SIRI_URL" then some "http://x"
      else if name = "SIRI_INITIAL_LOOKBACK_DAYS" then some "800000" else none) .none = .ok long ∧
      (∀ link, start? long link ides = .error .outOfRange) ∧ short.Built ∧
      (∀ link, start? short link now = .error .outOfRange) := by
  intro long short now
  have haware : ides.offset? = some .utc := rfl
  have hlong : Session.start? ides long.lookback = .error .outOfRange :=
    Session.start_before_calendar haware (by decide)
  have hshort : Session.start? now short.lookback = .error .outOfRange :=
    Session.start_before_calendar rfl (by decide)
  refine ⟨toOption_eq_some.mp (by decide +kernel), start_of_error hlong, ?_, start_of_error hshort⟩
  exact Settings.built_iff_passes.mpr ⟨by decide, by decide +kernel, by decide⟩

end Poller

end TimetableFeed
