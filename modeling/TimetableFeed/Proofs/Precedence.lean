import TimetableFeed.Proofs.Decoding
import TimetableFeed.Proofs.SchemaOrder

/-!
# Which error comes first

A document may have any number of faults, but decoding tells of one. Any node of a wrong type comes
before all that is missing or unreadable, and among these nodes the first in the order of the
schema; then the root and the service delivery; then the checks of the texts in their order.

Main definition: `Blame.PointsAt`. Main statement: `decode_error_is_first`.
-/

namespace TimetableFeed

/-! ## What the error blames -/

namespace Path

def itemOf (f : Field) (i : Nat) : Path := [.key f.camel, .index i]

/-- The path leads to an item of an array of the name. -/
def Enters (path : Path) (f : Field) : Prop :=
  ∃ (front rest : Path) (i : Nat), path = front ++ itemOf f i ++ rest

/-- The last such item on the path has the index `i`; `inner` is the path inside it. -/
structure EntersLast (path : Path) (f : Field) (i : Nat) (inner : Path) : Prop where
  split : ∃ front : Path, path = front ++ itemOf f i ++ inner
  last : ¬ inner.Enters f

theorem not_enters_nil (f : Field) : ¬ Enters [] f := by
  rintro ⟨front, rest, i, h⟩
  cases front <;> cases h

theorem enters_cons (step : PathStep) (rest : Path) (f : Field) :
    Enters (step :: rest) f ↔
      (step = .key f.camel ∧ ∃ i tail, rest = .index i :: tail) ∨ Enters rest f := by
  constructor
  · rintro ⟨front, tail, i, h⟩
    cases front with
    | nil =>
        cases h
        exact Or.inl ⟨rfl, i, tail, rfl⟩
    | cons first front =>
        cases h
        exact Or.inr ⟨front, tail, i, rfl⟩
  · rintro (⟨rfl, i, tail, rfl⟩ | ⟨front, tail, i, rfl⟩)
    · exact ⟨[], tail, i, rfl⟩
    · exact ⟨step :: front, tail, i, rfl⟩

theorem EntersLast.cons {path inner : Path} {f : Field} {i : Nat}
    (h : EntersLast path f i inner) (step : PathStep) : EntersLast (step :: path) f i inner := by
  obtain ⟨⟨front, rfl⟩, hlast⟩ := h
  exact ⟨⟨step :: front, rfl⟩, hlast⟩

/-- Looking along a path finds the last journey that it leads into, if there is one, and the part of
the path inside it. -/
theorem locateFrom_journey (found : Location) (path : Path) :
    (¬ path.Enters .estimatedTimetableDelivery ∧
      (locateFrom found path).journey? = found.journey? ∧
      (locateFrom found path).inner = found.inner) ∨
    ∃ i, path.EntersLast .estimatedTimetableDelivery i (locateFrom found path).inner ∧
      (locateFrom found path).journey? = some i := by
  fun_induction locateFrom found path with
  | case1 found i rest ih =>
      rcases ih with ⟨hrest, hjourney, hinner⟩ | ⟨j, hlast, hjourney⟩
      · -- no journey behind this one
        rw [hjourney, hinner]
        exact Or.inr ⟨i, ⟨⟨[], rfl⟩, hrest⟩, rfl⟩
      · exact Or.inr ⟨j, (hlast.cons _).cons _, hjourney⟩
  | case2 found i rest hname ih =>
      rcases ih with ⟨hrest, hjourney, hinner⟩ | ⟨j, hlast, hjourney⟩
      · exact Or.inl ⟨by simp [enters_cons, hname, hrest], hjourney, hinner⟩
      · exact Or.inr ⟨j, (hlast.cons _).cons _, hjourney⟩
  | case3 found name i rest hname hname' ih =>
      rcases ih with ⟨hrest, hjourney, hinner⟩ | ⟨j, hlast, hjourney⟩
      · exact Or.inl ⟨by simp [enters_cons, hname, hrest], hjourney, hinner⟩
      · exact Or.inr ⟨j, (hlast.cons _).cons _, hjourney⟩
  | case4 found step rest hstep ih =>
      rcases ih with ⟨hrest, hjourney, hinner⟩ | ⟨j, hlast, hjourney⟩
      · refine Or.inl ⟨?_, hjourney, hinner⟩
        rw [enters_cons]
        rintro (⟨hkey, i, tail, htail⟩ | hrest')
        · exact hstep _ i tail hkey htail
        · exact hrest hrest'
      · exact Or.inr ⟨j, hlast.cons _, hjourney⟩
  | case5 found => exact Or.inl ⟨not_enters_nil _, rfl, rfl⟩

/-- The same for calls, the inner path of which is not kept. -/
theorem locateFrom_call (found : Location) (path : Path) :
    (¬ path.Enters .estimatedCall ∧ (locateFrom found path).call? = found.call?) ∨
    ∃ i rest, path.EntersLast .estimatedCall i rest ∧
      (locateFrom found path).call? = some i := by
  fun_induction locateFrom found path with
  | case1 found i rest ih =>
      rcases ih with ⟨hrest, hcall⟩ | ⟨j, tail, hlast, hcall⟩
      · have hname : Field.estimatedTimetableDelivery.camel ≠ Field.estimatedCall.camel := by decide
        exact Or.inl ⟨by simp [enters_cons, hname, hrest], hcall⟩
      · exact Or.inr ⟨j, tail, (hlast.cons _).cons _, hcall⟩
  | case2 found i rest hname ih =>
      rcases ih with ⟨hrest, hcall⟩ | ⟨j, tail, hlast, hcall⟩
      · exact Or.inr ⟨i, rest, ⟨⟨[], rfl⟩, hrest⟩, hcall⟩
      · exact Or.inr ⟨j, tail, (hlast.cons _).cons _, hcall⟩
  | case3 found name i rest hname hname' ih =>
      rcases ih with ⟨hrest, hcall⟩ | ⟨j, tail, hlast, hcall⟩
      · exact Or.inl ⟨by simp [enters_cons, hname', hrest], hcall⟩
      · exact Or.inr ⟨j, tail, (hlast.cons _).cons _, hcall⟩
  | case4 found step rest hstep ih =>
      rcases ih with ⟨hrest, hcall⟩ | ⟨j, tail, hlast, hcall⟩
      · refine Or.inl ⟨?_, hcall⟩
        rw [enters_cons]
        rintro (⟨hkey, i, tail, htail⟩ | hrest')
        · exact hstep _ i tail hkey htail
        · exact hrest hrest'
      · exact Or.inr ⟨j, tail, hlast.cons _, hcall⟩
  | case5 found => exact Or.inl ⟨not_enters_nil _, rfl⟩

/-- The path as the name of a node; the root has none. -/
def label? (path : Path) : Option String := if path.write = "" then none else some path.write

end Path

/-- The blame points at the node that the path leads to: by the index of the journey and the path
inside it, or by the whole path if it leads into no journey; and it knows the index of the call. -/
structure Blame.PointsAt (b : Blame) (path : Path) : Prop where
  field : (¬ path.Enters .estimatedTimetableDelivery ∧ b.journey? = none ∧ b.field? = path.label?) ∨
    ∃ (i : Nat) (inner : Path), path.EntersLast .estimatedTimetableDelivery i inner ∧
      b.journey? = some (i : Int) ∧ b.field? = inner.label?
  call : (¬ path.Enters .estimatedCall ∧ b.call? = none) ∨
    ∃ (i : Nat) (rest : Path), path.EntersLast .estimatedCall i rest ∧ b.call? = some (i : Int)

theorem wrongType_blame (m : Mismatch) : (DecodeError.wrongType m).blame.PointsAt m.path := by
  constructor
  · rcases Path.locateFrom_journey ⟨none, none, m.path⟩ m.path with
      ⟨hpath, hjourney, hinner⟩ | ⟨i, hlast, hjourney⟩
    · refine Or.inl ⟨hpath, ?_, ?_⟩
      · simp only [DecodeError.blame, Path.locate, hjourney, Option.map_none]
      · simp only [DecodeError.blame, Path.locate, hinner, Path.label?]
    · refine Or.inr ⟨i, _, hlast, ?_, rfl⟩
      simp only [DecodeError.blame, Path.locate, hjourney, Option.map_some, Int.ofNat_eq_natCast]
  · rcases Path.locateFrom_call ⟨none, none, m.path⟩ m.path with
      ⟨hpath, hcall⟩ | ⟨i, rest, hlast, hcall⟩
    · refine Or.inl ⟨hpath, ?_⟩
      simp only [DecodeError.blame, Path.locate, hcall, Option.map_none]
    · refine Or.inr ⟨i, rest, hlast, ?_⟩
      simp only [DecodeError.blame, Path.locate, hcall, Option.map_some, Int.ofNat_eq_natCast]

/-! ## The first fault -/

theorem decode_fails_iff {bytes : List UInt8} {json : Json}
    (h : Json.read? bodyLimits bytes = .ok json) (e : DecodeError) :
    decode? bytes = .error e ↔ json.faults.head? = some e :=
  (decode_judged h).fails_iff e

namespace Json

theorem faults_of_misfits {json : Json} {m : Mismatch} {rest : List Mismatch}
    (h : Shape.document.misfits [] json = m :: rest) :
    json.faults.head? = some (.wrongType m) := by
  unfold faults
  rw [h, List.map_cons, List.cons_append, List.head?_cons]

theorem faults_of_fits {json : Json} (h : Shape.document.Fits json) :
    json.faults = json.contentFaults := by
  unfold faults
  rw [(Shape.misfits_eq_nil_iff _ _ _).mpr h, List.map_nil, List.nil_append]

theorem contentFaults_of_delivery {json delivery : Json} (h : json.delivery? = some delivery) :
    json.contentFaults = Check.faults delivery.deliveryChecks := by
  unfold delivery? at h
  unfold contentFaults
  obtain ⟨siri, hsiri, hdelivery⟩ := Option.bind_eq_some_iff.mp h
  simp only [hsiri, hdelivery]

theorem wrongType_not_mem_contentFaults (json : Json) (m : Mismatch) :
    .wrongType m ∉ json.contentFaults := by
  unfold contentFaults
  split
  · simp
  · split
    · simp
    · intro hmem
      obtain ⟨c, -, hc⟩ := List.mem_map.mp hmem
      -- no check is about a type
      rcases c with _ | ⟨f, place, _ | _⟩ | _ <;> cases hc

end Json

/-- A node that a body is rejected for because of its type is a misfit in the document. -/
theorem misfit_of_wrongType {bytes : List UInt8} {m : Mismatch}
    (h : decode? bytes = .error (.wrongType m)) : ∃ json, Shape.document.Misfit [] json m := by
  cases hread : Json.read? bodyLimits bytes with
  | error e =>
      unfold decode? at h
      rw [hread] at h
      cases h
  | ok json =>
      have hmem : .wrongType m ∈ json.faults :=
        List.mem_of_head? ((decode_fails_iff hread _).mp h)
      rcases List.mem_append.mp hmem with hmem | hmem
      · obtain ⟨m', hmisfit, heq⟩ := List.mem_map.mp hmem
        cases heq
        exact ⟨json, (Shape.mem_misfits_iff _ _ _ _).mp hmisfit⟩
      · exact absurd hmem (json.wrongType_not_mem_contentFaults m)

namespace Check

theorem faults_first {before : List Check} {c : Check} (hbefore : ∀ b ∈ before, b.passes)
    (hfails : c.passes = false) (after : List Check) :
    faults (before ++ c :: after) = c.error :: faults after := by
  rw [faults_append, faults_cons, (faults_eq_nil_iff before).mpr hbefore, faults_of_fails hfails]
  rfl

theorem exists_first {checks : List Check} {e : DecodeError}
    (h : (faults checks).head? = some e) :
    ∃ before c after, checks = before ++ c :: after ∧ (∀ b ∈ before, b.passes) ∧
      c.passes = false ∧ e = c.error := by
  obtain ⟨rest, hfaults⟩ := List.head?_eq_some_iff.mp h
  obtain ⟨c, failing, hfailing, rfl, -⟩ := List.map_eq_cons_iff.mp hfaults
  obtain ⟨before, after, hsplit, hbefore, hfails, -⟩ := List.filter_eq_cons_iff.mp hfailing
  refine ⟨before, c, after, hsplit, fun b hb => ?_, by simpa using hfails, rfl⟩
  simpa using hbefore b hb

end Check

/-- The error of a document that fits is that of the first check that fails; what comes behind it
does not count. -/
theorem decode_fails_at_first {bytes : List UInt8} {json delivery : Json} {before : List Check}
    {c : Check} {after : List Check} (h : Json.read? bodyLimits bytes = .ok json)
    (hfits : Shape.document.Fits json) (hdelivery : json.delivery? = some delivery)
    (hchecks : delivery.deliveryChecks = before ++ c :: after)
    (hbefore : ∀ b ∈ before, b.passes) (hfails : c.passes = false) :
    decode? bytes = .error c.error := by
  rw [decode_fails_iff h, Json.faults_of_fits hfits, Json.contentFaults_of_delivery hdelivery,
    hchecks, Check.faults_first hbefore hfails, List.head?_cons]

/-- **Which error a document gets.** Of all documents, however deep and with numbers of any length,
one beyond the limits of the reader, 200 containers and 4300 bytes of a number, gets an error about
them that blames no field. Within the limits, if a recognised node has a wrong type, the error is
about the first such node. If all types are right but the root or the service delivery is missing,
it is about that. Otherwise it is that of the first check that fails, and any other document within
the limits whose checks are the same up to that one gets the same error. -/
theorem decode_error_is_first (bytes : List UInt8) (json : Json) (e : DecodeError)
    (h : json.DenotedBy bytes) (he : decode? bytes = .error e) :
    (¬ bodyLimits.Allow bytes json →
      ∃ cause line column, e = .notJson cause line column ∧ cause.IsLimit ∧
        e.blame = ⟨.malformedEnvelope, none, none, none⟩) ∧
    (bodyLimits.Allow bytes json →
      (¬ Shape.document.Fits json →
        ∃ m, e = .wrongType m ∧ Shape.document.FirstMisfit json m ∧
          e.blame.kind = .malformedEnvelope ∧ e.blame.PointsAt m.path) ∧
      (Shape.document.Fits json → json.node? .siri = none →
        e = .noRoot ∧ e.blame = ⟨.malformedEnvelope, some "Siri", none, none⟩) ∧
      (Shape.document.Fits json → ∀ siri, json.node? .siri = some siri →
        siri.node? .serviceDelivery = none →
        e = .noServiceDelivery ∧
          e.blame = ⟨.malformedEnvelope, some "Siri.serviceDelivery", none, none⟩) ∧
      (Shape.document.Fits json → ∀ delivery, json.delivery? = some delivery →
        ∃ before c after, delivery.deliveryChecks = before ++ c :: after ∧
          (∀ b ∈ before, b.passes) ∧ c.passes = false ∧ e = c.error ∧
          e.blame = c.place.blame c.kind c.name ∧
          ∀ bytes' json' delivery' after', json'.DenotedBy bytes' →
            bodyLimits.Allow bytes' json' → Shape.document.Fits json' →
            json'.delivery? = some delivery' →
            delivery'.deliveryChecks = before ++ c :: after' → decode? bytes' = .error e)) := by
  constructor
  · intro hnot
    obtain ⟨cause, line, column, herror, hlimit⟩ := decode?_refused h hnot
    rw [herror] at he
    cases he
    exact ⟨cause, line, column, rfl, hlimit, rfl⟩
  intro hallowed
  have hhead := (decode_fails_iff ((read_body_iff h).mpr hallowed) e).mp he
  refine ⟨fun hmisfit => ?_, fun hfits hsiri => ?_, fun hfits siri hsiri hservice => ?_,
    fun hfits delivery hdelivery => ?_⟩
  · obtain ⟨m, rest, hlist, hfirst⟩ := Shape.firstMisfit_of_not_fits hmisfit
    rw [Json.faults_of_misfits hlist] at hhead
    cases hhead
    exact ⟨m, rfl, hfirst, rfl, wrongType_blame m⟩
  · rw [Json.faults_of_fits hfits, Json.contentFaults, hsiri] at hhead
    cases hhead
    exact ⟨rfl, rfl⟩
  · simp only [Json.faults_of_fits hfits, Json.contentFaults, hsiri, hservice] at hhead
    cases hhead
    exact ⟨rfl, rfl⟩
  · rw [Json.faults_of_fits hfits, Json.contentFaults_of_delivery hdelivery] at hhead
    obtain ⟨before, c, after, hchecks, hbefore, hfails, rfl⟩ := Check.exists_first hhead
    refine ⟨before, c, after, hchecks, hbefore, hfails, rfl, Check.error_blame c, ?_⟩
    -- the other document may differ in anything behind `c`
    intro bytes' json' delivery' after' h' hallowed' hfits' hdelivery' hchecks'
    exact decode_fails_at_first ((read_body_iff h').mpr hallowed') hfits' hdelivery' hchecks'
      hbefore hfails

/-- Two journeys: the first one lacks all its references, the second one was recorded at `later`. -/
def flawedFeed (later : Json) : Json :=
  .object [("Siri", .object [("serviceDelivery", .object [
    ("responseTimestamp", .text "2023-01-01T10:00Z"), ("producerRef", .text "A"),
    ("estimatedTimetableDelivery", .array [.object [("lineRef", .object [])],
      .object [("recordedAtTime", later)]])])])]

/-- The way to the time at which the second journey was recorded. -/
def recordedPath : Path :=
  [.key "Siri", .key "serviceDelivery", .key "estimatedTimetableDelivery", .index 1,
    .key "recordedAtTime"]

set_option maxRecDepth 10000 in
theorem decode_error_is_first_flawed :
    (flawedFeed (.boolean true)).DenotedBy (printed (flawedFeed (.boolean true))) ∧
      bodyLimits.Allow (printed (flawedFeed (.boolean true))) (flawedFeed (.boolean true)) ∧
      decode? (printed (flawedFeed (.boolean true))) = .error (.wrongType ⟨recordedPath, .text⟩) ∧
      Shape.document.FirstMisfit (flawedFeed (.boolean true)) ⟨recordedPath, .text⟩ ∧
      decode? (printed (flawedFeed (.text "soon"))) =
        .error (.missing (.field .datedVehicleJourneyRef) (.journey 0)) ∧
      ∃ delivery before c after, (flawedFeed (.text "soon")).delivery? = some delivery ∧
        delivery.deliveryChecks = before ++ c :: after ∧ (∀ b ∈ before, b.passes) ∧
        c.passes = false ∧ c.error = .missing (.field .datedVehicleJourneyRef) (.journey 0) := by
  have hread : Json.read? bodyLimits (printed (flawedFeed (.boolean true))) =
      .ok (flawedFeed (.boolean true)) := by rfl
  have hread' : Json.read? bodyLimits (printed (flawedFeed (.text "soon"))) =
      .ok (flawedFeed (.text "soon")) := by rfl
  have hfails : decode? (printed (flawedFeed (.boolean true))) =
      .error (.wrongType ⟨recordedPath, .text⟩) := by
    rw [decode?_eq hread]
    rfl
  have hfails' : decode? (printed (flawedFeed (.text "soon"))) =
      .error (.missing (.field .datedVehicleJourneyRef) (.journey 0)) := by
    rw [decode?_eq hread']
    rfl
  have hmisfit : ¬ Shape.document.Fits (flawedFeed (.boolean true)) := by
    rw [← Shape.misfits_eq_nil_iff _ []]
    exact List.cons_ne_nil _ _
  have hfits : Shape.document.Fits (flawedFeed (.text "soon")) :=
    (Shape.misfits_eq_nil_iff _ [] _).mp rfl
  have hallowed := (read_body_iff ⟨_, hread⟩).mp hread
  obtain ⟨m, hm, hfirst, -⟩ :=
    ((decode_error_is_first _ _ _ ⟨_, hread⟩ hfails).2 hallowed).1 hmisfit
  cases hm
  obtain ⟨before, c, after, hchecks, hbefore, hc, herror, -⟩ :=
    ((decode_error_is_first _ _ _ ⟨_, hread'⟩ hfails').2
      ((read_body_iff ⟨_, hread'⟩).mp hread')).2.2.2 hfits _ rfl
  exact ⟨⟨_, hread⟩, hallowed, hfails, hfirst, hfails', _, before, c, after, rfl, hchecks, hbefore,
    hc, herror.symm⟩

/-- The time is missing, and the first check says so; but the error is about the depth. -/
theorem deepFeed_flaw_not_told :
    let feed := deepFeed .null
    let flaw : DecodeError := .missing (.field .responseTimestamp) .delivery
    feed.DenotedBy (printed feed) ∧ Shape.document.Fits feed ∧
      (∃ delivery c after, feed.delivery? = some delivery ∧ delivery.deliveryChecks = c :: after ∧
        c.passes = false ∧ c.error = flaw) ∧
      ∃ e, decode? (printed feed) = .error e ∧ e ≠ flaw ∧
        e.blame = ⟨.malformedEnvelope, none, none, none⟩ := by
  intro feed flaw
  have hdenoted : feed.DenotedBy (printed feed) := deepFeed_denoted (.null _)
  obtain ⟨cause, line, column, herror, -⟩ := decode?_refused hdenoted (deepFeed_not_allowed _ _)
  exact ⟨hdenoted, (Shape.misfits_eq_nil_iff _ [] _).mp rfl, ⟨_, _, _, rfl, rfl, rfl, rfl⟩, _,
    herror, nofun, rfl⟩

end TimetableFeed
