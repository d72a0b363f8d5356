import Mathlib.Logic.Relation
import TimetableFeed.Proofs.Places
import TimetableFeed.Proofs.Readings
import TimetableFeed.Proofs.WrittenTime

/-!
# Quoted numbers

Where a text is wanted, a whole number is read as its digits. To put it in quotes changes nothing
then: neither the delivery nor the error, for any of the numbers in a document, at any depth and of
any size. As a time a whole number is of no use, for an offset cannot begin in its digits.

Main definitions: `Shape.QuoteOne`, `Place.times`. Main statements: `Shape.QuoteOne.sameReading`,
`Timestamp.read_integer_fails`, `decode?_of_quoted`.
-/

namespace TimetableFeed

/-! ## Documents with numbers in quotes -/

namespace Shape

/-- One whole number in a node of the shape is put in quotes, at a place where a text is wanted. The
place need not be read: another member under a name of the field may go before it. -/
inductive QuoteOne : Shape → Json → Json → Prop where
  | here (i : Int) : QuoteOne .text (.integer i) (.text (integerText i))
  | inItem {s : Shape} {x x' : Json} (before after : List Json) (h : QuoteOne s x x') :
      QuoteOne (.array s) (.array (before ++ x :: after)) (.array (before ++ x' :: after))
  | inField {fields : List (Field × Shape)} {f : Field} {s : Shape} {x x' : Json} (a : Spelling)
      (before after : Members Json) (hf : fields.lookup f = some s) (h : QuoteOne s x x') :
      QuoteOne (.object fields) (.object (before ++ (f.name a, x) :: after))
        (.object (before ++ (f.name a, x') :: after))

/-- Nothing becomes a null, and no null anything else. -/
theorem QuoteOne.not_null {s : Shape} {json json' : Json} (h : QuoteOne s json json') :
    json.isNull = false ∧ json'.isNull = false := by
  cases h <;> exact ⟨rfl, rfl⟩

/-- **One number in quotes** leaves the reading the same. -/
theorem QuoteOne.sameReading {s : Shape} {json json' : Json} (h : QuoteOne s json json') :
    s.SameReading json json' := by
  induction h with
  | here i => exact .text rfl rfl
  | inItem before after _ ih => exact ih.of_item before after
  | @inField fields f s x x' a before after hf h ih =>
      refine .of_member h.not_null.1 h.not_null.2 fun g t hg hx => ?_
      -- no other field is found under the name
      obtain ⟨b, hname⟩ := member?_name hx
      obtain rfl := Field.name_injective hname
      rw [hf] at hg
      cases hg
      exact ih

end Shape

/-- **Any numbers in quotes** leave the draft the same. -/
theorem Draft.document_of_quoted {json json' : Json}
    (h : Relation.ReflTransGen (Shape.QuoteOne .document) json json') :
    document json = document json' := by
  induction h with
  | refl => rfl
  | tail _ hquote ih => rw [ih, document_same hquote.sameReading]

/-! ## Whole numbers as times -/

namespace Timestamp

theorem isWritten_integer (i : Int) : ∀ c ∈ (integerText i).toList, IsWritten c := by
  have hdigits : ∀ c ∈ decimalChars i.natAbs, IsWritten c :=
    fun c hc => .inl (isDigit_of_mem_decimalChars hc)
  rw [integerText, String.toList_ofList]
  split
  · exact List.forall_mem_cons.mpr ⟨by decide, hdigits⟩
  · exact hdigits

end Timestamp

theorem Iso.not_opensOffset_decimal (n : Nat) :
    ∀ b ∈ Utf8.encodeChars (decimalChars n), opensOffset b = false := by
  have hbytes : ∀ k < 58, 48 ≤ k → opensOffset (UInt8.ofNat k) = false := by decide
  have hdigit : ∀ c ∈ decimalChars n, 48 ≤ c.toNat ∧ c.toNat ≤ 57 :=
    fun c hc => toNat_of_isDigit (isDigit_of_mem_decimalChars hc)
  have hascii : ∀ c ∈ decimalChars n, c.toNat < 128 :=
    fun c hc => Nat.lt_of_le_of_lt (hdigit c hc).2 (by decide)
  rw [Utf8.encodeChars_of_ascii hascii]
  intro b hb
  obtain ⟨c, hc, rfl⟩ := List.mem_map.mp hb
  obtain ⟨hlower, hupper⟩ := hdigit c hc
  exact hbytes c.toNat (by omega) hlower

/-- **No whole number is a timestamp**: in the text of one only the first character is no digit, and
an offset is opened by one further on. -/
theorem Timestamp.read_integer_fails (i : Int) (t : Timestamp) : read? (integerText i) ≠ .ok t := by
  have hbare : IsBare (integerText i).toList :=
    isBare_of_plain fun c hc => plain_of_isWritten (isWritten_integer i c hc)
  refine read_unmarked hbare (fun b hb => Iso.not_opensOffset_decimal i.natAbs b ?_) t
  rw [integerText, String.toList_ofList] at hb
  split at hb
  · rw [Utf8.encodeChars_cons_ascii (by decide), List.drop_succ_cons] at hb
    exact List.mem_of_mem_drop hb
  · exact List.mem_of_mem_drop hb

/-! ## The checks of a place -/

def Place.times : Place → List Field
  | .delivery => [.responseTimestamp]
  | .journey _ => [.recordedAtTime]
  | .call _ _ =>
    [.aimedArrivalTime, .aimedDepartureTime, .expectedArrivalTime, .expectedDepartureTime]

/-- The checks of the object of a place, with those of all that lies inside it. -/
def Json.checksAt (home : Json) : Place → List Check
  | .delivery => home.deliveryChecks
  | .journey i => home.journeyChecks i
  | .call i j => home.callChecks (.call i j)

theorem Json.textAt_of_found {json x : Json} {f : Field} {name s : String}
    (h : json.found? f = some (name, x)) (hs : x.scalar? = some s) : json.textAt f = some s := by
  rw [textAt, node?_eq_found, h, Option.map_some, Option.bind_some, hs]

theorem Json.time_mem_checksAt {place : Place} {f : Field} (hf : f ∈ place.times) (home : Json) :
    .time f place (home.textAt f) ∈ home.checksAt place := by
  cases place with
  | delivery =>
      obtain rfl := List.mem_singleton.mp hf
      simp [checksAt, deliveryChecks]
  | journey i =>
      obtain rfl := List.mem_singleton.mp hf
      simp [checksAt, journeyChecks]
  | call i j =>
      simp only [Place.times, List.mem_cons, List.not_mem_nil, or_false] at hf
      rcases hf with rfl | rfl | rfl | rfl <;> simp [checksAt, callChecks]

/-- The checks of every place of a document are among those of its delivery. -/
theorem Located.checksAt_subset {document home : Json} {place : Place} {front : Path}
    (h : Located document place front home) :
    ∃ delivery, document.delivery? = some delivery ∧
      home.checksAt place ⊆ delivery.deliveryChecks := by
  induction h with
  | delivery hsiri hdelivery =>
      refine ⟨_, ?_, List.Subset.refl _⟩
      rw [Json.delivery?, Json.node?_eq_found, hsiri, Option.map_some, Option.bind_some,
        Json.node?_eq_found, hdelivery, Option.map_some]
  | @journey front delivery journey name items i h hitems hi ih =>
      obtain ⟨top, htop, hsubset⟩ := ih
      refine ⟨top, htop, fun c hc => hsubset ?_⟩
      have hmem : (journey, i) ∈ (delivery.itemsAt .estimatedTimetableDelivery).zipIdx := by
        rw [Json.itemsAt, Json.node?_eq_found, hitems]
        exact List.mk_mem_zipIdx_iff_getElem?.mpr hi
      refine List.mem_cons_of_mem _ (List.mem_cons_of_mem _ (List.mem_cons_of_mem _ ?_))
      exact List.mem_flatMap.mpr ⟨_, hmem, hc⟩
  | @call front journey around call a name items i j h haround hitems hj ih =>
      obtain ⟨top, htop, hsubset⟩ := ih
      refine ⟨top, htop, fun c hc => hsubset ?_⟩
      have hmem : (call, j) ∈ journey.calls.zipIdx := by
        rw [Json.calls, Json.node?_eq_found, haround, Option.map_some, Option.map_some,
          Option.getD_some, Json.itemsAt, Json.node?_eq_found, hitems]
        exact List.mk_mem_zipIdx_iff_getElem?.mpr hj
      refine List.mem_cons_of_mem _ (List.mem_cons_of_mem _ (List.mem_cons_of_mem _
        (List.mem_cons_of_mem _ (List.mem_cons_of_mem _ ?_))))
      exact List.mem_flatMap.mpr ⟨_, hmem, hc⟩

/-! ## Documents that fail -/

/-- A document with a check that fails does not decode: the error is about the first node of a wrong
type; if there is none, it is that of the check itself, or of one before it that fails too. -/
theorem decode?_fails {bytes : List UInt8} {json delivery : Json} {c : Check}
    (h : Json.read? bodyLimits bytes = .ok json) (hdelivery : json.delivery? = some delivery)
    (hc : c ∈ delivery.deliveryChecks) (hfails : c.passes = false) :
    ∃ e, decode? bytes = .error e ∧
      (¬ Shape.document.Fits json →
        ∃ m, e = .wrongType m ∧ Shape.document.FirstMisfit json m) ∧
      (Shape.document.Fits json → ∀ before after,
        delivery.deliveryChecks = before ++ c :: after →
        ((∀ b ∈ before, b.passes) → e = c.error) ∧
        ((¬ ∀ b ∈ before, b.passes) → ∃ b ∈ before, b.passes = false ∧ e = b.error)) := by
  by_cases hfits : Shape.document.Fits json
  · have hfaults : json.faults = Check.faults delivery.deliveryChecks := by
      rw [Json.faults_of_fits hfits, Json.contentFaults_of_delivery hdelivery]
    cases hhead : (Check.faults delivery.deliveryChecks).head? with
    | none =>
        have hpasses := (Check.faults_eq_nil_iff _).mp (List.head?_eq_none_iff.mp hhead) c hc
        rw [hfails] at hpasses
        cases hpasses
    | some e =>
        refine ⟨e, (decode_fails_iff h e).mpr (hfaults ▸ hhead), absurd hfits, ?_⟩
        intro _ before after hchecks
        rw [hchecks] at hhead
        constructor
        · intro hbefore
          rw [Check.faults_first hbefore hfails, List.head?_cons] at hhead
          exact (Option.some.inj hhead).symm
        · intro hbefore
          rw [Check.faults_append, List.head?_append_of_ne_nil _
            (mt (Check.faults_eq_nil_iff before).mp hbefore)] at hhead
          obtain ⟨front, b, rest, rfl, -, hb, he⟩ := Check.exists_first hhead
          exact ⟨b, List.mem_append_right _ List.mem_cons_self, hb, he⟩
  · obtain ⟨m, rest, hlist, hfirst⟩ := Shape.firstMisfit_of_not_fits hfits
    refine ⟨.wrongType m, ?_, fun _ => ⟨m, rfl, hfirst⟩, fun hfits' => absurd hfits' hfits⟩
    exact (decode_fails_iff h _).mpr (Json.faults_of_misfits hlist)

/-- **Numbers are read as their text.** A document decodes to the same delivery, or fails with the
same error, if any of the whole numbers in it stand in quotes, where texts are wanted. And a whole
number in the place of a time makes it fail: with an invalid timestamp there, unless the type of
another node is wrong or an earlier check fails. -/
theorem decode?_of_quoted {bytes bytes' : List UInt8} {json json' : Json}
    (h : Json.read? bodyLimits bytes = .ok json) (h' : Json.read? bodyLimits bytes' = .ok json')
    (hquoted : Relation.ReflTransGen (Shape.QuoteOne .document) json json') :
    decode? bytes' = decode? bytes ∧
      ∀ place front home f name i, Located json place front home → f ∈ place.times →
        home.found? f = some (name, .integer i) →
        ∃ e delivery, decode? bytes = .error e ∧ json.delivery? = some delivery ∧
          .time f place (some (integerText i)) ∈ delivery.deliveryChecks ∧
          (¬ Shape.document.Fits json →
            ∃ m, e = .wrongType m ∧ Shape.document.FirstMisfit json m) ∧
          (Shape.document.Fits json → ∀ before after,
            delivery.deliveryChecks = before ++ .time f place (some (integerText i)) :: after →
            ((∀ b ∈ before, b.passes) → e = .invalidTimestamp (integerText i) f place ∧
              e.blame = place.blame .invalidTimestamp f.camel) ∧
            ((¬ ∀ b ∈ before, b.passes) → ∃ b ∈ before, b.passes = false ∧ e = b.error)) := by
  constructor
  · rw [decode?_eq h, decode?_eq h', decodeJson?, decodeJson?, Draft.document_of_quoted hquoted]
  · intro place front home f name i hhome hf hfound
    obtain ⟨delivery, hdelivery, hsubset⟩ := hhome.checksAt_subset
    have hmem := hsubset (home.time_mem_checksAt hf)
    rw [Json.textAt_of_found hfound rfl] at hmem
    have hfails : (Check.time f place (some (integerText i))).passes = false :=
      Check.time_fails_iff.mpr (Timestamp.read_integer_fails i)
    obtain ⟨e, he, hmisfit, hfirst⟩ := decode?_fails h hdelivery hmem hfails
    refine ⟨e, delivery, he, hdelivery, hmem, hmisfit, fun hfits before after hchecks => ?_⟩
    obtain ⟨hthis, hother⟩ := hfirst hfits before after hchecks
    refine ⟨fun hbefore => ?_, hother⟩
    obtain rfl := hthis hbefore
    exact ⟨rfl, Check.error_blame _⟩

def withJourney (ms : Members Json) : Json :=
  .object [("Siri", .object [("serviceDelivery", .object [
    ("responseTimestamp", .text "2025-11-30T21:40Z"), ("producerRef", .text "P"),
    ("estimatedTimetableDelivery", .array [.object ms])])])]

/-- A negative number of more than 64 bits names the line, and one that looks like a basic date is
the time. -/
def numberedFeed : Json :=
  withJourney [("line_ref", refTo (.integer (-98765432109876543210))),
    ("recordedAtTime", .integer 20240507)]

def quotedFeed : Json :=
  withJourney [("line_ref", refTo (.text "-98765432109876543210")),
    ("recordedAtTime", .text "20240507")]

theorem numberedFeed_quoted :
    Relation.ReflTransGen (Shape.QuoteOne .document) numberedFeed quotedFeed := by
  have hlift : ∀ {ms ms' : Members Json}, Shape.QuoteOne .journey (.object ms) (.object ms') →
      Shape.QuoteOne .document (withJourney ms) (withJourney ms') := by
    intro ms ms' h
    refine .inField .camel [] [] (f := .siri) rfl ?_
    refine .inField .camel [] [] (f := .serviceDelivery) rfl ?_
    exact .inField .camel [_, _] [] (f := .estimatedTimetableDelivery) rfl (.inItem [] [] h)
  have hline : Shape.QuoteOne .ref (refTo (.integer (-98765432109876543210)))
      (refTo (.text "-98765432109876543210")) :=
    .inField .camel [] [] (f := .value) rfl (.here (-98765432109876543210))
  have hfirst := hlift
    (.inField .snake [] [("recordedAtTime", .integer 20240507)] (f := .lineRef) rfl hline)
  refine (Relation.ReflTransGen.single hfirst).tail (hlift ?_)
  exact .inField .camel [_] [] (f := .recordedAtTime) rfl (.here 20240507)

set_option maxRecDepth 10000 in
theorem decode?_of_quoted_numbered :
    Json.read? bodyLimits (printed numberedFeed) = .ok numberedFeed ∧
      Json.read? bodyLimits (printed quotedFeed) = .ok quotedFeed ∧
      Relation.ReflTransGen (Shape.QuoteOne .document) numberedFeed quotedFeed ∧
      decode? (printed quotedFeed) = decode? (printed numberedFeed) ∧
      decode? (printed numberedFeed) =
        .error (.invalidTimestamp "20240507" .recordedAtTime (.journey 0)) := by
  have hread : Json.read? bodyLimits (printed numberedFeed) = .ok numberedFeed := by rfl
  have hread' : Json.read? bodyLimits (printed quotedFeed) = .ok quotedFeed := by rfl
  obtain ⟨hsame, hrejected⟩ := decode?_of_quoted hread hread' numberedFeed_quoted
  have hhome : Located numberedFeed (.journey 0) _ _ := .journey (.delivery rfl rfl) rfl rfl
  obtain ⟨e, delivery, he, hdelivery, -, -, hfirst⟩ :=
    hrejected _ _ _ .recordedAtTime "recordedAtTime" 20240507 hhome List.mem_cons_self rfl
  cases hdelivery
  have hfits : Shape.document.Fits numberedFeed := (Shape.misfits_eq_nil_iff _ [] _).mp rfl
  have hbefore : ∀ c ∈ [Check.text .responseTimestamp .delivery (some "2025-11-30T21:40Z"),
      .time .responseTimestamp .delivery (some "2025-11-30T21:40Z"),
      .text .producerRef .delivery (some "P")], c.passes :=
    List.all_eq_true.mp (by decide +kernel)
  obtain ⟨rfl, -⟩ := (hfirst hfits _ _ rfl).1 hbefore
  exact ⟨hread, hread', numberedFeed_quoted, hsame, he⟩

end TimetableFeed
