import TimetableFeed.Proofs.NodeNames
import TimetableFeed.Proofs.ReportedPaths
import TimetableFeed.Proofs.WrittenPaths

/-!
# What a line tells

The blame for an error is put on one line: its kind, and then in words of their own the field, the
journey and the call. The words are told apart by the blanks between them and by how they begin, so
the line tells all of the blame. Of a node of a wrong type the blame has only the part of the path
inside the journey, in its written form; but there is just one way to the journeys, so nothing is
lost, and the line tells the path.

Main statements: `Blame.eq_of_describe_eq`, `line_tells_path`.
-/

namespace TimetableFeed

/-! ## Words -/

theorem ErrorKind.name_injective : ∀ k k' : ErrorKind, k.name = k'.name → k = k' := by
  intro k k'
  cases k <;> cases k' <;> decide

theorem ErrorKind.blank_not_mem_name (kind : ErrorKind) : ' ' ∉ kind.name.toList := by
  cases kind <;> decide

theorem blank_not_mem_integerText (i : Int) : ' ' ∉ (integerText i).toList :=
  fun h => absurd (mem_integerText h) (by decide)

namespace Blame

def fieldWord? (b : Blame) : Option String := (b.field?.filter (· ≠ "")).map ("field=" ++ ·)

def journeyWord? (b : Blame) : Option String := b.journey?.map fun i => "journey=" ++ integerText i

def callWord? (b : Blame) : Option String := b.call?.map fun i => "call=" ++ integerText i

def words (b : Blame) : List String :=
  b.kind.name :: [b.fieldWord?, b.journeyWord?, b.callWord?].filterMap id

theorem describe_words (b : Blame) : b.describe = " ".intercalate b.words := rfl

/-- The field has a name, which is one word, or there is no field. -/
def NamesWord (b : Blame) : Prop :=
  ∀ name, b.field? = some name → name ≠ "" ∧ ' ' ∉ name.toList

variable {b b' : Blame}

theorem NamesWord.blank_not_mem (h : b.NamesWord) : ∀ w ∈ b.words, ' ' ∉ w.toList := by
  have happend : ∀ key text : String, ' ' ∉ key.toList → ' ' ∉ text.toList →
      ' ' ∉ (key ++ text).toList := by
    intro key text hkey htext hmem
    rw [String.toList_append] at hmem
    exact (List.mem_append.mp hmem).elim hkey htext
  intro w hw
  rcases List.mem_cons.mp hw with rfl | hw
  · exact b.kind.blank_not_mem_name
  obtain ⟨word?, hword, rfl : word? = some w⟩ := List.mem_filterMap.mp hw
  simp only [List.mem_cons, List.not_mem_nil, or_false] at hword
  rcases hword with hfield | hjourney | hcall
  · obtain ⟨name, hname, rfl⟩ := Option.map_eq_some_iff.mp hfield.symm
    exact happend _ _ (by decide) (h name (Option.filter_eq_some_iff.mp hname).1).2
  · obtain ⟨i, -, rfl⟩ := Option.map_eq_some_iff.mp hjourney.symm
    exact happend _ _ (by decide) (blank_not_mem_integerText i)
  · obtain ⟨i, -, rfl⟩ := Option.map_eq_some_iff.mp hcall.symm
    exact happend _ _ (by decide) (blank_not_mem_integerText i)

/-- The words are told from the line. -/
theorem NamesWord.words_eq (h : b.NamesWord) (h' : b'.NamesWord) (hline : b.describe = b'.describe) :
    b.words = b'.words := by
  have hsplit : ∀ b : Blame, b.NamesWord →
      b.describe.toList.splitOn ' ' = b.words.map String.toList := by
    intro b h
    rw [describe_words, String.toList_intercalate]
    refine List.splitOn_intercalate ' ' ?_ (by simp [words])
    exact List.forall_mem_map.mpr h.blank_not_mem
  refine List.map_injective_iff.mpr (fun _ _ => String.toList_injective) ?_
  rw [← hsplit b h, ← hsplit b' h', hline]

/-- Each word behind the kind is told from the others by its first letter. -/
theorem find_word (b : Blame) :
    b.words.tail.find? (fun w => w.toList.head? = some 'f') = b.fieldWord? ∧
      b.words.tail.find? (fun w => w.toList.head? = some 'j') = b.journeyWord? ∧
      b.words.tail.find? (fun w => w.toList.head? = some 'c') = b.callWord? := by
  unfold words fieldWord? journeyWord? callWord?
  cases b.field?.filter (· ≠ "") <;> cases b.journey? <;> cases b.call? <;> simp

/-- **The line tells the blame**, if its field is one word. -/
theorem eq_of_describe_eq (h : b.NamesWord) (h' : b'.NamesWord) (hline : b.describe = b'.describe) :
    b = b' := by
  have hwords := h.words_eq h' hline
  obtain ⟨hfieldWord, hjourneyWord, hcallWord⟩ := b.find_word
  obtain ⟨hfieldWord', hjourneyWord', hcallWord'⟩ := b'.find_word
  rw [hwords] at hfieldWord hjourneyWord hcallWord
  have hindex : ∀ key : String, Function.Injective fun i => key ++ integerText i :=
    fun key i j heq => integerText_injective ((String.append_right_inj key).mp heq)
  have hkind : b.kind = b'.kind := ErrorKind.name_injective _ _ (List.cons.inj hwords).1
  have hfield : b.field? = b'.field? := by
    have hkept : ∀ b : Blame, b.NamesWord → b.field?.filter (· ≠ "") = b.field? := by
      intro b h
      cases hname : b.field? with
      | none => rfl
      | some name => rw [Option.filter_some, if_pos (by simpa using (h name hname).1)]
    have hmap := Option.map_injective (fun _ _ heq => (String.append_right_inj "field=").mp heq)
      (hfieldWord.symm.trans hfieldWord')
    rwa [hkept b h, hkept b' h'] at hmap
  have hjourney : b.journey? = b'.journey? :=
    Option.map_injective (hindex "journey=") (hjourneyWord.symm.trans hjourneyWord')
  have hcall : b.call? = b'.call? :=
    Option.map_injective (hindex "call=") (hcallWord.symm.trans hcallWord')
  cases b
  cases b'
  cases hkind
  cases hfield
  cases hjourney
  cases hcall
  rfl

end Blame

/-! ## Names on paths -/

theorem Field.camel_quiet (f : Field) :
    ∀ c ∈ f.camel.toList, PathStep.isMark c = false ∧ c ≠ ' ' := by
  have hall : f.camel.toList.all (fun c => !PathStep.isMark c && c != ' ') = true := by
    cases f <;> decide
  simpa using hall

namespace Path

variable {path p q : Path}

theorem InCamel.isPlain (h : path.InCamel) : path.IsPlain := by
  intro step hstep
  cases step with
  | index i => trivial
  | key name =>
      obtain ⟨f, rfl⟩ := h name hstep
      exact ⟨f.camel_ne_empty, fun c hc => (f.camel_quiet c hc).1⟩

/-- No character is written that is not in a step. -/
theorem mem_steps_of_mem_write (h : path.IsPlain) {c : Char} (hc : c ∈ path.write.toList) :
    c ∈ path.steps := by
  rw [steps_eq h, pointed]
  split
  · exact List.mem_cons_of_mem _ hc
  · exact hc

theorem InCamel.blank_not_mem_write (h : path.InCamel) : ' ' ∉ path.write.toList := by
  intro hblank
  obtain ⟨step, hstep, hchars⟩ := List.mem_flatMap.mp (mem_steps_of_mem_write h.isPlain hblank)
  cases step with
  | key name =>
      obtain ⟨f, rfl⟩ := h name hstep
      rcases List.mem_cons.mp hchars with heq | hbody
      · exact absurd heq (show ' ' ≠ '.' by decide)
      · exact (f.camel_quiet ' ' hbody).2 rfl
  | index i =>
      rcases List.mem_cons.mp hchars with heq | hbody
      · exact absurd heq (show ' ' ≠ '[' by decide)
      rcases List.mem_append.mp hbody with hdigits | hclose
      · exact blank_not_mem_integerText i hdigits
      · exact absurd hclose (by decide)

theorem label?_getD (path : Path) : path.label?.getD "" = path.write := by
  unfold label?
  split
  · next h => rw [h, Option.getD_none]
  · rw [Option.getD_some]

theorem eq_of_label?_eq (hp : p.IsPlain) (hq : q.IsPlain) (h : p.label? = q.label?) : p = q := by
  apply write_injective hp hq
  rw [← label?_getD p, ← label?_getD q, h]

theorem InCamel.label?_word (h : path.InCamel) {name : String} (hname : path.label? = some name) :
    name ≠ "" ∧ ' ' ∉ name.toList := by
  obtain ⟨hne, heq⟩ := Option.ite_none_left_eq_some.mp hname
  cases heq
  exact ⟨hne, h.blank_not_mem_write⟩

end Path

/-! ## Lines about nodes -/

/-- The way to the journey that the blame tells; it leaves this part of the path out. -/
def Blame.way (b : Blame) : Path := b.journey?.elim [] fun i => (Place.journey i.toNat).path

namespace Mismatch.Reported

variable {m m' : Mismatch}

/-- There is one way to the journeys. -/
theorem way_to_journeys (h : m.Reported) {front inner : Path} {i : Nat}
    (hpath : m.path = front ++ Path.itemOf .estimatedTimetableDelivery i ++ inner) :
    front = Place.delivery.path := by
  obtain ⟨bytes, hbytes⟩ := h.rejects
  obtain ⟨json, path, t, node, hnode, -, hm⟩ := misfit_of_wrongType hbytes
  obtain rfl : m.path = path := congrArg Mismatch.path hm
  have hcamel := h.inCamel
  rw [hpath] at hnode hcamel
  obtain ⟨delivery, items, journey, hdelivery, -⟩ := hnode.before_journeys
  exact hdelivery.path_eq hcamel.append.1.append.1

/-- The path is the way to the journey that is told, and then what the field is the name of. -/
theorem exists_inner (h : m.Reported) :
    ∃ inner : Path, inner.InCamel ∧ (DecodeError.wrongType m).blame.field? = inner.label? ∧
      m.path = (DecodeError.wrongType m).blame.way ++ inner := by
  rcases (wrongType_blame m).field with
    ⟨-, hjourney, hfield⟩ | ⟨i, inner, ⟨⟨front, hpath⟩, -⟩, hjourney, hfield⟩
  · refine ⟨m.path, h.inCamel, hfield, ?_⟩
    rw [Blame.way, hjourney]
    rfl
  · have hcamel := h.inCamel
    rw [hpath] at hcamel
    refine ⟨inner, hcamel.append.2, hfield, ?_⟩
    rw [Blame.way, hjourney, hpath, h.way_to_journeys hpath]
    rfl

theorem namesWord (h : m.Reported) : (DecodeError.wrongType m).blame.NamesWord := by
  obtain ⟨inner, hinner, hfield, -⟩ := h.exists_inner
  intro name hname
  exact hinner.label?_word (hfield.symm.trans hname)

/-- The blame tells the path. -/
theorem path_of_blame (h : m.Reported) (h' : m'.Reported)
    (hblame : (DecodeError.wrongType m).blame = (DecodeError.wrongType m').blame) :
    m.path = m'.path := by
  obtain ⟨inner, hinner, hfield, hpath⟩ := h.exists_inner
  obtain ⟨inner', hinner', hfield', hpath'⟩ := h'.exists_inner
  rw [hblame] at hfield hpath
  have heq : inner = inner' :=
    Path.eq_of_label?_eq hinner.isPlain hinner'.isPlain (hfield.symm.trans hfield')
  rw [hpath, hpath', heq]

end Mismatch.Reported

/-- **The line tells the path.** Of two nodes that bodies are rejected for because of their types,
the ways to both of them being in camel case, the lines are the same only if the paths are. And
written paths are the same only if the paths are, for all paths of indices and of names that are not
empty and in which no step seems to begin. -/
theorem line_tells_path :
    (∀ {m m' : Mismatch}, m.Reported → m'.Reported →
      ((DecodeError.wrongType m).blame.describe = (DecodeError.wrongType m').blame.describe ↔
        m.path = m'.path)) ∧
    ∀ {p q : Path}, p.IsPlain → q.IsPlain → (p.write = q.write ↔ p = q) := by
  constructor
  · intro m m' h h'
    constructor
    · intro hline
      exact h.path_of_blame h' (Blame.eq_of_describe_eq h.namesWord h'.namesWord hline)
    · intro hpath
      simp only [DecodeError.blame, hpath]
  · intro p q hp hq
    constructor
    · exact Path.write_injective hp hq
    · exact congrArg Path.write

def stopOf (journey call : Nat) : Path :=
  (Place.call journey call).path ++ (Node.field .stopPointRef).path

/-- A stop may be to blame whatever the journey and the call. -/
theorem stop_reported (journey call : Nat) : Mismatch.Reported ⟨stopOf journey call, .object⟩ := by
  have hdelivery : (Field.estimatedTimetableDelivery, Shape.array .journey) ∈
      Shape.delivery.fields := by simp [Shape.fields, Shape.delivery]
  have hcalls : (Field.estimatedCalls, Shape.calls) ∈ Shape.journey.fields := by
    simp [Shape.fields, Shape.journey]
  have hcall : Shape.call.Declares [.key Field.stopPointRef.camel] .ref :=
    .field List.mem_cons_self (.here _)
  have hjourney : Shape.journey.Declares ((Place.call journey call).inner ++
      [.key Field.stopPointRef.camel]) .ref :=
    .field hcalls (.field List.mem_cons_self (.item call hcall))
  refine (reported_iff_declared _).mpr ⟨.ref, ?_, rfl⟩
  exact .field List.mem_cons_self (.field List.mem_cons_self (.field hdelivery
    (.item journey hjourney)))

theorem line_tells_path_stops :
    Mismatch.Reported ⟨stopOf 1 11, .object⟩ ∧ Mismatch.Reported ⟨stopOf 11 1, .object⟩ ∧
      (DecodeError.wrongType ⟨stopOf 1 11, .object⟩).blame.describe ≠
        (DecodeError.wrongType ⟨stopOf 11 1, .object⟩).blame.describe ∧
      Path.IsPlain [.key "Siri", .index 0] ∧ Path.IsPlain [.key "Siri", .key "0]"] ∧
      Path.write [.key "Siri", .index 0] ≠ Path.write [.key "Siri", .key "0]"] := by
  have hindex : Path.IsPlain [.key "Siri", .index 0] := by
    simp [Path.IsPlain, PathStep.IsPlain, PathStep.isMark]
  have hname : Path.IsPlain [.key "Siri", .key "0]"] := by
    simp [Path.IsPlain, PathStep.IsPlain, PathStep.isMark]
  refine ⟨stop_reported 1 11, stop_reported 11 1, ?_, hindex, hname, ?_⟩
  · exact mt (line_tells_path.1 (stop_reported 1 11) (stop_reported 11 1)).mp (by decide)
  · exact mt (line_tells_path.2 hindex hname).mp (by decide)

example : (DecodeError.wrongType ⟨stopOf 1 11, .object⟩).blame.describe =
    "malformed_envelope field=estimatedCalls.estimatedCall[11].stopPointRef journey=1 call=11" := by
  decide

end TimetableFeed
