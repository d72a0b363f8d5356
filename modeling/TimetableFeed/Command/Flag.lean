import TimetableFeed.Text.DecimalDigit
import TimetableFeed.Text.Pieces
import TimetableFeed.Text.Quoted

/-!
# Flags

The flags of the command, and what an argument is by its form: a word, or a flag with or without a
text attached to it. A long flag may be shortened as long as it is the only one that begins so, and
its text follows an equals sign; the text of a short flag follows at once. A negative number is a
word, and so is whatever has a blank in it, unless it is a flag.

Main definitions: `Form.of?`, `Form.ofAll?`, `Switch.bundle?`.
-/

namespace TimetableFeed.Command

/-- A flag that stands alone. -/
inductive Switch where
  | help
  | json
  | verbose
  deriving DecidableEq, Repr

/-- A flag that takes a value. -/
inductive Setting where
  | url
  | feedId
  | count
  | interval
  | file
  deriving DecidableEq, Repr

inductive Flag where
  | switch (switch : Switch)
  | setting (setting : Setting)
  deriving DecidableEq, Repr

structure Spelling where
  text : List Char
  flag : Flag
  deriving DecidableEq, Repr

/-- All the ways of writing a flag, in the order in which messages list them. -/
def spellings : List Spelling :=
  [⟨"-h".toList, .switch .help⟩, ⟨"--help".toList, .switch .help⟩, ⟨"--url".toList, .setting .url⟩,
    ⟨"--feed-id".toList, .setting .feedId⟩, ⟨"--count".toList, .setting .count⟩,
    ⟨"--interval".toList, .setting .interval⟩, ⟨"--json".toList, .switch .json⟩,
    ⟨"--file".toList, .setting .file⟩, ⟨"--verbose".toList, .switch .verbose⟩,
    ⟨"-v".toList, .switch .verbose⟩]

def Flag.title (f : Flag) : String :=
  "/".intercalate ((spellings.filter fun s => s.flag = f).map fun s => String.ofList s.text)

def spelling? (cs : List Char) : Option Spelling := spellings.find? fun s => s.text = cs

inductive UsageError where
  | ambiguous (argument : String) (candidates : List Spelling)
  | noValue (setting : Setting)
  | strayValue (switch : Switch) (text : String)
  | notWhole (setting : Setting) (text : String)
  | notNumeric (setting : Setting) (text : String)
  | unrecognized (arguments : List String)
  deriving DecidableEq, Repr

namespace UsageError

def blame (f : Flag) (fault : String) : String := "argument " ++ f.title ++ ": " ++ fault

def message : UsageError → String
  | .ambiguous argument candidates =>
    "ambiguous option: " ++ argument ++ " could match " ++
      ", ".intercalate (candidates.map fun s => String.ofList s.text)
  | .noValue s => blame (.setting s) "expected one argument"
  | .strayValue s text => blame (.switch s) ("ignored explicit argument " ++ Text.quoted text)
  | .notWhole s text => blame (.setting s) ("invalid int value: " ++ Text.quoted text)
  | .notNumeric s text => blame (.setting s) ("invalid float value: " ++ Text.quoted text)
  | .unrecognized arguments => "unrecognized arguments: " ++ " ".intercalate arguments

end UsageError

/-! ## Forms of arguments -/

inductive Form where
  /-- A word, which may be the value of the flag before it. -/
  | word
  | flag (spelling : Spelling) (attached : Option (List Char))
  /-- It looks like a flag, but is none. -/
  | unknown
  deriving DecidableEq, Repr

/-- The flags that `cs` may be short for, each with the text attached to it. -/
def candidates : List Char → List (Spelling × Option (List Char))
  | '-' :: '-' :: rest =>
    let (name, attached) := Text.cut '=' ('-' :: '-' :: rest)
    (spellings.filter fun s => name.isPrefixOf s.text).map (·, attached)
  | '-' :: c :: rest => (spellings.filter fun s => s.text = ['-', c]).map (·, some rest)
  | _ => []

/-- `cs` begins with a decimal digit and holds nothing else, but perhaps a line feed at its end. -/
def isDigits (cs : List Char) : Bool :=
  let isDigit (c : Char) := (Text.digitValue? c).isSome
  cs.head?.any isDigit && (cs.dropWhile isDigit == [] || cs.dropWhile isDigit == ['\n'])

/-- `cs` writes a negative number, in digits with or without a point before or among them. -/
def isNegative : List Char → Bool
  | '-' :: rest =>
    isDigits rest ||
      match rest.dropWhile fun c => (Text.digitValue? c).isSome with
      | '.' :: fraction => isDigits fraction
      | _ => false
  | _ => false

/-- The flag that an argument names exactly, with the text after an equals sign if there is one. -/
def namedExactly? (cs : List Char) : Option Form :=
  match spelling? cs with
  | some s => some (.flag s none)
  | none =>
    match Text.cut '=' cs with
    | (_, none) => none
    | (name, some text) => (spelling? name).map (.flag · (some text))

def Form.of? (argument : String) : Except UsageError Form :=
  let cs := argument.toList
  if cs.head? ≠ some '-' ∨ cs.length = 1 then .ok .word
  else
    match namedExactly? cs, candidates cs with
    | some form, _ => .ok form
    | none, [(s, attached)] => .ok (.flag s attached)
    | none, [] => .ok (if isNegative cs || cs.contains ' ' then .word else .unknown)
    | none, several => .error (.ambiguous argument (several.map (·.1)))

/-- The arguments with their forms. -/
def Form.ofAll? : List String → Except UsageError (List (String × Form))
  | [] => .ok []
  | argument :: rest =>
    -- a double dash is no flag, and after it all are words
    if argument = "--" then .ok ((argument, .unknown) :: rest.map (·, .word))
    else do
      let form ← Form.of? argument
      return (argument, form) :: (← Form.ofAll? rest)

/-! ## Bundles -/

/-- The switches of a short switch and the ones whose letters follow it. -/
def Switch.bundle? (s : Switch) : List Char → Except UsageError (List Switch)
  | [] => .ok [s]
  | c :: rest =>
    match spelling? ['-', c] with
    | some ⟨_, .switch next⟩ => (next.bundle? rest).map (s :: ·)
    | _ => .error (.strayValue s (String.ofList (c :: rest)))

/-- The switches that a spelling gives with the text attached to it. -/
def Switch.expand? (s : Switch) (spelling : Spelling) : Option (List Char) →
    Except UsageError (List Switch)
  | none => .ok [s]
  | some text =>
    -- only a short spelling can have a text attached
    if text = [] ∨ 2 < spelling.text.length then .error (.strayValue s (String.ofList text))
    else s.bundle? text

end TimetableFeed.Command
