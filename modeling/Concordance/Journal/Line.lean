import Concordance.Journal.Filter
import Concordance.Text.JsonString

/-!
# The lines of a journal

A report that passes the filter becomes a line, in one of three forms: pretty, with the open spans
and their fields in front; compact, with the fields of the spans at the end; or an object of JSON.
The first two may be coloured, and only the last tells of spans that close.
-/

namespace Concordance

/-- The form of the lines of a journal. -/
inductive LineFormat where
  | pretty
  | compact
  | json
  deriving Repr, DecidableEq

/-- How a journal is kept. -/
structure Journal where
  filter : Filter
  format : LineFormat
  showsTarget : Bool
  showsClosing : Bool
  isColoured : Bool
  deriving Repr, DecidableEq

def Level.name : Level → String
  | .error => "ERROR"
  | .warn => "WARN"
  | .info => "INFO"
  | .debug => "DEBUG"
  | .trace => "TRACE"

def Level.colour : Level → String
  | .error => "31"
  | .warn => "33"
  | .info => "32"
  | .debug => "34"
  | .trace => "35"

/-- The value of a field as text. -/
def FieldValue.shown : FieldValue → String
  | .text value => value
  | .count value => toString value
  | .flag value => toString value

def FieldValue.json : FieldValue → String
  | .text value => Text.jsonString value
  | .count value => toString value
  | .flag value => toString value

/-- An object of JSON with its keys in order. -/
def sortedObject (entries : List (String × String)) : String :=
  Text.jsonObject (entries.mergeSort fun a b => (compare a.1 b.1).isLE)

def Span.json (span : Span) : String :=
  sortedObject
    (("name", Text.jsonString span.name) :: span.fields.map fun field => (field.1, field.2.json))

namespace Journal

/-- A text in the style of a terminal code, if the journal is coloured. -/
def styled (journal : Journal) (code text : String) : String :=
  if journal.isColoured then "\x1b[" ++ code ++ "m" ++ text ++ "\x1b[0m" else text

/-- The name of a level, right-aligned to five columns. -/
def levelTag (journal : Journal) (level : Level) : String :=
  let name := level.name
  journal.styled level.colour (String.ofList (List.replicate (5 - name.length) ' ') ++ name)

def fieldText (journal : Journal) (field : String × FieldValue) : String :=
  journal.styled "3" field.1 ++ journal.styled "2" "=" ++ field.2.shown

/-- Fields with spaces between them. -/
def fieldsText (journal : Journal) (fields : Fields) : String :=
  " ".intercalate (fields.map journal.fieldText)

/-- The target in front of a message, if the journal shows targets. -/
def targetText (journal : Journal) (target : String) : String :=
  if journal.showsTarget then journal.styled "2" target ++ journal.styled "2" ":" ++ " " else ""

/-- The form of one character of a message: one that a terminal could take as a command is written
by its number. -/
def messageChar (c : Char) : String :=
  match c with
  | '\x07' => "\\x07"
  | '\x08' => "\\x08"
  | '\x0c' => "\\x0c"
  | '\x1b' => "\\x1b"
  | '\x7f' => "\\x7f"
  | c =>
    if 0x80 ≤ c.toNat ∧ c.toNat ≤ 0x9F then "\\u\x7b" ++ Text.hexadecimal c.toNat ++ "\x7d"
    else String.singleton c

/-- A message with its fields. -/
def messageText (journal : Journal) (event : Event) : String :=
  String.join (event.message.toList.map messageChar) ++
    String.join (event.fields.map fun field => " " ++ journal.fieldText field)

/-- The open spans with their fields. -/
def prettyContext (journal : Journal) (spans : List Span) : String :=
  String.join (spans.map fun span =>
    journal.styled "1" span.name ++
      (if span.fields.isEmpty then ""
        else journal.styled "1" "\x7b" ++ journal.fieldsText span.fields ++
          journal.styled "1" "\x7d") ++
      journal.styled "2" ":") ++
    (if spans.isEmpty then "" else " ")

/-- The names of the open spans. -/
def compactContext (journal : Journal) (spans : List Span) : String :=
  String.join (spans.map fun span => journal.styled "1" span.name ++ ":") ++
    (if spans.isEmpty then "" else " ")

/-- The fields of the open spans. -/
def compactFields (journal : Journal) (spans : List Span) : String :=
  String.join (spans.map fun span =>
    if span.fields.isEmpty then "" else " " ++ journal.styled "2" (journal.fieldsText span.fields))

def jsonLine (journal : Journal) (level : Level) (target message : String) (fields : Fields)
    (context : List (String × String)) : String :=
  let told :=
    ("message", Text.jsonString message) :: fields.map fun field => (field.1, field.2.json)
  let target := if journal.showsTarget then [("target", Text.jsonString target)] else []
  sortedObject
    (("fields", sortedObject told) :: ("level", Text.jsonString level.name) :: context ++ target)

/-- The innermost span and all spans, for a line of JSON. -/
def jsonContext (spans : List Span) : List (String × String) :=
  match spans.getLast? with
  | some span => [("span", span.json), ("spans", Text.jsonArray (spans.map Span.json))]
  | none => []

/-- The line of an event inside spans that are shown. -/
def eventLine (journal : Journal) (spans : List Span) (event : Event) : String :=
  match journal.format with
  | .pretty =>
    journal.levelTag event.level ++ " " ++ journal.prettyContext spans ++
      journal.targetText event.target ++ journal.messageText event
  | .compact =>
    journal.levelTag event.level ++ " " ++ journal.compactContext spans ++
      journal.targetText event.target ++ journal.messageText event ++ journal.compactFields spans
  | .json =>
    journal.jsonLine event.level event.target event.message event.fields (jsonContext spans)

/-- The line of a report, if the journal has one for it. -/
def line? (journal : Journal) : Report → Option String
  | .event inside event =>
    let spans := journal.filter.shownSpans inside
    if journal.filter.admits spans event then
      some (journal.eventLine spans event ++ "\n")
    else none
  | .closed inside span =>
    let spans := journal.filter.shownSpans inside
    if journal.format = .json ∧ journal.showsClosing ∧ journal.filter.admitsSpan spans span then
      some (journal.jsonLine span.level span.target "close" []
        [("span", span.json), ("spans", Text.jsonArray (spans.map Span.json))] ++ "\n")
    else none

end Journal

/-- What is asked for a journal before the environment is known. -/
structure JournalConfig where
  threshold : Threshold
  obeysEnvironment : Bool
  format : LineFormat
  showsTarget : Bool
  showsClosing : Bool
  isColoured : Bool
  logFile : Option String
  deriving Repr, DecidableEq

namespace JournalConfig

/-- The usual journal: warnings, in pretty form and coloured, unless the environment says
otherwise. -/
def usual : JournalConfig :=
  ⟨Level.warn.rank, true, .pretty, false, true, true, none⟩

/-- The parts of the program, whose reports the threshold is for. -/
def programTargets : List String :=
  ["crosswalk", "crosswalk_cli", "crosswalk_config", "crosswalk_model", "crosswalk_xsl"]

/-- The filter of a threshold: it holds for the parts of the program, and warnings are admitted from
anywhere else. -/
def thresholdFilter (threshold : Threshold) : Filter :=
  ⟨.onTarget none Level.warn.rank ::
    programTargets.map fun target => .onTarget (some target) threshold⟩

/-- The journal that is kept when the environment holds the given filter, if it holds one. -/
def journal (config : JournalConfig) (environment : Option String) : Journal :=
  let asked := if config.obeysEnvironment then environment.bind Filter.ofText? else none
  ⟨asked.getD (thresholdFilter config.threshold), config.format, config.showsTarget,
    config.showsClosing, config.isColoured⟩

end JournalConfig

end Concordance
