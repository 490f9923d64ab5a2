import Concordance.Disk.Path
import Concordance.Journal.Line

/-!
# The command line

A call names one of two commands.  Options on the journal may stand before the command or behind it,
where they count more; those of a command only behind it.  An option that takes a value takes the
next word, unless that looks like an option, or what follows an equals sign; it may be given once.
-/

namespace Concordance

/-- When output is coloured. -/
inductive ColourChoice where
  | auto
  | always
  | never
  deriving Repr, DecidableEq

/-- The options on the journal. -/
structure JournalOptions where
  verbose : Nat
  quiet : Nat
  colour : Option ColourChoice
  level : Option Level
  format : Option LineFormat
  logFile : Option String
  deriving Repr, DecidableEq

/-- What a call asks for. -/
inductive Command where
  | compile (inputs : List Path) (directory : Option Path) (isDry : Bool)
  | namespaces
  deriving Repr, DecidableEq

/-- What a call comes to: a run, or something to show instead, or a mistake. -/
inductive Call where
  | run (options : JournalOptions) (command : Command)
  | version
  | help
  | mistake
  deriving Repr, DecidableEq

namespace Call

/-- Whether words are read before the command, or behind one. -/
inductive Scope where
  | outer
  | compile
  | namespaces
  deriving Repr, DecidableEq

/-- What has been read of a call. -/
structure Draft where
  scope : Scope
  outer : JournalOptions
  inner : JournalOptions
  inputs : List Path
  directory : Option Path
  isDry : Bool

def noOptions : JournalOptions :=
  ⟨0, 0, none, none, none, none⟩

def emptyDraft : Draft :=
  ⟨.outer, noOptions, noOptions, [], none, false⟩

/-- The options of the scope that is being read. -/
def Draft.options (draft : Draft) : JournalOptions :=
  if draft.scope = .outer then draft.outer else draft.inner

/-- Sets the options of the scope that is being read. -/
def Draft.withOptions (draft : Draft) (options : JournalOptions) : Draft :=
  if draft.scope = .outer then { draft with outer := options } else { draft with inner := options }

/-- A choice by its name. -/
def choice? {α : Type} (choices : List (String × α)) (name : String) : Option α :=
  choices.lookup name

def levels : List (String × Level) :=
  [("error", .error), ("warn", .warn), ("info", .info), ("debug", .debug), ("trace", .trace)]

def formats : List (String × LineFormat) :=
  [("pretty", .pretty), ("compact", .compact), ("json", .json)]

def colours : List (String × ColourChoice) :=
  [("auto", .auto), ("always", .always), ("never", .never)]

def takesValue (name : String) : Bool :=
  ["color", "log-level", "log-format", "log-file", "output-dir"].contains name

/-- The draft with a value for an option; nothing if the option has no place there, has a value
already, or does not take this one. -/
def withValue? (draft : Draft) (name value : String) : Option Draft :=
  let options := draft.options
  if name = "color" ∧ options.colour = none then do
    some (draft.withOptions { options with colour := some (← choice? colours value) })
  else if name = "log-level" ∧ options.level = none then do
    some (draft.withOptions { options with level := some (← choice? levels value) })
  else if name = "log-format" ∧ options.format = none then do
    some (draft.withOptions { options with format := some (← choice? formats value) })
  else if name = "log-file" ∧ options.logFile = none ∧ value ≠ "" then
    some (draft.withOptions { options with logFile := some value })
  else if name = "output-dir" ∧ draft.scope = .compile ∧ draft.directory = none ∧ value ≠ "" then
    some { draft with directory := some ⟨value⟩ }
  else none

def withVerbose (draft : Draft) : Draft :=
  draft.withOptions { draft.options with verbose := draft.options.verbose + 1 }

def withQuiet (draft : Draft) : Draft :=
  draft.withOptions { draft.options with quiet := draft.options.quiet + 1 }

/-- The draft with an option that takes no value, or the call that the option ends. -/
def withFlag (draft : Draft) (name : String) : Except Call Draft :=
  if name = "verbose" then .ok (withVerbose draft)
  else if name = "quiet" then .ok (withQuiet draft)
  else if name = "dry-run" ∧ draft.scope = .compile ∧ !draft.isDry then
    .ok { draft with isDry := true }
  else if name = "help" then .error .help
  else if name = "version" ∧ draft.scope = .outer then .error .version
  else .error .mistake

/-- The draft with options of one letter each, or the call that one of them ends. -/
def withLetters (draft : Draft) : List Char → Except Call Draft
  | [] => .ok draft
  | 'v' :: rest => withLetters (withVerbose draft) rest
  | 'q' :: rest => withLetters (withQuiet draft) rest
  | 'h' :: _ => .error .help
  | 'V' :: _ => .error (if draft.scope = .outer then .version else .mistake)
  | _ :: _ => .error .mistake

def withWord (draft : Draft) (word : String) : Except Call Draft :=
  match draft.scope with
  | .outer =>
    if word = "compile" then .ok { draft with scope := .compile }
    else if word = "namespaces" then .ok { draft with scope := .namespaces }
    else .error .mistake
  | .compile =>
    if word = "" then .error .mistake else .ok { draft with inputs := draft.inputs ++ [⟨word⟩] }
  | .namespaces => .error .mistake

/-- What a word is by its looks. -/
inductive WordKind where
  | separator
  | option (name : String) (value : Option String)
  | letters (letters : List Char)
  | plain

/-- The name of a long option and the value behind its equals sign. -/
def splitOption (cs : List Char) : String × Option String :=
  let name := String.ofList (cs.takeWhile (· ≠ '='))
  match cs.dropWhile (· ≠ '=') with
  | [] => (name, none)
  | _ :: value => (name, some (String.ofList value))

/-- The kind of a word.  A dash alone is plain. -/
def kind (word : String) : WordKind :=
  match word.toList with
  | ['-', '-'] => .separator
  | '-' :: '-' :: cs => .option (splitOption cs).1 (splitOption cs).2
  | '-' :: c :: cs => .letters (c :: cs)
  | _ => .plain

/-- Whether a word can be the value of the option before it. -/
def isPlain (word : String) : Bool :=
  match kind word with
  | .plain => true
  | _ => false

def withWords (draft : Draft) : List String → Except Call Draft
  | [] => .ok draft
  | word :: rest => do
    if draft.scope = .outer then .error .mistake
    else withWords (← withWord draft word) rest

/-- Whether words ask for help, which may be on one of the commands. -/
def asksHelp : List String → Bool
  | ["help"] => true
  | ["help", command] => ["compile", "namespaces", "help"].contains command
  | _ => false

/-- Reads words into the draft. -/
def readWords (draft : Draft) : List String → Except Call Draft
  | [] => .ok draft
  | word :: rest =>
    match kind word with
    | .separator => withWords draft rest
    | .letters letters => do readWords (← withLetters draft letters) rest
    | .plain =>
      if draft.scope = .outer ∧ asksHelp (word :: rest) then .error .help
      else do readWords (← withWord draft word) rest
    | .option name (some value) =>
      match withValue? draft name value with
      | some draft => readWords draft rest
      | none => .error .mistake
    | .option name none =>
      if takesValue name then
        match rest with
        | [] => .error .mistake
        | value :: rest =>
          match withValue? draft name value with
          | some draft => if isPlain value then readWords draft rest else .error .mistake
          | none => .error .mistake
      else do readWords (← withFlag draft name) rest

/-- The options of both scopes together; those behind the command count more. -/
def joined (outer inner : JournalOptions) : JournalOptions where
  verbose := if inner.verbose = 0 then outer.verbose else inner.verbose
  quiet := if inner.quiet = 0 then outer.quiet else inner.quiet
  colour := inner.colour <|> outer.colour
  level := inner.level <|> outer.level
  format := inner.format <|> outer.format
  logFile := inner.logFile <|> outer.logFile

/-- Whether options ask for more and for less at once. -/
def contradicts (options : JournalOptions) : Bool :=
  options.verbose != 0 && options.quiet != 0

/-- The call that a finished draft comes to. -/
def ofDraft (draft : Draft) : Call :=
  if contradicts draft.outer || contradicts draft.inner then .mistake
  else
    match draft.scope with
    | .outer => .mistake
    | .compile =>
      if draft.inputs.isEmpty then .mistake
      else
        .run (joined draft.outer draft.inner)
          (.compile draft.inputs draft.directory draft.isDry)
    | .namespaces => .run (joined draft.outer draft.inner) .namespaces

/-- The call that words come to. -/
def ofWords (words : List String) : Call :=
  match readWords emptyDraft words with
  | .ok draft => ofDraft draft
  | .error call => call

end Call

/-- The journal that options ask for; `isTerminal` says whether reports go to a terminal. -/
def JournalOptions.config (options : JournalOptions) (isTerminal : Bool) : JournalConfig where
  threshold :=
    match options.level with
    | some level => level.rank
    | none => min (Level.warn.rank + options.verbose - options.quiet) Threshold.all
  obeysEnvironment := options.verbose == 0 && options.quiet == 0 && options.level.isNone
  format := options.format.getD .pretty
  showsTarget := false
  showsClosing := true
  isColoured :=
    match options.colour.getD .auto with
    | .always => true
    | .never => false
    | .auto => options.logFile.isNone && isTerminal
  logFile := options.logFile

end Concordance
