import Concordance.Definition.Excerpt
import Concordance.Definition.Json
import Concordance.Definition.Resolve
import Concordance.Definition.Toml.Text
import Concordance.Disk.Host

/-!
# Loading definitions

A definition file is known by its extension, in letters of either case.  A directory contributes the
definition files directly inside it in the order of their names, whatever order the system lists
them in.
-/

namespace Concordance

/-- The notation that goes with an extension. -/
def Notation.ofExtension? (extension : String) : Option Notation :=
  if extension.toLower = "toml" then some .toml
  else if extension.toLower = "json" then some .json
  else none

/-- The notation of the file at a path. -/
def Path.notation? (path : Path) : Option Notation :=
  path.extension?.bind Notation.ofExtension?

/-- Why a definition was not loaded. -/
inductive LoadError where
  /-- A file or directory could not be read. -/
  | unreadable (path : Path) (cause : IoError)
  /-- A text does not hold a definition. -/
  | malformed (format : Notation) (path : Path) (text : String) (cause : ShapeError)
  /-- The extension of a file is none of those of definition files. -/
  | unsupported (path : Path)
  /-- The names of a definition do not resolve. -/
  | unresolved (cause : ResolveError)
  deriving Repr, DecidableEq

namespace LoadError

/-- The wording of an error, which includes that of its cause. -/
def message : LoadError → String
  | .unreadable path cause => "failed to read file " ++ path.text ++ ": " ++ cause.message
  | .malformed .toml path text cause =>
    "failed to parse TOML mapping " ++ path.text ++ ": " ++ cause.shown .toml text
  | .malformed .json path text cause =>
    "failed to parse JSON mapping " ++ path.text ++ ": " ++ cause.shown .json text
  | .unsupported path => "unsupported mapping file " ++ path.text ++ " (expected .toml or .json)"
  | .unresolved cause => cause.message

/-- The wordings of an error and of the cause behind it. -/
def chain (error : LoadError) : List String :=
  error.message ::
    match error with
    | .unreadable _ cause => [cause.message]
    | .malformed format _ text cause => [cause.shown format text]
    | _ => []

end LoadError

namespace Definition

/-- The definition that a text in a notation holds. -/
def ofText : Notation → String → Except ShapeError Definition
  | .toml, text => ofToml text
  | .json, text => ofJson text

/-- The definition that the bytes of a file hold. -/
def ofFile (path : Path) (content : ByteArray) : Except LoadError Definition :=
  match String.fromUTF8? content with
  | none => .error (.unreadable path .notText)
  | some text =>
    match path.notation? with
    | none => .error (.unsupported path)
    | some format => (ofText format text).mapError (.malformed format path text)

end Definition

variable {m : Type → Type} [Monad m] [Host m]

def loadDefinition (path : Path) : m (Except LoadError Definition) := do
  match ← Host.read path with
  | .error error => pure (.error (.unreadable path error))
  | .ok content => pure (Definition.ofFile path content)

/-- Loads and resolves the definition in a file. -/
def loadResolved (path : Path) : m (Except LoadError Resolved) := do
  match ← loadDefinition path with
  | .error error => pure (.error error)
  | .ok definition => pure (definition.resolve.mapError .unresolved)

/-- The extensions of definition files, in small letters. -/
def definitionExtensions : List String := ["toml", "json"]

/-- Whether a path is listed as that of a definition file. -/
def Path.isListed (path : Path) : Bool :=
  definitionExtensions.contains (path.extension?.getD "").toLower

/-- The definition files among the entries of a directory, in the order of their names. -/
def definitionFiles (directory : Path) (entries : List (String × Bool)) : List Path :=
  let paths := entries.filterMap fun entry =>
    let path := directory.join entry.1
    if entry.2 && path.isListed then some (entry.1, path) else none
  (paths.mergeSort fun a b => (compare a.1 b.1).isLE).map Prod.snd

/-- Finds the definition files directly inside a directory. -/
def discover (directory : Path) : m (Except LoadError (List Path)) := do
  match ← Host.entries directory with
  | .error error => pure (.error (.unreadable directory error))
  | .ok entries => pure (.ok (definitionFiles directory entries))

end Concordance
