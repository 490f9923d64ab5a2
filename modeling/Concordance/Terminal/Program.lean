import Concordance.Batch.Compile
import Concordance.Terminal.Options
import Concordance.Terminal.Table

/-!
# The program

What a command shows: the summary of a batch as a table with a total, followed by what failed, or
the builtin namespaces in the order of their prefixes.
-/

namespace Concordance

/-- A host with an output and an error output. -/
class Console (m : Type → Type) extends Host m where
  print : String → m Unit
  complain : String → m Unit

namespace Program

def version : String := "crosswalk 0.1.0\n"

/-- The lines of what is shown for help. -/
def helpLines : List String :=
  ["Compile XML tag/attribute crosswalks into XSLT dereferencing stylesheets", "",
    "Usage: crosswalk [OPTIONS] compile <MAPPING>... [--output-dir <DIR>] [--dry-run]",
    "       crosswalk [OPTIONS] namespaces", "", "Options:",
    "  -v, --verbose...           More reports", "  -q, --quiet...             Fewer reports",
    "      --color <WHEN>         auto, always or never",
    "      --log-level <LEVEL>    error, warn, info, debug or trace",
    "      --log-format <FORMAT>  pretty, compact or json",
    "      --log-file <PATH>      Append reports to a file"]

def help : String :=
  "\n".intercalate helpLines ++ "\n"

/-- What is complained of words that are no call. -/
def mistake : String :=
  "error: these arguments are not understood\n\nFor more information, try '--help'.\n"

/-- What is complained when the log file cannot be opened. -/
def noJournal (error : IoError) : String :=
  "error: failed to initialize logging: " ++ error.message ++ "\n"

/-- How a call begins: with a command to carry out, or with words that are its whole answer. -/
inductive Opening where
  | command (config : JournalConfig) (command : Command)
  | answer (exitCode : Nat) (output errors : String)

/-- How the call with the given words begins. -/
def opening (words : List String) (isTerminal : Bool) : Opening :=
  match Call.ofWords words with
  | .run options command => .command (options.config isTerminal) command
  | .version => .answer 0 version ""
  | .help => .answer 0 help ""
  | .mistake => .answer 2 "" mistake

/-- The name by which a summary calls a source. -/
def sourceName (source : Path) : String :=
  source.fileName?.getD source.text

def summaryRow (summary : Summary) : List String :=
  [sourceName summary.source, (summary.output.map Path.text).getD "-", toString summary.children,
    toString summary.bytes, Sha256.short summary.sha256]

def totalRow (files : List Summary) : List String :=
  let total (count : Summary → Nat) : Nat := files.foldr (fun file n => count file + n) 0
  ["TOTAL", toString files.length ++ " compiled", toString (total Summary.children),
    toString (total Summary.bytes), "-"]

/-- The table of a batch. -/
def summaryTable (files : List Summary) : Table where
  style := ⟨"│", true⟩
  alignsRight := [false, false, true, true, false]
  header := ["Mapping", "Stylesheet", "Children", "Bytes", "SHA-256"]
  rows := files.map summaryRow ++ [totalRow files]

def namespacesTable : Table where
  style := ⟨"┆", false⟩
  alignsRight := [false, false]
  header := ["Prefix", "URI"]
  rows := Registry.builtin.labels.toList.map fun binding => [binding.1, binding.2]

/-- What is shown of a batch. -/
def summaryText (outcome : Outcome) : String :=
  (if outcome.isDry then "Dry run: no stylesheet written\n" else "") ++
    (summaryTable outcome.files).render ++ "\n"

/-- What is complained of a batch. -/
def errorText (outcome : Outcome) : String :=
  if outcome.hasErrors then
    "Errors:\n" ++ String.join (outcome.errors.map fun error => "- " ++ error ++ "\n")
  else ""

variable {m : Type → Type} [Monad m] [Console m]

/-- Carries out a command and gives the exit code. -/
def execute : Command → m Nat
  | .compile inputs directory isDry => do
    match ← compileAll inputs directory isDry with
    | .error error => do
      Console.complain ("error: " ++ error.message ++ "\n")
      pure 1
    | .ok outcome => do
      Console.print (summaryText outcome)
      Console.complain (errorText outcome)
      pure (if outcome.hasErrors then 1 else 0)
  | .namespaces => do
    Console.print (namespacesTable.render ++ "\n")
    pure 0

end Program

end Concordance
