import Concordance.Terminal.Program

/-!
# Runs at a desk

A run of the program on a tree of files, with everything that it prints and reports kept.  The
journal goes to the error output or to the end of a file of the tree, where the run itself may come
across it.
-/

namespace Concordance

/-- A tree of files with the journal and what has been printed. -/
structure Desk where
  tree : FileTree
  journal : Journal
  logFile : Option Location
  output : String
  errors : String

namespace Desk

/-- Puts a line of the journal where it belongs. -/
def enter (desk : Desk) (line : String) : Desk :=
  match desk.logFile with
  | some location => { desk with tree := desk.tree.append location line.toUTF8 }
  | none => { desk with errors := desk.errors ++ line }

/-- Changes the tree, if the change succeeds. -/
def attempt (change : FileTree → Except IoError FileTree) (desk : Desk) :
    Except IoError Unit × Desk :=
  let (outcome, tree) := desk.tree.attempt change
  (outcome, { desk with tree })

instance : Console (StateM Desk) where
  isDirectory path := fun desk => (desk.tree.isDirectory path, desk)
  entries path := fun desk => (desk.tree.entries path, desk)
  read path := fun desk => (desk.tree.read path, desk)
  makeDirectory path := attempt (·.makeDirectory path)
  write path content := attempt (·.write path content)
  report report := fun desk =>
    match desk.journal.line? report with
    | some line => ((), desk.enter line)
    | none => ((), desk)
  print text := fun desk => ((), { desk with output := desk.output ++ text })
  complain text := fun desk => ((), { desk with errors := desk.errors ++ text })

/-- Opens the journal of a run on a tree.  A log file is made if it is not there. -/
def start (tree : FileTree) (config : JournalConfig) (environment : Option String) :
    Except IoError Desk := do
  let journal := config.journal environment
  match config.logFile with
  | none => .ok ⟨tree, journal, none, "", ""⟩
  | some path => do
    let location ← tree.openFile ⟨path⟩
    .ok ⟨tree.append location .empty, journal, some location, "", ""⟩

end Desk

/-- What is left of a run. -/
structure RunResult where
  exitCode : Nat
  output : String
  errors : String
  tree : FileTree

namespace Program

/-- Runs the program on a tree. -/
def simulate (tree : FileTree) (environment : Option String) (words : List String) : RunResult :=
  match opening words false with
  | .answer code output errors => ⟨code, output, errors, tree⟩
  | .command config command =>
    match Desk.start tree config environment with
    | .error error => ⟨1, "", noJournal error, tree⟩
    | .ok desk =>
      let (code, desk) := (execute command : StateM Desk Nat).run desk
      ⟨code, desk.output, desk.errors, desk.tree⟩

/-- Runs a batch on a tree with a journal, and prints nothing. -/
def simulateBatch (tree : FileTree) (config : JournalConfig) (environment : Option String)
    (inputs : List Path) (directory : Option Path) (isDry : Bool) : RunResult :=
  match Desk.start tree config environment with
  | .error error => ⟨1, "", error.message ++ "\n", tree⟩
  | .ok desk =>
    let (outcome, desk) := (compileAll inputs directory isDry : StateM Desk _).run desk
    let failed :=
      match outcome with
      | .ok outcome => outcome.hasErrors
      | .error _ => true
    ⟨if failed then 1 else 0, desk.output, desk.errors, desk.tree⟩

end Program

end Concordance
