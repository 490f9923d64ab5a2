import Concordance.Terminal.Program

/-!
# The command

Carries the program out on the machine that it is called on.  The journal goes to the error output
or to the end of a log file, as the call asks.
-/

namespace Concordance

/-- A journal with the stream that takes its lines. -/
structure Channel where
  journal : Journal
  stream : IO.FS.Stream

/-- Actions on the machine, with a journal at hand. -/
abbrev Machine := ReaderT Channel IO

namespace Machine

/-- The number of an answer of the system, which may be given negated. -/
def answerNumber (code : UInt32) : UInt32 :=
  min code (0 - code)

/-- What an answer of the system means. -/
def ioError : IO.Error → IoError
  | .noFileOrDirectory .. => .notFound
  | .alreadyExists .. => .alreadyExists
  | .inappropriateType _ code words =>
    if answerNumber code = 20 then .notDirectory
    else if answerNumber code = 21 then .isDirectory
    else .other words
  | .invalidArgument _ code words =>
    if answerNumber code = 36 then .nameTooLong else .other words
  | .permissionDenied _ code words =>
    .other (words ++ " (os error " ++ toString (answerNumber code) ++ ")")
  | error => .other error.toString

/-- An action of the system, with its failure as a value. -/
def attempt {α : Type} (action : IO α) : Machine (Except IoError α) := do
  match ← action.toBaseIO with
  | .ok value => pure (.ok value)
  | .error error => pure (.error (ioError error))

/-- The entries of a directory, each with whether it is a file. -/
def list (path : Path) : IO (List (String × Bool)) := do
  let entries ← (System.mkFilePath [path.text]).readDir
  entries.toList.mapM fun entry => do
    match ← entry.path.metadata.toBaseIO with
    | .ok metadata => pure (entry.fileName, metadata.type matches .file)
    | .error _ => pure (entry.fileName, false)

instance : Console Machine where
  isDirectory path := (System.mkFilePath [path.text]).isDir
  entries path := attempt (list path)
  read path := attempt (IO.FS.readBinFile path.text)
  makeDirectory path := attempt (IO.FS.createDir path.text)
  write path content := attempt (IO.FS.writeBinFile path.text content)
  report report := do
    let channel ← read
    match channel.journal.line? report with
    | some line => do
      channel.stream.putStr line
      channel.stream.flush
    | none => pure ()
  print text := do
    let stream ← IO.getStdout
    stream.putStr text
    stream.flush
  complain text := do (← IO.getStderr).putStr text

/-- Opens the stream of a journal.  A log file is made if it is not there. -/
def openStream : Option String → IO IO.FS.Stream
  | some path => do pure (.ofHandle (← IO.FS.Handle.mk path .append))
  | none => IO.getStderr

/-- Carries out a command with the journal that is asked for. -/
def carryOut (config : JournalConfig) (command : Command) : IO Nat := do
  let journal := config.journal (← IO.getEnv "RUST_LOG")
  match ← (openStream config.logFile).toBaseIO with
  | .ok stream => (Program.execute command : Machine Nat).run ⟨journal, stream⟩
  | .error error => do
    (← IO.getStderr).putStr (Program.noJournal (ioError error))
    pure 1

end Machine

end Concordance

open Concordance in
/-- Runs the program with the words of a call. -/
def main (words : List String) : IO UInt32 := do
  let errors ← IO.getStderr
  match Program.opening words (← errors.isTty) with
  | .answer code output complaint => do
    (← IO.getStdout).putStr output
    errors.putStr complaint
    pure code.toUInt32
  | .command config command => do
    pure (← Machine.carryOut config command).toUInt32
