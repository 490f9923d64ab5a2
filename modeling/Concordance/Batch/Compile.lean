import Concordance.Batch.Load
import Concordance.Digest.Sha256
import Concordance.Stylesheet.Report

/-!
# Compiling definitions

One definition file becomes one stylesheet, next to it or in a directory of its own.  A batch goes
through its files in order and collects what fails instead of stopping; a file whose stylesheet
would take a path that an earlier file has taken fails without being compiled.
-/

namespace Concordance

/-- Why a file or a batch was not compiled. -/
inductive CompileError where
  | noFileName (source : Path)
  | list (directory : Path) (cause : LoadError)
  | load (source : Path) (cause : LoadError)
  | generate (source : Path) (cause : StylesheetError)
  | makeDirectory (directory : Path) (cause : IoError)
  | write (path : Path) (cause : IoError)
  deriving Repr, DecidableEq

namespace CompileError

/-- The wordings of an error and of the causes behind it, outermost first. -/
def chain : CompileError → List String
  | .noFileName source => ["mapping path " ++ source.text ++ " has no file name"]
  | .list directory cause => ("list mappings in " ++ directory.text) :: cause.chain
  | .load source cause => ("load mapping " ++ source.text) :: cause.chain
  | .generate source cause => ["generate stylesheet for " ++ source.text, cause.message]
  | .makeDirectory directory cause => ["create output dir " ++ directory.text, cause.message]
  | .write path cause => ["write " ++ path.text, cause.message]

/-- The wording of an error with all its causes. -/
def message (error : CompileError) : String :=
  ": ".intercalate error.chain

end CompileError

/-- Where the stylesheet of a source goes: under the stem of the source, into the given directory or
else next to the source. -/
def outputPath (source : Path) (directory : Option Path) : Except CompileError Path :=
  match source.stem? with
  | none => .error (.noFileName source)
  | some stem =>
    let directory := directory.getD (source.parent?.getD ⟨""⟩)
    .ok (directory.join (stem ++ ".xsl"))

/-- What became of one source: where its stylesheet went, unless nothing was to be written, and what
the stylesheet is like. -/
structure Summary where
  source : Path
  output : Option Path
  children : Nat
  bytes : Nat
  sha256 : String
  deriving Repr, DecidableEq

/-- What became of a batch. -/
structure Outcome where
  files : List Summary
  errors : List String
  isDry : Bool
  deriving Repr, DecidableEq

def Outcome.hasErrors (outcome : Outcome) : Bool :=
  !outcome.errors.isEmpty

/-- The part of the program that reports on compilation. -/
def compileTarget : String := "crosswalk_cli::compile"

def compileEvent (level : Level) (message : String) (fields : Fields) : Event :=
  ⟨level, compileTarget, message, fields⟩

def compileSpan (source : Path) : Span :=
  ⟨"compile", .info, compileTarget, [("file", .text source.text)]⟩

variable {m : Type → Type} [Monad m] [Host m]

/-- Makes the reports one after another. -/
def reportAll : List Report → m Unit
  | [] => pure ()
  | report :: rest => do
    Host.report report
    reportAll rest

/-- The sources that one input stands for: the definition files inside it if it is a directory, and
itself otherwise. -/
def expandInput (input : Path) : m (Except CompileError (List Path)) := do
  if ← Host.isDirectory input then
    match ← discover input with
    | .error error => pure (.error (.list input error))
    | .ok [] => do
      Host.report (.event []
        (compileEvent .warn "no mapping files found" [("dir", .text input.text)]))
      pure (.ok [])
    | .ok files => pure (.ok files)
  else pure (.ok [input])

/-- The sources that inputs stand for, one input after another. -/
def expandInputs : List Path → m (Except CompileError (List Path))
  | [] => pure (.ok [])
  | input :: rest => do
    match ← expandInput input with
    | .error error => pure (.error error)
    | .ok files =>
      match ← expandInputs rest with
      | .error error => pure (.error error)
      | .ok others => pure (.ok (files ++ others))

/-- Writes a stylesheet where it belongs, into a directory that is made if need be. -/
def writeOutput (source : Path) (directory : Option Path) (content : ByteArray) :
    m (Except CompileError Path) := do
  match outputPath source directory with
  | .error error => pure (.error error)
  | .ok path =>
    let parent := path.parent?.getD ⟨""⟩
    match ← makeDirectories parent with
    | .error error => pure (.error (.makeDirectory parent error))
    | .ok () =>
      match ← Host.write path content with
      | .error error => pure (.error (.write path error))
      | .ok () => do
        Host.report (.event [compileSpan source] (compileEvent .info "wrote stylesheet"
          [("output", .text path.text), ("bytes", .count content.size)]))
        pure (.ok path)

/-- The work on one source. -/
def compileSource (source : Path) (directory : Option Path) (isDry : Bool) :
    m (Except CompileError Summary) := do
  match ← loadResolved source with
  | .error error => pure (.error (.load source error))
  | .ok resolved => do
    let stylesheet := resolved.crosswalk.stylesheet resolved.container
    reportAll (resolved.crosswalk.reports resolved.container [compileSpan source])
    match stylesheet with
    | .error error => pure (.error (.generate source error))
    | .ok text =>
      let content := text.toUTF8
      let summary (output : Option Path) : Summary :=
        ⟨source, output, resolved.crosswalk.children.length, content.size,
          Sha256.hexDigest content⟩
      if isDry then pure (.ok (summary none))
      else
        match ← writeOutput source directory content with
        | .error error => pure (.error error)
        | .ok path => pure (.ok (summary (some path)))

def compileFile (source : Path) (directory : Option Path) (isDry : Bool) :
    m (Except CompileError Summary) := do
  let outcome ← compileSource source directory isDry
  Host.report (.closed [] (compileSpan source))
  pure outcome

/-- Compiles sources one after another.  `taken` holds the output paths of those before, each with
its source. -/
def compileSources (directory : Option Path) (isDry : Bool) (taken : List (Path × Path)) :
    List Path → m (List Summary × List String)
  | [] => pure ([], [])
  | source :: rest => do
    match outputPath source directory with
    | .error error => do
      let (files, errors) ← compileSources directory isDry taken rest
      pure (files, error.message :: errors)
    | .ok output =>
      match taken.find? (fun pair => pair.1.same output) with
      | some (_, owner) => do
        Host.report (.event [] (compileEvent .warn "output already claimed"
          [("file", .text source.text), ("output", .text output.text)]))
        let (files, errors) ← compileSources directory isDry taken rest
        pure (files, (source.text ++ " would overwrite " ++ output.text ++
          ", already produced from " ++ owner.text) :: errors)
      | none =>
        match ← compileFile source directory isDry with
        | .ok summary => do
          let (files, errors) ← compileSources directory isDry ((output, source) :: taken) rest
          pure (summary :: files, errors)
        | .error error => do
          Host.report (.event [] (compileEvent .warn ("compilation failed: " ++ error.message)
            [("file", .text source.text)]))
          let (files, errors) ← compileSources directory isDry ((output, source) :: taken) rest
          pure (files, error.message :: errors)

/-- Compiles every input, each directory standing for the definition files inside it. -/
def compileAll (inputs : List Path) (directory : Option Path) (isDry : Bool) :
    m (Except CompileError Outcome) := do
  match ← expandInputs inputs with
  | .error error => pure (.error error)
  | .ok sources => do
    let (files, errors) ← compileSources directory isDry [] sources
    Host.report (.event [] (compileEvent .info "compilation finished"
      [("compiled", .count files.length), ("failed", .count errors.length),
        ("dry_run", .flag isDry)]))
    pure (.ok ⟨files, errors, isDry⟩)

end Concordance
