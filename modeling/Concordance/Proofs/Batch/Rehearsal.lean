import Concordance.Proofs.Batch.Accounting

/-!
# A dry run rehearses a real one

A dry run leaves the tree as it is and tells what a real run from the same tree would come to.  The
two go through the same sources and refuse the same collisions.  A source that fails in the dry run
fails in the real one, and a source that is compiled in the dry run is compiled in the real one to
the same stylesheet, unless the directory of its output cannot be made or the output cannot be
written.

The proof runs both in step.  The dry run stays at the first tree, and the real one is at a tree
with directories and stylesheets added to it, in which definitions are read as they were.
-/

namespace Concordance

open FileTree

/-! ## One source in both runs -/

/-- The summary that a dry run gives in place of the given one. -/
def Summary.dry (summary : Summary) : Summary :=
  { summary with output := none }

/-- A stylesheet could not be put where it belongs: either its directory was not made, or the file
was not written. -/
inductive CompileError.Unplaced (output : Path) : CompileError → Prop
  | directory (cause : IoError) : Unplaced output (.makeDirectory output.outer cause)
  | file (cause : IoError) : Unplaced output (.write output cause)

/-- What becomes of a source in a dry run, and then in a real run. -/
inductive Rehearses (directory : Option Path) (source : Path) : Fate → Fate → Prop
  | compiled {summary : Summary} {output : Path}
      (hsource : summary.source = source) (houtput : outputPath source directory = .ok output)
      (hsummary : summary.output = some output) :
      Rehearses directory source (.compiled summary.dry) (.compiled summary)
  | unplaced {summary : Summary} {output : Path} {error : CompileError}
      (hsource : summary.source = source) (houtput : outputPath source directory = .ok output)
      (herror : error.Unplaced output) :
      Rehearses directory source (.compiled summary.dry) (.refused error)
  | refused (error error' : CompileError) :
      Rehearses directory source (.refused error) (.refused error')
  | collided (output owner : Path) :
      Rehearses directory source (.collided source output owner) (.collided source output owner)

section Trees

variable {before tree : FileTree} {directory : Option Path}

/-- Definitions are read in a tree that a batch has reached as they were at the beginning. -/
theorem Reached.kept (h : Reached before directory tree) : before.Kept tree := by
  cases directory with
  | none => exact Restyled.kept h
  | some folder =>
    have hopened : before.Kept
        ((makeDirectories (Path.ofParts folder.folder) : StateM FileTree _).run before).2 :=
      (rewritten_makeDirectories rfl).kept
    rcases h with rfl | rfl | ⟨-, h⟩
    · exact Kept.refl tree
    · exact hopened
    · exact hopened.trans h.kept

end Trees

section Sources

variable {before tree : FileTree} {directory : Option Path} {source output : Path}

/-- A stylesheet is written where it belongs, unless it cannot be put there. -/
theorem writeOutput_cases (houtput : outputPath source directory = .ok output)
    (content : ByteArray) (tree : FileTree) :
    ∃ result after, (writeOutput source directory content : StateM FileTree _).run tree =
      (result, after) ∧ (result = .ok output ∨ ∃ error, result = .error error ∧
        error.Unplaced output) := by
  have hputs := puts_writeOutput source directory content tree
  rcases hrun : (writeOutput source directory content : StateM FileTree _).run tree
    with ⟨result, after⟩
  rw [hrun] at hputs
  refine ⟨result, after, rfl, ?_⟩
  cases hputs with
  | nameless houtput' => cases houtput.symm.trans houtput'
  | unmade houtput' hmade =>
    cases houtput.symm.trans houtput'
    exact Or.inr ⟨_, rfl, .directory _⟩
  | unopened houtput' hmade hopen =>
    cases houtput.symm.trans houtput'
    exact Or.inr ⟨_, rfl, .file _⟩
  | written houtput' hmade hopen =>
    cases houtput.symm.trans houtput'
    exact Or.inl rfl

/-- A source that is compiled in both runs. -/
theorem compileFile_rehearses (h : Reached before directory tree)
    (houtput : outputPath source directory = .ok output) (plain : source.IsPlain) :
    ∃ dry real after,
      (compileFile source directory true : StateM FileTree _).run before = (dry, before) ∧
      (compileFile source directory false : StateM FileTree _).run tree = (real, after) ∧
      Reached before directory after ∧
      Rehearses directory source (.ofResult dry) (.ofResult real) := by
  obtain ⟨real, after, hreal, hafter, -⟩ := h.compileFile houtput plain
  have halike := draft_alike h.kept plain
  cases hbefore : draft source (before.read source) with
  | error error =>
    rw [hbefore] at halike
    cases htree : draft source (tree.read source) with
    | ok drafted =>
      rw [htree] at halike
      cases halike
    | error error' =>
      rw [compileFile_of_draft_error htree] at hreal
      cases hreal
      exact ⟨_, _, _, compileFile_of_draft_error hbefore, compileFile_of_draft_error htree, h,
        .refused error error'⟩
  | ok drafted =>
    rw [hbefore] at halike
    have htree : draft source (tree.read source) = .ok drafted := toOption_eq_some_iff.mp halike
    have hdry : (compileFile source directory true : StateM FileTree _).run before =
        (.ok (.ofDraft source drafted none), before) := by
      rw [compileFile_run, hbefore]
      rfl
    obtain ⟨result, after', hwrite, hresult⟩ :=
      writeOutput_cases houtput drafted.2.toUTF8 tree
    have hreal' := compileFile_of_draft htree hwrite
    obtain ⟨rfl, rfl⟩ := Prod.mk.inj (hreal'.symm.trans hreal)
    refine ⟨_, _, _, hdry, hreal', hafter, ?_⟩
    rcases hresult with rfl | ⟨error, rfl, herror⟩
    · exact @Rehearses.compiled _ _ (.ofDraft source drafted (some output)) _ rfl houtput rfl
    · exact @Rehearses.unplaced _ _ (.ofDraft source drafted none) _ _ rfl houtput herror

end Sources

/-! ## Sources one after another -/

/-- What a batch does with its next source: the fate of the source, the tree that it leaves, and the
paths that are taken then. -/
inductive Step (directory : Option Path) (isDry : Bool) (taken : List (Path × Path))
    (tree : FileTree) (source : Path) : Fate → FileTree → List (Path × Path) → Prop
  | nameless {error : CompileError} (houtput : outputPath source directory = .error error) :
      Step directory isDry taken tree source (.refused error) tree taken
  | collided {output path owner : Path} (houtput : outputPath source directory = .ok output)
      (hfind : taken.find? (fun pair => pair.1.same output) = some (path, owner)) :
      Step directory isDry taken tree source (.collided source output owner) tree taken
  | compiled {output : Path} {result : Except CompileError Summary} {after : FileTree}
      (houtput : outputPath source directory = .ok output)
      (hfind : taken.find? (fun pair => pair.1.same output) = none)
      (hrun : (compileFile source directory isDry : StateM FileTree _).run tree =
        (result, after)) :
      Step directory isDry taken tree source (.ofResult result) after ((output, source) :: taken)

/-- The summaries and the errors of a batch with the given fates. -/
def Fate.collect (fates : List Fate) : List Summary × List String :=
  (fates.filterMap Fate.summary?, fates.filterMap Fate.error?)

section Batches

variable {before tree middle after : FileTree} {directory : Option Path} {isDry : Bool}
  {taken taken' : List (Path × Path)} {source : Path} {sources : List Path}
  {fate : Fate} {fates : List Fate}

theorem compileSources_cons (hstep : Step directory isDry taken tree source fate middle taken')
    (hrest : (compileSources directory isDry taken' sources : StateM FileTree _).run middle =
      (Fate.collect fates, after)) :
    (compileSources directory isDry taken (source :: sources) : StateM FileTree _).run tree =
      (Fate.collect (fate :: fates), after) := by
  unfold compileSources
  cases hstep with
  | nameless houtput =>
    rw [houtput]
    exact bind_apply_eq hrest
  | collided houtput hfind =>
    simp only [houtput, hfind]
    exact (bind_apply_eq rfl).trans (bind_apply_eq hrest)
  | @compiled _ result _ houtput hfind hrun =>
    simp only [houtput, hfind]
    refine (bind_apply_eq hrun).trans ?_
    cases result with
    | ok summary => exact bind_apply_eq hrest
    | error error => exact (bind_apply_eq rfl).trans (bind_apply_eq hrest)

/-- The next source takes a step in both runs, after which the same paths are taken. -/
theorem exists_step_rehearses (h : Reached before directory tree) (plain : source.IsPlain)
    (taken : List (Path × Path)) :
    ∃ dry real after taken', Step directory true taken before source dry before taken' ∧
      Step directory false taken tree source real after taken' ∧
      Reached before directory after ∧ Rehearses directory source dry real := by
  cases houtput : outputPath source directory with
  | error error =>
    exact ⟨_, _, _, _, .nameless houtput, .nameless houtput, h, .refused error error⟩
  | ok output =>
    cases hfind : taken.find? (fun pair => pair.1.same output) with
    | some pair =>
      exact ⟨_, _, _, _, .collided houtput hfind, .collided houtput hfind, h,
        .collided output pair.2⟩
    | none =>
      obtain ⟨dry, real, after, hdry, hreal, hafter, hrehearses⟩ :=
        compileFile_rehearses h houtput plain
      exact ⟨_, _, _, _, .compiled houtput hfind hdry, .compiled houtput hfind hreal, hafter,
        hrehearses⟩

/-- The fates of the sources in a dry run and in a real run, in the order of the sources. -/
def RehearsesAll (directory : Option Path) (sources : List Path) (fates : List (Fate × Fate)) :
    Prop :=
  List.Forall₂ (fun source pair => Rehearses directory source pair.1 pair.2) sources fates

theorem compileSources_rehearses (plain : ∀ source ∈ sources, source.IsPlain)
    (taken : List (Path × Path)) (h : Reached before directory tree) :
    ∃ fates after,
      (compileSources directory true taken sources : StateM FileTree _).run before =
        (Fate.collect (fates.map Prod.fst), before) ∧
      (compileSources directory false taken sources : StateM FileTree _).run tree =
        (Fate.collect (fates.map Prod.snd), after) ∧
      RehearsesAll directory sources fates := by
  induction sources generalizing taken tree with
  | nil => exact ⟨[], tree, rfl, rfl, .nil⟩
  | cons source sources ih =>
    obtain ⟨hsource, hsources⟩ := List.forall_mem_cons.mp plain
    obtain ⟨dry, real, middle, taken', hdry, hreal, hmiddle, hrehearses⟩ :=
      exists_step_rehearses h hsource taken
    obtain ⟨fates, after, hdrys, hreals, hall⟩ := ih hsources taken' hmiddle
    exact ⟨(dry, real) :: fates, after, compileSources_cons hdry hdrys,
      compileSources_cons hreal hreals, .cons hrehearses hall⟩

end Batches

/-! ## The two outcomes -/

/-- What a dry run tells of a real one.  Each source has a fate in either run, and the two belong
together; the dry run writes nothing, and what the real run has compiled is among what the dry run
has, in the same order. -/
structure Rehearsed (directory : Option Path) (sources : List Path) (dry real : Outcome) :
    Prop where
  fates : ∃ fates, RehearsesAll directory sources fates ∧
    (dry.files, dry.errors) = Fate.collect (fates.map Prod.fst) ∧
    (real.files, real.errors) = Fate.collect (fates.map Prod.snd)
  output_eq : ∀ summary ∈ dry.files, summary.output = none
  sublist : (real.files.map Summary.dry).Sublist dry.files

theorem output_eq_none_of_rehearsesAll {directory : Option Path} {sources : List Path}
    {fates : List (Fate × Fate)} (h : RehearsesAll directory sources fates) :
    ∀ summary ∈ (fates.map Prod.fst).filterMap Fate.summary?, summary.output = none := by
  induction h with
  | nil => simp
  | @cons source pair sources fates hpair _ ih =>
    rcases pair with ⟨dry, real⟩
    rw [List.map_cons]
    cases hpair with
    | compiled | unplaced => exact List.forall_mem_cons.mpr ⟨rfl, ih⟩
    | refused | collided => exact ih

theorem sublist_of_rehearsesAll {directory : Option Path} {sources : List Path}
    {fates : List (Fate × Fate)} (h : RehearsesAll directory sources fates) :
    (((fates.map Prod.snd).filterMap Fate.summary?).map Summary.dry).Sublist
      ((fates.map Prod.fst).filterMap Fate.summary?) := by
  induction h with
  | nil => exact List.Sublist.refl []
  | @cons source pair sources fates hpair _ ih =>
    rcases pair with ⟨dry, real⟩
    rw [List.map_cons, List.map_cons]
    cases hpair with
    | compiled => exact ih.cons_cons _
    | unplaced => exact ih.cons _
    | refused | collided => exact ih

/-- From one tree, a dry run and a real run either fail alike to list their inputs, or both end, and
the dry run tells of the real one. -/
theorem compileAll_rehearsed {tree : FileTree} (hnamed : tree.IsNamed) {inputs : List Path}
    (plain : ∀ input ∈ inputs, input.IsPlain) (directory : Option Path) :
    (∃ error,
      (compileAll inputs directory true : StateM FileTree _).run tree = (.error error, tree) ∧
      (compileAll inputs directory false : StateM FileTree _).run tree = (.error error, tree)) ∨
    ∃ sources dry real after,
      (expandInputs inputs : StateM FileTree _).run tree = (.ok sources, tree) ∧
      (compileAll inputs directory true : StateM FileTree _).run tree = (.ok dry, tree) ∧
      (compileAll inputs directory false : StateM FileTree _).run tree = (.ok real, after) ∧
      Rehearsed directory sources dry real := by
  obtain ⟨expansion, hexpanded, -⟩ := expandInputs_idle inputs tree []
  cases expansion with
  | error error =>
    exact Or.inl ⟨error, (bind_apply_eq hexpanded).trans rfl, (bind_apply_eq hexpanded).trans rfl⟩
  | ok sources =>
    have hplain := isPlain_of_mem_expandInputs hnamed plain hexpanded
    obtain ⟨fates, after, hdry, hreal, hall⟩ :=
      compileSources_rehearses hplain [] (Reached.refl tree directory)
    refine Or.inr ⟨sources, ⟨_, _, true⟩, ⟨_, _, false⟩, after, hexpanded,
      (bind_apply_eq hexpanded).trans ((bind_apply_eq hdry).trans rfl),
      (bind_apply_eq hexpanded).trans ((bind_apply_eq hreal).trans rfl), ?_⟩
    constructor
    · exact ⟨fates, hall, rfl, rfl⟩
    · exact output_eq_none_of_rehearsesAll hall
    · exact sublist_of_rehearsesAll hall

/-- A definition, one that is missing, and one whose output collides with that of the first. -/
theorem threeDefinitions_rehearsed :
    let inputs : List Path := [⟨"a.json"⟩, ⟨"missing.json"⟩, ⟨"a.JSON"⟩]
    threeDefinitions.IsNamed ∧ (∀ input ∈ inputs, input.IsPlain) ∧
      ∃ dry real after,
        (compileAll inputs (some ⟨"out"⟩) true : StateM FileTree _).run threeDefinitions =
          (.ok dry, threeDefinitions) ∧
        (compileAll inputs (some ⟨"out"⟩) false : StateM FileTree _).run threeDefinitions =
          (.ok real, after) ∧
        Rehearsed (some ⟨"out"⟩) inputs dry real := by
  intro inputs
  have hplain : ∀ input ∈ inputs, input.IsPlain := by decide
  have hexpanded : ((expandInputs inputs : StateM FileTree _).run threeDefinitions).1.toOption =
      some inputs := by
    decide +kernel
  refine ⟨isNamed_threeDefinitions, hplain, ?_⟩
  rcases compileAll_rehearsed isNamed_threeDefinitions hplain (some ⟨"out"⟩) with
    ⟨error, hdry, -⟩ | ⟨sources, dry, real, after, hsources, hdry, hreal, hrehearsed⟩
  · have hok : ((compileAll inputs (some ⟨"out"⟩) true :
        StateM FileTree _).run threeDefinitions).1.isOk = true := by
      decide +kernel
    rw [hdry] at hok
    cases hok
  · rw [hsources] at hexpanded
    cases hexpanded
    exact ⟨dry, real, after, hdry, hreal, hrehearsed⟩

end Concordance
