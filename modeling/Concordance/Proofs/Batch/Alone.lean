import Concordance.Proofs.Batch.Tracking
import Concordance.Proofs.Disk.Making
import Concordance.Proofs.Disk.Rewriting

/-!
# Compiling one source of a batch

What becomes of a source does not depend on what became of those before it.  They have made the
directory of the outputs or have failed to, and have written stylesheets; the definition is still
read as before, and its stylesheet may still be written if it might have been at the beginning.

The trees that a batch goes through are described by what it takes for the next source to end as it
would have ended at the beginning.  Without a directory for the outputs every source that is read
has its directory already, and only stylesheets are written.  In a given directory the first source
that gets so far decides whether the directory can be made.
-/

namespace Concordance

open FileTree

/-! ## Runs -/

/-- What is made of the bytes of a definition file. -/
def loaded (source : Path) : Except IoError ByteArray → Except LoadError Resolved
  | .error error => .error (.unreadable source error)
  | .ok content =>
    match Definition.ofFile source content with
    | .error error => .error error
    | .ok definition => definition.resolve.mapError .unresolved

theorem loadResolved_apply (source : Path) (tree : FileTree) :
    (loadResolved source : StateM FileTree _) tree = (loaded source (tree.read source), tree) := by
  have hread : (Host.read source : StateM FileTree _) tree = (tree.read source, tree) := rfl
  have hload : (loadDefinition source : StateM FileTree _) tree =
      (match tree.read source with
        | .error error => .error (.unreadable source error)
        | .ok content => Definition.ofFile source content, tree) := by
    refine (bind_apply_eq hread).trans ?_
    cases tree.read source <;> rfl
  refine (bind_apply_eq hload).trans ?_
  cases tree.read source with
  | error error => rfl
  | ok content =>
    simp only [loaded]
    cases Definition.ofFile source content <;> rfl

/-- What is made of a definition before anything is written: its crosswalk and the stylesheet. -/
def draft (source : Path) (content : Except IoError ByteArray) :
    Except CompileError (Resolved × String) :=
  match loaded source content with
  | .error error => .error (.load source error)
  | .ok resolved =>
    match resolved.crosswalk.stylesheet resolved.container with
    | .error error => .error (.generate source error)
    | .ok text => .ok (resolved, text)

/-- The summary of a stylesheet. -/
def Summary.ofDraft (source : Path) (drafted : Resolved × String)
    (output : Option Path) : Summary :=
  ⟨source, output, drafted.1.crosswalk.children.length, drafted.2.toUTF8.size,
    Sha256.hexDigest drafted.2.toUTF8⟩

section Runs

variable {source output : Path} {directory : Option Path} {isDry : Bool} {tree after : FileTree}
  {content : ByteArray}

theorem reportAll_apply (reports : List Report) (tree : FileTree) :
    (reportAll reports : StateM FileTree _) tree = ((), tree) := by
  obtain ⟨_, halone, -⟩ := reportAll_idle reports tree []
  exact halone

/-- What is left to do with a stylesheet: nothing in a dry run, and else to write it. -/
def settle (source : Path) (directory : Option Path) (isDry : Bool)
    (drafted : Resolved × String) : StateM FileTree (Except CompileError Summary) :=
  if isDry then pure (.ok (.ofDraft source drafted none))
  else do
    match ← writeOutput source directory drafted.2.toUTF8 with
    | .error error => pure (.error error)
    | .ok path => pure (.ok (.ofDraft source drafted (some path)))

/-- The work on a source is to draft its stylesheet, which leaves the tree alone, and to settle
it. -/
theorem compileFile_run (source : Path) (directory : Option Path) (isDry : Bool)
    (tree : FileTree) :
    (compileFile source directory isDry : StateM FileTree _).run tree =
      match draft source (tree.read source) with
      | .error error => (.error error, tree)
      | .ok drafted => (settle source directory isDry drafted).run tree := by
  have hsource : (compileFile source directory isDry : StateM FileTree _).run tree =
      (compileSource source directory isDry : StateM FileTree _) tree := rfl
  rw [hsource]
  refine (bind_apply_eq (loadResolved_apply source tree)).trans ?_
  unfold draft
  cases loaded source (tree.read source) with
  | error cause => rfl
  | ok resolved =>
    refine (bind_apply_eq (reportAll_apply _ tree)).trans ?_
    dsimp only
    cases resolved.crosswalk.stylesheet resolved.container with
    | error cause => rfl
    | ok text => rfl

theorem compileFile_of_draft_error {error : CompileError}
    (h : draft source (tree.read source) = .error error) :
    (compileFile source directory isDry : StateM FileTree _).run tree = (.error error, tree) := by
  rw [compileFile_run, h]

theorem compileFile_of_draft {drafted : Resolved × String}
    (h : draft source (tree.read source) = .ok drafted) {result : Except CompileError Path}
    (hwrite : (writeOutput source directory drafted.2.toUTF8 : StateM FileTree _).run tree =
      (result, after)) :
    (compileFile source directory false : StateM FileTree _).run tree =
      (result.map fun path => .ofDraft source drafted (some path), after) := by
  rw [compileFile_run, h]
  refine (bind_apply_eq hwrite).trans ?_
  cases result with
  | error error => rfl
  | ok path => rfl

end Runs

/-! ## Outputs -/

/-- The directory that an output goes into. -/
def Path.outer (output : Path) : Path :=
  output.parent?.getD ⟨""⟩

section Outputs

variable {source output : Path} {directory : Option Path} {tree : FileTree}

theorem exists_stem_of_outputPath (h : outputPath source directory = .ok output) :
    ∃ stem, source.stem? = some stem ∧
      output = (directory.getD (source.parent?.getD ⟨""⟩)).join (stem ++ ".xsl") := by
  unfold outputPath at h
  split at h
  · cases h
  · next stem hstem =>
    cases h
    exact ⟨stem, hstem, rfl⟩

theorem isStylesheet_of_outputPath (h : outputPath source directory = .ok output)
    (here : Location) : (output.location here).IsStylesheet := by
  obtain ⟨stem, hstem, rfl⟩ := exists_stem_of_outputPath h
  rw [Path.location_join here _ (Path.isName_stylesheet hstem)]
  exact ⟨_, stem, rfl⟩

theorem isStylesheet_of_openFile (h : outputPath source directory = .ok output)
    {location : Location} (hopen : tree.openFile output = .ok location) :
    location.IsStylesheet := by
  rw [eq_location_of_locate (openFile_eq_ok hopen).1]
  exact isStylesheet_of_outputPath h tree.here

theorem isTrimmed_outer (output : Path) : IsTrimmed output.outer := by
  unfold Path.outer
  cases hparent : output.parent? with
  | none => exact isTrimmed_of_getLast? (by decide)
  | some parent => exact isTrimmed_parent hparent

/-- In a given directory all outputs go into one place. -/
theorem outer_of_outputPath_some {folder : Path}
    (h : outputPath source (some folder) = .ok output) :
    output.outer = Path.ofParts folder.folder := by
  obtain ⟨stem, hstem, rfl⟩ := exists_stem_of_outputPath h
  rw [Path.outer, Option.getD_some, Path.parent?_join folder (Path.isName_stylesheet hstem),
    Option.getD_some]

/-- Next to a source that is read the directory is there. -/
theorem isMade_outer_of_read (h : outputPath source none = .ok output) {content : ByteArray}
    (hread : tree.read source = .ok content) : tree.IsMade output.outer := by
  obtain ⟨stem, hstem, rfl⟩ := exists_stem_of_outputPath h
  obtain ⟨parent, hparent⟩ := Path.exists_parent?_of_stem? hstem
  obtain ⟨location, hlocate, -⟩ := FileTree.read_eq_ok_iff.mp hread
  rw [Path.outer, Option.getD_none, hparent, Option.getD_some,
    Path.parent?_join_parent hparent (Path.isName_stylesheet hstem), Option.getD_some]
  exact isDirectory_parent hlocate hparent

end Outputs

section Writing

variable {source output : Path} {directory : Option Path} {tree after : FileTree}
  {content : ByteArray}

theorem writeOutput_of_refused (houtput : outputPath source directory = .ok output)
    {error : IoError}
    (h : (makeDirectories output.outer : StateM FileTree _).run tree = (.error error, after)) :
    (writeOutput source directory content : StateM FileTree _).run tree =
      (.error (.makeDirectory output.outer error), after) := by
  unfold writeOutput
  rw [houtput]
  exact (bind_apply_eq h).trans rfl

theorem writeOutput_of_made (houtput : outputPath source directory = .ok output)
    (h : (makeDirectories output.outer : StateM FileTree _).run tree = (.ok (), after)) :
    (writeOutput source directory content : StateM FileTree _).run tree =
      match after.openFile output with
      | .error error => (.error (.write output error), after)
      | .ok location => (.ok output, after.setAt location (.file content)) := by
  have hwrite : (Host.write output content : StateM FileTree _) after =
      match after.openFile output with
      | .error error => (.error error, after)
      | .ok location => (.ok (), after.setAt location (.file content)) := by
    change attempt (·.write output content) after = _
    cases hopen : after.openFile output with
    | error error => rw [attempt, FileTree.write, hopen]; rfl
    | ok location => rw [attempt, FileTree.write, hopen]; rfl
  unfold writeOutput
  rw [houtput]
  refine (bind_apply_eq h).trans ?_
  cases hopen : after.openFile output with
  | error error =>
    rw [hopen] at hwrite
    exact (bind_apply_eq hwrite).trans rfl
  | ok location =>
    rw [hopen] at hwrite
    exact (bind_apply_eq hwrite).trans rfl

/-- How writing an output ends, with the tree that it leaves: there is no path for it, or its
directory is not made, or the file cannot be written there, or it is written. -/
inductive Puts (source : Path) (directory : Option Path) (content : ByteArray) (tree : FileTree) :
    Except CompileError Path × FileTree → Prop
  | nameless {error : CompileError} (houtput : outputPath source directory = .error error) :
      Puts source directory content tree (.error error, tree)
  | unmade {output : Path} {error : IoError} {opened : FileTree}
      (houtput : outputPath source directory = .ok output)
      (hmade : (makeDirectories output.outer : StateM FileTree _).run tree =
        (.error error, opened)) :
      Puts source directory content tree (.error (.makeDirectory output.outer error), opened)
  | unopened {output : Path} {error : IoError} {opened : FileTree}
      (houtput : outputPath source directory = .ok output)
      (hmade : (makeDirectories output.outer : StateM FileTree _).run tree = (.ok (), opened))
      (hopen : opened.openFile output = .error error) :
      Puts source directory content tree (.error (.write output error), opened)
  | written {output : Path} {location : Location} {opened : FileTree}
      (houtput : outputPath source directory = .ok output)
      (hmade : (makeDirectories output.outer : StateM FileTree _).run tree = (.ok (), opened))
      (hopen : opened.openFile output = .ok location) :
      Puts source directory content tree (.ok output, opened.setAt location (.file content))

theorem puts_writeOutput (source : Path) (directory : Option Path) (content : ByteArray)
    (tree : FileTree) : Puts source directory content tree
      ((writeOutput source directory content : StateM FileTree _).run tree) := by
  cases houtput : outputPath source directory with
  | error error =>
    have hrun : (writeOutput source directory content : StateM FileTree _).run tree =
        (.error error, tree) := by
      rw [writeOutput, houtput]
      rfl
    rw [hrun]
    exact .nameless houtput
  | ok output =>
    rcases hmade : (makeDirectories output.outer : StateM FileTree _).run tree with ⟨made, opened⟩
    cases made with
    | error error =>
      rw [writeOutput_of_refused houtput hmade]
      exact .unmade houtput hmade
    | ok made =>
      rw [writeOutput_of_made houtput hmade]
      cases hopen : opened.openFile output with
      | error error => exact .unopened houtput hmade hopen
      | ok location => exact .written houtput hmade hopen

end Writing

/-! ## One source in a tree that others have changed -/

/-- A path does not go back over its steps. -/
def Path.IsPlain (path : Path) : Prop :=
  Component.parent ∉ path.components

instance (path : Path) : Decidable path.IsPlain :=
  inferInstanceAs (Decidable (Component.parent ∉ path.components))

section Alike

variable {source output : Path} {directory : Option Path} {base tree : FileTree}

theorem draft_eq_error_of_notation? (h : source.notation? = none)
    (content : Except IoError ByteArray) : (draft source content).toOption = none := by
  have hloaded : ∃ error, loaded source content = .error error := by
    cases content with
    | error error => exact ⟨_, rfl⟩
    | ok content =>
      rw [loaded, Definition.ofFile]
      cases String.fromUTF8? content with
      | none => exact ⟨_, rfl⟩
      | some text =>
        rw [h]
        exact ⟨_, rfl⟩
  obtain ⟨error, hloaded⟩ := hloaded
  rw [draft, hloaded]
  rfl

/-- A definition comes to the same stylesheet after directories were made and stylesheets
written. -/
theorem draft_alike (h : base.Kept tree) (plain : source.IsPlain) :
    (draft source (tree.read source)).toOption = (draft source (base.read source)).toOption := by
  cases hname : source.notation? with
  | none => rw [draft_eq_error_of_notation? hname, draft_eq_error_of_notation? hname]
  | some format =>
    have hread {content : ByteArray} :
        tree.read source = .ok content ↔ base.read source = .ok content :=
      h.read_eq_ok_iff plain (by rw [hname]; rfl)
    cases hbase : base.read source with
    | ok content => rw [hread.mpr hbase]
    | error error =>
      cases htree : tree.read source with
      | ok content =>
        rw [hread.mp htree] at hbase
        cases hbase
      | error error => rfl

/-- Where the directory of the output is there, what becomes of a source and what is written to the
tree is settled: neither depends on the stylesheets that were written before. -/
theorem exists_writes (houtput : outputPath source directory = .ok output)
    (hmade : ∀ content, base.read source = .ok content → base.IsMade output.outer) :
    ∃ (summary? : Option Summary) (writes : List (Location × ByteArray)),
      (∀ write ∈ writes, base.MayStyle write.1) ∧
      ∀ tree, base.Restyled tree →
        (draft source (tree.read source)).toOption = (draft source (base.read source)).toOption →
        ∃ result, (compileFile source directory false : StateM FileTree _).run tree =
          (result, tree.fill writes) ∧ result.toOption = summary? := by
  cases hbase : draft source (base.read source) with
  | error error =>
    refine ⟨none, [], by simp, fun tree _ halike => ?_⟩
    cases htree : draft source (tree.read source) with
    | error error' => exact ⟨_, compileFile_of_draft_error htree, rfl⟩
    | ok drafted =>
      rw [htree] at halike
      cases halike
  | ok drafted =>
    have hthere : base.IsMade output.outer := by
      cases hread : base.read source with
      | error error =>
        rw [hread] at hbase
        cases hbase
      | ok content => exact hmade content hread
    have hrun (tree : FileTree) (h : base.Restyled tree)
        (halike : (draft source (tree.read source)).toOption =
          (Except.ok drafted : Except CompileError _).toOption) :
        (compileFile source directory false : StateM FileTree _).run tree =
          match tree.openFile output with
          | .error error => (.error (.write output error), tree)
          | .ok location => (.ok (.ofDraft source drafted (some output)),
              tree.setAt location (.file drafted.2.toUTF8)) := by
      have htree : draft source (tree.read source) = .ok drafted := toOption_eq_some_iff.mp halike
      have hmade : tree.IsMade output.outer := by
        rw [IsMade, h.isDirectory_eq]
        exact hthere
      rw [compileFile_of_draft htree
        (writeOutput_of_made houtput (makeDirectories_of_isMade hmade))]
      cases tree.openFile output <;> rfl
    cases hopen : base.openFile output with
    | ok location =>
      refine ⟨some (.ofDraft source drafted (some output)), [(location, drafted.2.toUTF8)], ?_,
        fun tree h halike => ?_⟩
      · simpa using ⟨isStylesheet_of_openFile houtput hopen, output, hopen⟩
      · rw [hrun tree h halike, h.openFile_eq_ok_iff.mpr hopen]
        exact ⟨_, rfl, rfl⟩
    | error error =>
      refine ⟨none, [], by simp, fun tree h halike => ?_⟩
      rw [hrun tree h halike]
      cases htree : tree.openFile output with
      | error error' => exact ⟨_, rfl, rfl⟩
      | ok location =>
        rw [h.openFile_eq_ok_iff.mp htree] at hopen
        cases hopen

/-- A source that is compiled where only stylesheets were written. -/
theorem compileFile_of_restyled (houtput : outputPath source directory = .ok output)
    (halike : (draft source (tree.read source)).toOption =
      (draft source (base.read source)).toOption)
    (hmade : ∀ content, base.read source = .ok content → base.IsMade output.outer)
    (h : base.Restyled tree) :
    ∃ result after, (compileFile source directory false : StateM FileTree _).run tree =
      (result, after) ∧ base.Restyled after ∧ result.toOption =
        ((compileFile source directory false : StateM FileTree _).run base).1.toOption := by
  obtain ⟨summary?, writes, hwrites, hruns⟩ := exists_writes houtput hmade
  obtain ⟨result, hrun, hresult⟩ := hruns tree h halike
  obtain ⟨resultBase, hrunBase, hresultBase⟩ := hruns base (Restyled.refl base) rfl
  refine ⟨result, _, hrun, (h.fill hwrites).1, ?_⟩
  rw [hrunBase, hresult, hresultBase]

end Alike

/-! ## The trees that a batch goes through -/

/-- A tree that a batch may have reached, by where its outputs go.  In a given directory this is the
tree at the beginning, or the tree after the directory was made or was not to be made, with
stylesheets in it if it was made. -/
def Reached (before : FileTree) : Option Path → FileTree → Prop
  | none, tree => before.Restyled tree
  | some folder, tree =>
    let outer := Path.ofParts folder.folder
    let opened := ((makeDirectories outer : StateM FileTree _).run before).2
    tree = before ∨ tree = opened ∨ (opened.IsMade outer ∧ opened.Restyled tree)

theorem Reached.refl (before : FileTree) (directory : Option Path) :
    Reached before directory before := by
  cases directory with
  | none => exact Restyled.refl before
  | some folder => exact Or.inl rfl

section Steps

variable {source output : Path} {before opened : FileTree} {directory : Option Path}

/-- A source that is compiled after the directory was made, or was not to be made, ends as it would
have ended before, and so does the tree, unless nothing is changed by the source at all. -/
theorem compileFile_of_opened (houtput : outputPath source directory = .ok output)
    {made : Except IoError Unit}
    (hopened : (makeDirectories output.outer : StateM FileTree _).run before = (made, opened))
    (halike : (draft source (opened.read source)).toOption =
      (draft source (before.read source)).toOption) :
    ∃ result result' after,
      (compileFile source directory false : StateM FileTree _).run opened = (result, after) ∧
      ((compileFile source directory false : StateM FileTree _).run before = (result', before) ∧
          after = opened ∨
        (compileFile source directory false : StateM FileTree _).run before = (result', after)) ∧
      result.toOption = result'.toOption ∧
      (after = opened ∨ (opened.IsMade output.outer ∧ opened.Restyled after)) := by
  cases hbefore : draft source (before.read source) with
  | error error =>
    rw [hbefore] at halike
    cases hthen : draft source (opened.read source) with
    | ok drafted =>
      rw [hthen] at halike
      cases halike
    | error error' =>
      exact ⟨_, _, _, compileFile_of_draft_error hthen,
        Or.inl ⟨compileFile_of_draft_error hbefore, rfl⟩, rfl, Or.inl rfl⟩
  | ok drafted =>
    rw [hbefore] at halike
    have hthen : draft source (opened.read source) = .ok drafted := toOption_eq_some_iff.mp halike
    cases made with
    | error error =>
      obtain ⟨again, hagain⟩ := makeDirectories_again (isTrimmed_outer output) hopened
      exact ⟨_, _, _, compileFile_of_draft hthen (writeOutput_of_refused houtput hagain),
        Or.inr (compileFile_of_draft hbefore (writeOutput_of_refused houtput hopened)), rfl,
        Or.inl rfl⟩
    | ok made =>
      have hmade := isMade_of_makeDirectories (isTrimmed_outer output) hopened
      obtain ⟨result, after, hresult, hrestyled, -⟩ :=
        compileFile_of_restyled houtput rfl (fun _ _ => hmade) (Restyled.refl opened)
      -- in both trees the output is opened in the tree with the directory
      have hsame : (compileFile source directory false : StateM FileTree _).run before =
          (compileFile source directory false : StateM FileTree _).run opened := by
        have hremade := makeDirectories_of_isMade hmade
        rw [compileFile_of_draft hthen (writeOutput_of_made houtput hremade),
          compileFile_of_draft hbefore (writeOutput_of_made houtput hopened)]
      exact ⟨result, result, after, hresult, Or.inr (hsame.trans hresult), rfl,
        Or.inr ⟨hmade, hrestyled⟩⟩

/-- A source ends in a tree that a batch has reached as it would have ended at the beginning, and
leaves a tree that a batch may have reached. -/
theorem Reached.compileFile {tree : FileTree} (h : Reached before directory tree)
    (houtput : outputPath source directory = .ok output) (plain : source.IsPlain) :
    ∃ result after,
      (Concordance.compileFile source directory false : StateM FileTree _).run tree =
        (result, after) ∧ Reached before directory after ∧
      result.toOption =
        ((Concordance.compileFile source directory false : StateM FileTree _).run
          before).1.toOption := by
  cases directory with
  | none =>
    exact compileFile_of_restyled houtput (draft_alike h.kept plain)
      (fun _ hread => isMade_outer_of_read houtput hread) h
  | some folder =>
    have houter := outer_of_outputPath_some houtput
    rcases hopened : (makeDirectories output.outer : StateM FileTree _).run before
      with ⟨made, opened⟩
    obtain ⟨result, result', after, hthen, hfirst, halike, hafter⟩ :=
      compileFile_of_opened houtput hopened
        (draft_alike (rewritten_makeDirectories hopened).kept plain)
    have hreached {next : FileTree}
        (hnext : next = before ∨ next = opened ∨
          (opened.IsMade output.outer ∧ opened.Restyled next)) :
        Reached before (some folder) next := by
      rw [houter] at hopened hnext
      simpa only [Reached, hopened] using hnext
    have hcases : tree = before ∨ tree = opened ∨
        (opened.IsMade output.outer ∧ opened.Restyled tree) := by
      rw [houter] at hopened ⊢
      simpa only [Reached, hopened] using h
    have hresult : ((Concordance.compileFile source (some folder) false :
        StateM FileTree _).run before).1 = result' := by
      rcases hfirst with ⟨hfirst, -⟩ | hfirst <;> rw [hfirst]
    rcases hcases with rfl | rfl | ⟨hmade, hrestyled⟩
    · rcases hfirst with ⟨hfirst, -⟩ | hfirst
      · exact ⟨result', tree, hfirst, hreached (Or.inl rfl), by rw [hresult]⟩
      · exact ⟨result', after, hfirst, hreached (Or.inr hafter), by rw [hresult]⟩
    · exact ⟨result, after, hthen, hreached (Or.inr hafter), by rw [hresult, halike]⟩
    · obtain ⟨result'', after', hrun, hrestyled', halike'⟩ :=
        compileFile_of_restyled houtput (draft_alike hrestyled.kept plain) (fun _ _ => hmade)
          hrestyled
      refine ⟨result'', after', hrun, hreached (Or.inr (Or.inr ⟨hmade, hrestyled'⟩)), ?_⟩
      rw [halike', hthen, hresult, halike]

end Steps

end Concordance
