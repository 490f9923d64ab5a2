import Concordance.Proofs.Batch.Discovery
import Concordance.Proofs.Batch.Rehearsal

/-!
# Compiling again

A batch that is run once more, right after it was run, gives the same summaries and leaves the tree
exactly as it was.  What its inputs stand for has not changed, because the stylesheets that were
written are not found as definitions, and the definitions are read as before.  From there the two
runs are followed side by side, with a relation between the trees that they have come to.

Where the directories of the outputs are there, a run is nothing but files written one after
another, always the same ones; so the second run writes again what is there.  In a given directory
that had to be made the first run is compared with the run that starts from the tree with that
directory.  If it could not be made, no run from there on changes anything.
-/

namespace Concordance

open FileTree

/-! ## Two runs side by side -/

section Runs

variable {directory : Option Path} {sources : List Path} {base tree opened : FileTree}
  {source output : Path}

/-- Two runs whose trees stay related, and in which each source has a summary in both or in none,
end with the same summaries and in related trees. -/
theorem compileSources_alike (related : FileTree → FileTree → Prop)
    (hstep : ∀ source ∈ sources, ∀ output, outputPath source directory = .ok output →
      ∀ tree tree', related tree tree' → ∃ result result' after after',
        (compileFile source directory false : StateM FileTree _).run tree = (result, after) ∧
        (compileFile source directory false : StateM FileTree _).run tree' = (result', after') ∧
        related after after' ∧ result.toOption = result'.toOption)
    (taken : List (Path × Path)) {tree tree' : FileTree} (h : related tree tree') :
    ∃ fates fates' after after',
      (compileSources directory false taken sources : StateM FileTree _).run tree =
        (Fate.collect fates, after) ∧
      (compileSources directory false taken sources : StateM FileTree _).run tree' =
        (Fate.collect fates', after') ∧
      related after after' ∧ fates.filterMap Fate.summary? = fates'.filterMap Fate.summary? := by
  induction sources generalizing taken tree tree' with
  | nil => exact ⟨[], [], tree, tree', rfl, rfl, h, rfl⟩
  | cons source sources ih =>
    obtain ⟨hsource, hsources⟩ := List.forall_mem_cons.mp hstep
    -- whether the source is compiled at all depends on the paths that are taken
    suffices hfirst : ∃ fate fate' middle middle' taken',
        Step directory false taken tree source fate middle taken' ∧
        Step directory false taken tree' source fate' middle' taken' ∧
        related middle middle' ∧ fate.summary? = fate'.summary? by
      obtain ⟨fate, fate', middle, middle', taken', hstep, hstep', hmiddle, hfate⟩ := hfirst
      obtain ⟨fates, fates', after, after', hrun, hrun', hafter, hfates⟩ :=
        ih hsources taken' hmiddle
      refine ⟨fate :: fates, fate' :: fates', after, after', compileSources_cons hstep hrun,
        compileSources_cons hstep' hrun', hafter, ?_⟩
      rw [List.filterMap_cons, List.filterMap_cons, hfate, hfates]
    cases houtput : outputPath source directory with
    | error error => exact ⟨_, _, _, _, _, .nameless houtput, .nameless houtput, h, rfl⟩
    | ok output =>
      cases hfind : taken.find? (fun pair => pair.1.same output) with
      | some pair =>
        exact ⟨_, _, _, _, _, .collided houtput hfind, .collided houtput hfind, h, rfl⟩
      | none =>
        obtain ⟨result, result', middle, middle', hrun, hrun', hmiddle, halike⟩ :=
          hsource output houtput tree tree' h
        refine ⟨_, _, middle, middle', _, .compiled houtput hfind hrun,
          .compiled houtput hfind hrun', hmiddle, ?_⟩
        rw [Fate.summary?_ofResult, Fate.summary?_ofResult, halike]

/-- A definition that is read comes to the same stylesheet after directories were made and
stylesheets written. -/
theorem draft_of_read (h : base.Kept tree) {content : ByteArray}
    (hread : base.read source = .ok content) :
    (draft source (tree.read source)).toOption = (draft source (base.read source)).toOption := by
  cases hname : source.notation? with
  | none => rw [draft_eq_error_of_notation? hname, draft_eq_error_of_notation? hname]
  | some format => rw [hread, h.read_of_read (by rw [hname]; rfl) hread]

/-- Two trees to which the same stylesheets were written. -/
def Filled (base other tree tree' : FileTree) : Prop :=
  ∃ writes, (∀ write ∈ writes, base.MayStyle write.1) ∧ tree = base.fill writes ∧
    tree' = other.fill writes

/-- In trees with the same directories a source comes to the same stylesheet, written to the same
place. -/
theorem Filled.compileFile {other tree' : FileTree} (h : Filled base other tree tree')
    (hother : base.Restyled other) (houtput : outputPath source directory = .ok output)
    (hmade : base.IsMade output.outer) {content : ByteArray}
    (hread : base.read source = .ok content) : ∃ result result' after after',
      (Concordance.compileFile source directory false : StateM FileTree _).run tree =
        (result, after) ∧
      (Concordance.compileFile source directory false : StateM FileTree _).run tree' =
        (result', after') ∧
      Filled base other after after' ∧ result.toOption = result'.toOption := by
  obtain ⟨writes, hwrites, rfl, rfl⟩ := h
  obtain ⟨summary?, newer, hnewer, hruns⟩ := exists_writes houtput fun _ _ => hmade
  have hfilled := ((Restyled.refl base).fill hwrites).1
  have hfilled' := (hother.fill hwrites).1
  obtain ⟨result, hrun, hresult⟩ := hruns _ hfilled (draft_of_read hfilled.kept hread)
  obtain ⟨result', hrun', hresult'⟩ := hruns _ hfilled' (draft_of_read hfilled'.kept hread)
  refine ⟨result, result', _, _, hrun, hrun', ⟨writes ++ newer, ?_, ?_, ?_⟩,
    hresult.trans hresult'.symm⟩
  · exact List.forall_mem_append.mpr ⟨hwrites, hnewer⟩
  · exact (List.foldl_append ..).symm
  · exact (List.foldl_append ..).symm

/-- What it is for a batch that is run again to give the same summaries and to change nothing. -/
def Settles (directory : Option Path) (sources : List Path) (tree : FileTree) : Prop :=
  ∃ fates fates' after,
    (compileSources directory false [] sources : StateM FileTree _).run tree =
      (Fate.collect fates, after) ∧
    (compileSources directory false [] sources : StateM FileTree _).run after =
      (Fate.collect fates', after) ∧
    fates.filterMap Fate.summary? = fates'.filterMap Fate.summary?

/-- Where the directories of the outputs are there, the second run writes what the first one has
written. -/
theorem settles_of_isMade
    (hmade : ∀ source ∈ sources, ∀ output, outputPath source directory = .ok output →
      base.IsMade output.outer)
    (hread : ∀ source ∈ sources, ∃ content, base.read source = .ok content) :
    Settles directory sources base := by
  have hlockstep {other : FileTree} (hother : base.Restyled other) :=
    compileSources_alike (Filled base other) (fun source hsource output houtput _ _ h =>
      h.compileFile hother houtput (hmade source hsource output houtput)
        (hread source hsource).choose_spec) [] ⟨[], by simp, rfl, rfl⟩
  -- the first run leaves a tree with other stylesheets, and with that one it is compared
  obtain ⟨_, _, _, _, hfirst, -, ⟨writes, hwrites, rfl, -⟩, -⟩ := hlockstep (Restyled.refl base)
  obtain ⟨fates, fates', _, _, hrun, hrun', ⟨writes', hwrites', rfl, rfl⟩, hfates⟩ :=
    hlockstep ((Restyled.refl base).fill hwrites).1
  have hsame : base.fill writes = base.fill writes' :=
    congrArg Prod.snd (hfirst.symm.trans hrun)
  rw [hsame, fill_fill hwrites'] at hrun'
  exact ⟨fates, fates', _, hrun, hrun', hfates⟩

/-- Files are read as before after directories were made. -/
theorem read_makeDirectories {folder : Path} {made : Except IoError Unit}
    (hopened : (makeDirectories folder : StateM FileTree _).run tree = (made, opened))
    {content : ByteArray} (hread : tree.read source = .ok content) :
    opened.read source = .ok content := by
  obtain ⟨location, hlocate, hfile⟩ := FileTree.read_eq_ok_iff.mp hread
  have hrewritten := rewritten_makeDirectories hopened
  refine FileTree.read_eq_ok_iff.mpr ⟨location, hrewritten.locate hlocate, ?_⟩
  rw [hrewritten.file, hfile]
  rfl

/-- Two trees that are the same, or one of them is the tree before and the other the tree after its
directories were made. -/
def Joined (before opened tree tree' : FileTree) : Prop :=
  tree = tree' ∨ tree = before ∧ tree' = opened

theorem Joined.compileFile {before tree' : FileTree} (h : Joined before opened tree tree')
    (houtput : outputPath source directory = .ok output) {made : Except IoError Unit}
    (hopened : (makeDirectories output.outer : StateM FileTree _).run before = (made, opened))
    {content : ByteArray} (hread : before.read source = .ok content) :
    ∃ result result' after after',
      (Concordance.compileFile source directory false : StateM FileTree _).run tree =
        (result, after) ∧
      (Concordance.compileFile source directory false : StateM FileTree _).run tree' =
        (result', after') ∧
      Joined before opened after after' ∧ result.toOption = result'.toOption := by
  rcases h with rfl | ⟨rfl, rfl⟩
  · exact ⟨_, _, _, _, rfl, rfl, Or.inl rfl, rfl⟩
  · obtain ⟨result', result, after, hrun', hrun, halike, -⟩ :=
      compileFile_of_opened houtput hopened
        (draft_of_read (rewritten_makeDirectories hopened).kept hread)
    rcases hrun with ⟨hrun, rfl⟩ | hrun
    · exact ⟨result, result', _, _, hrun, hrun', Or.inr ⟨rfl, rfl⟩, halike.symm⟩
    · exact ⟨result, result', _, _, hrun, hrun', Or.inl rfl, halike.symm⟩

/-- Where the directory of an output could not be made, nothing is changed from then on. -/
theorem compileFile_of_unmade {before : FileTree}
    (houtput : outputPath source directory = .ok output) {error : IoError}
    (hopened : (makeDirectories output.outer : StateM FileTree _).run before =
      (.error error, opened)) :
    ∃ result, (compileFile source directory false : StateM FileTree _).run opened =
      (result, opened) := by
  obtain ⟨again, hagain⟩ := makeDirectories_again (isTrimmed_outer output) hopened
  cases hdraft : draft source (opened.read source) with
  | error error => exact ⟨_, compileFile_of_draft_error hdraft⟩
  | ok drafted => exact ⟨_, compileFile_of_draft hdraft (writeOutput_of_refused houtput hagain)⟩

/-- A batch of files that are read settles. -/
theorem settles_of_read (directory : Option Path)
    (hread : ∀ source ∈ sources, ∃ content, tree.read source = .ok content) :
    Settles directory sources tree := by
  cases directory with
  | none =>
    refine settles_of_isMade (fun source hsource output houtput => ?_) hread
    obtain ⟨content, hcontent⟩ := hread source hsource
    exact isMade_outer_of_read houtput hcontent
  | some folder =>
    rcases hopened : (makeDirectories (Path.ofParts folder.folder) : StateM FileTree _).run tree
      with ⟨made, opened⟩
    have houter (source output : Path) (houtput : outputPath source (some folder) = .ok output) :
        (makeDirectories output.outer : StateM FileTree _).run tree = (made, opened) := by
      rw [outer_of_outputPath_some houtput, hopened]
    have hsettles : Settles (some folder) sources opened := by
      cases made with
      | ok made =>
        refine settles_of_isMade (fun source _ output houtput =>
          isMade_of_makeDirectories (isTrimmed_outer output) (houter source output houtput)) ?_
        intro source hsource
        obtain ⟨content, hcontent⟩ := hread source hsource
        exact ⟨content, read_makeDirectories hopened hcontent⟩
      | error error =>
        obtain ⟨fates, -, _, -, hrun, -, ⟨rfl, -⟩, -⟩ :=
          compileSources_alike (fun tree tree' => tree = opened ∧ tree' = opened)
            (fun source _ output houtput _ _ h => by
              obtain ⟨rfl, rfl⟩ := h
              obtain ⟨result, hrun⟩ := compileFile_of_unmade houtput (houter source output houtput)
              exact ⟨result, result, _, _, hrun, hrun, ⟨rfl, rfl⟩, rfl⟩)
            [] ⟨rfl, rfl⟩
        exact ⟨fates, fates, _, hrun, hrun, rfl⟩
    obtain ⟨fates, fates', after, after', hrun, hrun', hjoined, hfates⟩ :=
      compileSources_alike (Joined tree opened)
        (fun source hsource output houtput _ _ h =>
          h.compileFile houtput (houter source output houtput) (hread source hsource).choose_spec)
        [] (Or.inr ⟨rfl, rfl⟩)
    rcases hjoined with rfl | ⟨rfl, -⟩
    · -- the first run ends as one that begins with the directory made, and that one settles
      obtain ⟨fates₁, fates₂, after₁, hrun₁, hrun₂, hfates₁⟩ := hsettles
      obtain ⟨hcollected, rfl⟩ := Prod.mk.inj (hrun'.symm.trans hrun₁)
      exact ⟨fates, fates₂, after, hrun, hrun₂,
        (hfates.trans (congrArg Prod.fst hcollected)).trans hfates₁⟩
    · exact ⟨fates, fates, after, hrun, hrun, rfl⟩

end Runs

/-! ## What inputs stand for -/

section Inputs

variable {tree after : FileTree} {written : List (Location × ByteArray)} {input : Path}
  {sources : List Path} {directory : Option Path}

theorem isFile_of_find (hthere : ∃ node, tree.find input = .ok node)
    (hdirectory : ¬tree.isDirectory input = true) : tree.isFile input = true := by
  obtain ⟨node, hnode⟩ := hthere
  rw [isFile, hnode]
  cases node with
  | file content => rfl
  | directory entries =>
    rw [isDirectory, hnode] at hdirectory
    exact absurd rfl hdirectory

/-- What an input stands for can be read, if the input is there. -/
theorem exists_read_of_standsFor (hthere : ∃ node, tree.find input = .ok node)
    (h : tree.StandsFor input sources) :
    ∀ source ∈ sources, ∃ content, tree.read source = .ok content := by
  intro source hsource
  suffices hfile : tree.isFile source = true by
    rw [isFile_eq_isSome_read] at hfile
    obtain ⟨content, hcontent⟩ := Option.isSome_iff_exists.mp hfile
    exact ⟨content, toOption_eq_some_iff.mp hcontent⟩
  unfold StandsFor at h
  split at h
  · next hdirectory =>
    obtain ⟨-, node, -, -, -, hentries⟩ := exists_entries hdirectory
    have hfound := congrArg Prod.fst ((discover_apply input tree).symm.trans h)
    rw [hentries] at hfound
    obtain rfl := Except.ok.inj hfound
    obtain ⟨entry, hentry, hisFile, rfl, -⟩ := exists_entry_of_mem_definitionFiles hsource
    obtain ⟨name, -, rfl⟩ := List.mem_map.mp hentry
    exact hisFile
  · next hdirectory =>
    rw [h, List.mem_singleton] at hsource
    rw [hsource]
    exact isFile_of_find hthere hdirectory

/-- In a directory the same definitions are found, because no stylesheet is found as one. -/
theorem FileTree.Finds.of_kept (h : tree.Kept after) {folder : Path} {names : List String}
    (hfinds : tree.Finds folder names) : after.Finds folder names := by
  refine ⟨hfinds.ascending, fun name => (hfinds.mem_iff name).trans ?_⟩
  refine and_congr_right fun hname => and_congr_left fun _ => ?_
  obtain ⟨stem, extension, -, -, rfl, hletters⟩ := hname
  rw [h.here, h.file _ (Location.not_isStylesheet hletters _ stem)]

/-- An input that is there is a directory afterwards just if it was one before. -/
theorem isDirectory_of_rewritten (h : tree.Rewritten written after)
    (hthere : ∃ node, tree.find input = .ok node) :
    after.isDirectory input = tree.isDirectory input := by
  rw [Bool.eq_iff_iff]
  constructor
  · intro hafter
    by_contra hdirectory
    -- a file was there, and a file is there still
    obtain ⟨location, hlocate, hfile⟩ := isFile_iff.mp (isFile_of_find hthere hdirectory)
    obtain ⟨location', hlocate', hoccupant⟩ := isDirectory_iff.mp hafter
    obtain rfl := Except.ok.inj ((h.locate hlocate).symm.trans hlocate')
    have hlater : (after.file? location).isSome = true := by
      rw [h.file, Option.isSome_or, hfile, Bool.or_true]
    rw [file?, hoccupant] at hlater
    cases hlater
  · intro hbefore
    obtain ⟨location, hlocate, hoccupant⟩ := isDirectory_iff.mp hbefore
    exact isDirectory_iff.mpr ⟨location, h.locate hlocate, h.directory location hoccupant⟩

/-- An input that is there stands for the same sources after stylesheets were written. -/
theorem FileTree.StandsFor.of_rewritten (h : tree.Rewritten written after)
    (hstyled : ∀ file ∈ written, file.1.IsStylesheet) (proper : tree.IsProper)
    (proper' : after.IsProper) (hthere : ∃ node, tree.find input = .ok node)
    (hsources : tree.StandsFor input sources) : after.StandsFor input sources := by
  have hsame := isDirectory_of_rewritten h hthere
  unfold StandsFor at hsources ⊢
  rw [hsame]
  split
  · next hdirectory =>
    rw [if_pos hdirectory] at hsources
    obtain ⟨names, hfinds, hdiscover, -⟩ := exists_finds proper hdirectory
    obtain ⟨names', hfinds', hdiscover', -⟩ := exists_finds proper' (hsame.trans hdirectory)
    rw [(hfinds.of_kept (h.kept_of_isStylesheet hstyled)).eq hfinds'] at hdiscover
    have hnames := congrArg Prod.fst (hsources.symm.trans hdiscover)
    rw [hdiscover', Except.ok.inj hnames]
  · next hdirectory =>
    rw [if_neg hdirectory] at hsources
    exact hsources

section Lists

variable {inputs : List Path} {parts : List (List Path)}
  (hthere : ∀ input ∈ inputs, ∃ node, tree.find input = .ok node)
  (hparts : List.Forall₂ tree.StandsFor inputs parts)

include hthere hparts

theorem exists_read_of_inputs :
    ∀ source ∈ parts.flatten, ∃ content, tree.read source = .ok content := by
  induction hparts with
  | nil => simp
  | cons hfirst _ ih =>
    obtain ⟨hinput, hrest⟩ := List.forall_mem_cons.mp hthere
    rw [List.flatten_cons]
    exact List.forall_mem_append.mpr ⟨exists_read_of_standsFor hinput hfirst, ih hrest⟩

theorem standsFor_of_rewritten (h : tree.Rewritten written after)
    (hstyled : ∀ file ∈ written, file.1.IsStylesheet) (proper : tree.IsProper)
    (proper' : after.IsProper) : List.Forall₂ after.StandsFor inputs parts := by
  induction hparts with
  | nil => exact .nil
  | cons hfirst _ ih =>
    obtain ⟨hinput, hrest⟩ := List.forall_mem_cons.mp hthere
    exact .cons (hfirst.of_rewritten h hstyled proper proper' hinput) (ih hrest)

end Lists

end Inputs

/-! ## The tree between the two runs -/

section Between

variable {tree after : FileTree} {directory : Option Path} {sources : List Path}

theorem FileTree.IsProper.compileFile (proper : tree.IsProper) {source : Path}
    {result : Except CompileError Summary}
    (h : (Concordance.compileFile source directory false : StateM FileTree _).run tree =
      (result, after)) : after.IsProper := by
  cases hdraft : draft source (tree.read source) with
  | error error =>
    rw [compileFile_of_draft_error hdraft] at h
    exact (Prod.mk.inj h).2 ▸ proper
  | ok drafted =>
    rcases hwrite : (writeOutput source directory drafted.2.toUTF8 : StateM FileTree _).run tree
      with ⟨path, final⟩
    rw [compileFile_of_draft hdraft hwrite] at h
    obtain ⟨-, rfl⟩ := Prod.mk.inj h
    have hputs := puts_writeOutput source directory drafted.2.toUTF8 tree
    rw [hwrite] at hputs
    cases hputs with
    | nameless houtput => exact proper
    | unmade houtput hmade => exact proper.makeDirectories hmade
    | unopened houtput hmade hopen => exact proper.makeDirectories hmade
    | written houtput hmade hopen => exact (proper.makeDirectories hmade).write hopen _

theorem FileTree.IsProper.compileSources (proper : tree.IsProper) {taken : List (Path × Path)}
    {result : List Summary × List String}
    (h : (Concordance.compileSources directory false taken sources : StateM FileTree _).run tree =
      (result, after)) : after.IsProper := by
  obtain ⟨_, _, _, _, hrun, -, ⟨-, hproper⟩, -⟩ :=
    compileSources_alike (fun tree tree' => tree = tree' ∧ tree.IsProper)
      (fun source (_ : source ∈ sources) _ (_ : outputPath source directory = _) _ _ hrelated => by
        obtain ⟨rfl, hproper⟩ := hrelated
        exact ⟨_, _, _, _, rfl, rfl, ⟨rfl, hproper.compileFile rfl⟩, rfl⟩)
      taken ⟨rfl, proper⟩
  rw [h] at hrun
  exact (Prod.mk.inj hrun).2 ▸ hproper

/-- A batch writes nothing but stylesheets. -/
theorem Wrote.isStylesheet {taken : List Path} {files : List Summary}
    {written : List (Location × ByteArray)}
    (h : Wrote directory sources taken files written after) :
    ∀ file ∈ written, file.1.IsStylesheet := by
  intro file hfile
  obtain ⟨summary, hsummary, htells⟩ :=
    exists_of_mem_forall₂ h.tells.flip (List.mem_reverse.mpr hfile)
  obtain ⟨path, hpath, hlocate⟩ := htells.output
  rw [eq_location_of_locate hlocate]
  exact isStylesheet_of_outputPath (h.chosen summary hsummary path hpath).2 after.here

/-- No stylesheet is found as a definition. -/
theorem not_isStylesheet_of_discover {folder : Path} {found : List Path}
    (h : (discover folder : StateM FileTree _).run tree = (.ok found, after)) :
    ∀ source ∈ found, ∀ here, ¬(source.location here).IsStylesheet := by
  intro source hsource here
  have hfound := congrArg Prod.fst ((discover_apply folder tree).symm.trans h)
  cases hentries : tree.entries folder with
  | error error =>
    rw [hentries] at hfound
    cases hfound
  | ok entries =>
    rw [hentries] at hfound
    obtain rfl := Except.ok.inj hfound
    obtain ⟨entry, -, -, -, hlisted⟩ := exists_entry_of_mem_definitionFiles hsource
    rw [Path.isListed_eq] at hlisted
    exact Path.not_isStylesheet hlisted here

end Between

/-- What a batch comes to that is run and then run once more.  The inputs stand for the same sources
in both runs, the second run gives the summaries of the first and leaves the tree exactly as it
is, and no directory ever contributes an output of the batch as a source. -/
structure Recompiles (inputs : List Path) (directory : Option Path) (tree : FileTree)
    (sources : List Path) (outcome : Outcome) (after : FileTree) : Prop where
  expanded : (expandInputs inputs : StateM FileTree _).run tree = (.ok sources, tree)
  first : (compileAll inputs directory false : StateM FileTree _).run tree = (.ok outcome, after)
  expanded_again : (expandInputs inputs : StateM FileTree _).run after = (.ok sources, after)
  second : ∃ errors, (compileAll inputs directory false : StateM FileTree _).run after =
    (.ok { outcome with errors := errors }, after)
  unlisted : ∀ summary ∈ outcome.files, ∀ output, summary.output = some output →
    ∀ (other : FileTree) folder found,
      (discover folder : StateM FileTree _).run other = (.ok found, other) →
        ∀ source ∈ found, source.location other.here ≠ output.location other.here

/-- Compiling the same inputs once more gives the same summaries and changes nothing. -/
theorem compileAll_again {tree : FileTree} (proper : tree.IsProper) {inputs : List Path}
    (hthere : ∀ input ∈ inputs, ∃ node, tree.find input = .ok node) (directory : Option Path) :
    ∃ sources outcome after, Recompiles inputs directory tree sources outcome after := by
  obtain ⟨parts, hparts⟩ := exists_standsFor proper inputs
  obtain ⟨fates, fates', after, hrun, hrun', hfates⟩ :=
    settles_of_read directory (exists_read_of_inputs hthere hparts)
  obtain ⟨_, written, _, htracked, -, hrewritten, hwrote⟩ :=
    compileSources_tracks directory [] parts.flatten tree []
  obtain ⟨rfl, rfl⟩ := Prod.mk.inj (hrun.symm.trans htracked)
  have hparts' := standsFor_of_rewritten hthere hparts hrewritten hwrote.isStylesheet proper
    (proper.compileSources hrun)
  have hexpanded := expandInputs_eq hparts
  have hexpanded' := expandInputs_eq hparts'
  refine ⟨parts.flatten, ⟨fates.filterMap Fate.summary?, fates.filterMap Fate.error?, false⟩,
    after, hexpanded, (bind_apply_eq hexpanded).trans ((bind_apply_eq hrun).trans rfl), hexpanded',
    ⟨fates'.filterMap Fate.error?, ?_⟩, ?_⟩
  · rw [hfates]
    exact (bind_apply_eq hexpanded').trans ((bind_apply_eq hrun').trans rfl)
  · intro summary hsummary output houtput other folder found hfound source hsource hlocation
    refine not_isStylesheet_of_discover hfound source hsource other.here ?_
    rw [hlocation]
    exact isStylesheet_of_outputPath (hwrote.chosen summary hsummary output houtput).2 other.here

/-- A directory with one definition. -/
def definitionDirectory : FileTree where
  root := .directory
    [("m", .directory [("a.json", .file (definitionText "rdf:b").toUTF8)])]
  here := []

theorem isProper_definitionDirectory : definitionDirectory.IsProper := by
  refine FileNode.forall_get?_directory (by decide +kernel) ?_
  simp only [List.forall_mem_cons, List.not_mem_nil, false_imp_iff, implies_true, and_true]
  refine FileNode.forall_get?_directory (by decide +kernel) ?_
  simp only [List.forall_mem_cons, List.not_mem_nil, false_imp_iff, implies_true, and_true]
  exact FileNode.forall_get?_file (FileNode.isProper_of_names_eq_nil rfl)

theorem standsFor_definitionDirectory :
    definitionDirectory.StandsFor ⟨"m"⟩ [⟨"m/a.json"⟩] := by
  have hdirectory : definitionDirectory.isDirectory ⟨"m"⟩ = true := by decide +kernel
  have hentries : definitionDirectory.entries ⟨"m"⟩ = .ok [("a.json", true)] := by
    apply toOption_eq_some_iff.mp
    decide +kernel
  have hchosen : (([("a.json", true)].filter fun entry =>
      entry.2 && ((Path.mk "m").join entry.1).isListed).map Prod.fst) = ["a.json"] := by
    decide +kernel
  rw [StandsFor, if_pos hdirectory]
  refine (discover_apply ⟨"m"⟩ definitionDirectory).trans ?_
  rw [hentries]
  dsimp only
  rw [definitionFiles_eq, hchosen, List.mergeSort_singleton]
  rfl

/-- A directory is compiled into a directory inside it. -/
theorem definitionDirectory_again : definitionDirectory.IsProper ∧
    (∀ input ∈ [Path.mk "m"], ∃ node, definitionDirectory.find input = .ok node) ∧
    ∃ outcome after,
      Recompiles [⟨"m"⟩] (some ⟨"m/out"⟩) definitionDirectory [⟨"m/a.json"⟩] outcome after ∧
      outcome.files.map (·.output) = [some ⟨"m/out/a.xsl"⟩] := by
  have hthere : ∀ input ∈ [Path.mk "m"], ∃ node, definitionDirectory.find input = .ok node := by
    simp only [List.forall_mem_singleton]
    exact ⟨_, rfl⟩
  have hexpanded := expandInputs_eq (.cons standsFor_definitionDirectory .nil)
  obtain ⟨sources, outcome, after, hagain⟩ :=
    compileAll_again isProper_definitionDirectory hthere (some ⟨"m/out"⟩)
  obtain rfl : sources = [⟨"m/a.json"⟩] :=
    Except.ok.inj (Prod.mk.inj (hagain.expanded.symm.trans hexpanded)).1
  have hfiles : ((compileSources (some ⟨"m/out"⟩) false [] [⟨"m/a.json"⟩] :
      StateM FileTree _).run definitionDirectory).1.1.map (·.output) =
        [some ⟨"m/out/a.xsl"⟩] := by
    decide +kernel
  refine ⟨isProper_definitionDirectory, hthere, outcome, after, hagain, ?_⟩
  rcases hrun : (compileSources (some ⟨"m/out"⟩) false [] [⟨"m/a.json"⟩] :
    StateM FileTree _).run definitionDirectory with ⟨⟨files, errors⟩, final⟩
  have hfirst := hagain.first.symm.trans
    ((bind_apply_eq hexpanded).trans ((bind_apply_eq hrun).trans rfl))
  rw [hrun] at hfiles
  rw [Except.ok.inj (Prod.mk.inj hfirst).1]
  exact hfiles

end Concordance
