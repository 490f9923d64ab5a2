import Concordance.Proofs.Batch.Tracking
import Concordance.Proofs.Disk.Path
import Mathlib.Data.List.Forall2
import Mathlib.Data.List.Nodup

/-!
# No batch writes a file twice

The outputs of a batch are spelled with different components.  As long as different spellings name
different files, no file is written twice: what every summary tells is there when the batch is over.

Outputs in a given directory are of this kind.  Next to the sources they need not be, because a dot
at the beginning and a parent step are components of their own: `a.xsl` and `./a.xsl` are one file
with two spellings, and the second output takes the place of the first.
-/

namespace Concordance

/-- Outputs that name the same location are spelled with the same components. -/
def SpelledAlike (here : Location) (directory : Option Path) (sources : List Path) : Prop :=
  ∀ source ∈ sources, ∀ source' ∈ sources,
    ∀ path ∈ (outputPath source directory).toOption,
    ∀ path' ∈ (outputPath source' directory).toOption,
      path.location here = path'.location here → path.same path' = true

instance (here : Location) (directory : Option Path) (sources : List Path) :
    Decidable (SpelledAlike here directory sources) :=
  inferInstanceAs (Decidable (∀ source ∈ sources, ∀ source' ∈ sources,
    ∀ path ∈ (outputPath source directory).toOption,
    ∀ path' ∈ (outputPath source' directory).toOption,
      path.location here = path'.location here → path.same path' = true))

/-- Outputs in one directory that name the same location are the same path. -/
theorem outputPath_inj {here : Location} {directory source source' output output' : Path}
    (h : outputPath source directory = .ok output) (h' : outputPath source' directory = .ok output')
    (hlocation : output.location here = output'.location here) : output = output' := by
  unfold outputPath at h h'
  split at h
  · cases h
  · next stem hstem =>
    split at h'
    · cases h'
    · next stem' hstem' =>
      cases h
      cases h'
      rw [Path.location_join here _ (Path.isName_stylesheet hstem),
        Path.location_join here _ (Path.isName_stylesheet hstem')] at hlocation
      have hname : stem ++ ".xsl" = stem' ++ ".xsl" := by simpa using hlocation
      simp [hname]

/-- In a given directory the name of an output decides where it goes. -/
theorem spelledAlike_some (here : Location) (directory : Path) (sources : List Path) :
    SpelledAlike here (some directory) sources := by
  intro source _ source' _ path hpath path' hpath' hlocation
  have heq := outputPath_inj (toOption_eq_some_iff.mp hpath) (toOption_eq_some_iff.mp hpath')
    hlocation
  simp [heq, Path.same]

/-- Where every file was written once, the record tells what was written. -/
theorem lookup_eq_some_of_mem {written : List (Location × ByteArray)}
    (once : (written.map Prod.fst).Nodup) {file : Location × ByteArray} (h : file ∈ written) :
    written.lookup file.1 = some file.2 := by
  obtain ⟨newer, older, rfl⟩ := List.append_of_mem h
  rw [List.lookup_eq_some_iff]
  refine ⟨newer, older, rfl, ?_⟩
  intro other hother
  rw [List.map_append, List.nodup_append] at once
  have hne := once.2.2 other.1 (List.mem_map_of_mem hother) file.1 (by simp)
  simpa using Ne.symm hne

/-- What a batch leaves behind that has written no file twice: every summary has a file of its own,
and the file holds what the summary tells. -/
structure WrittenOnce (before : FileTree) (files : List Summary)
    (written : List (Location × ByteArray)) (after : FileTree) : Prop where
  once : (written.map Prod.fst).Nodup
  tells : List.Forall₂ (fun summary file => summary.Tells after file) files written.reverse
  own : files.Pairwise fun a b => ∀ path path', a.output = some path → b.output = some path' →
    path.location before.here ≠ path'.location before.here
  intact : ∀ summary ∈ files, ∃ path content, summary.output = some path ∧
    after.read path = .ok content ∧ content.size = summary.bytes ∧
    Sha256.hexDigest content = summary.sha256
  rewritten : before.Rewritten written after

namespace Wrote

variable {directory : Option Path} {sources taken : List Path} {files : List Summary}
  {written : List (Location × ByteArray)} {before after : FileTree}

theorem own (h : Wrote directory sources taken files written after) {here : Location}
    (alike : SpelledAlike here directory sources) :
    files.Pairwise fun a b => ∀ path path', a.output = some path → b.output = some path' →
      path.location here ≠ path'.location here := by
  apply h.apart.imp_of_mem
  intro a b ha hb hapart path path' hpath hpath' hlocation
  obtain ⟨hsource, houtput⟩ := h.chosen a ha path hpath
  obtain ⟨hsource', houtput'⟩ := h.chosen b hb path' hpath'
  have hsame := alike _ hsource _ hsource' path (toOption_eq_some_iff.mpr houtput) path'
    (toOption_eq_some_iff.mpr houtput') hlocation
  rw [hapart path path' hpath hpath'] at hsame
  cases hsame

theorem exists_tells (h : Wrote directory sources taken files written after) {summary : Summary}
    (hsummary : summary ∈ files) : ∃ file ∈ written, summary.Tells after file := by
  obtain ⟨file, hfile, htells⟩ := exists_of_mem_forall₂ h.tells hsummary
  exact ⟨file, List.mem_reverse.mp hfile, htells⟩

/-- The files are where the outputs lead, one after another. -/
theorem map_location (h : Wrote directory sources taken files written after) :
    files.map (fun summary => summary.output.map (Path.location after.here)) =
      written.reverse.map fun file => some file.1 := by
  rw [← List.forall₂_eq_eq_eq, List.forall₂_map_left_iff, List.forall₂_map_right_iff]
  apply h.tells.imp
  intro summary file htells
  obtain ⟨path, hpath, hlocate⟩ := htells.output
  rw [hpath, FileTree.eq_location_of_locate hlocate, Option.map_some]

theorem once (h : Wrote directory sources taken files written after)
    (alike : SpelledAlike after.here directory sources) : (written.map Prod.fst).Nodup := by
  have houtputs :
      (files.map fun summary => summary.output.map (Path.location after.here)).Nodup := by
    rw [List.Nodup, List.pairwise_map]
    apply (h.own alike).imp_of_mem
    intro a b ha hb hown hlocation
    obtain ⟨file, -, htells⟩ := h.exists_tells ha
    obtain ⟨file', -, htells'⟩ := h.exists_tells hb
    obtain ⟨path, hpath, -⟩ := htells.output
    obtain ⟨path', hpath', -⟩ := htells'.output
    rw [hpath, hpath'] at hlocation
    exact hown path path' hpath hpath' (Option.some.inj hlocation)
  rw [h.map_location, List.map_reverse, List.nodup_reverse] at houtputs
  apply List.Nodup.of_map some
  rwa [List.map_map]

theorem writtenOnce (h : Wrote directory sources taken files written after)
    (hrewritten : before.Rewritten written after)
    (alike : SpelledAlike before.here directory sources) :
    WrittenOnce before files written after := by
  rw [← hrewritten.here] at alike
  have once := h.once alike
  refine ⟨once, h.tells, hrewritten.here ▸ h.own alike, ?_, hrewritten⟩
  intro summary hsummary
  obtain ⟨file, hfile, htells⟩ := h.exists_tells hsummary
  obtain ⟨path, hpath, hlocate⟩ := htells.output
  have hcontent : after.file? file.1 = some file.2 := by
    rw [hrewritten.file, lookup_eq_some_of_mem once hfile, Option.some_or]
  exact ⟨path, file.2, hpath, FileTree.read_of_locate hlocate hcontent, htells.bytes, htells.sha256⟩

end Wrote

/-- Unless next to the sources there are outputs with two spellings, a batch writes no file
twice. -/
theorem compileAll_writes_once (tree : FileTree) (inputs : List Path) (directory : Option Path)
    (alike : directory = none → ∀ sources,
      (expandInputs inputs : StateM FileTree _).run tree = (.ok sources, tree) →
        SpelledAlike tree.here none sources) :
    ∃ result after written,
      (compileAll inputs directory false : StateM FileTree _).run tree = (result, after) ∧
      (compileAll inputs directory false : StateM Ledger _).run (.blank tree) =
        (result, ⟨after, written⟩) ∧
      match result with
      | .ok outcome => WrittenOnce tree outcome.files written after
      | .error _ => written = [] ∧ after = tree := by
  obtain ⟨result, written, after, halone, hwatched, hrewritten, hpost⟩ :=
    compileAll_tracks tree inputs directory []
  rw [List.append_nil] at hwatched
  refine ⟨result, after, written, halone, hwatched, ?_⟩
  cases result with
  | error error => exact hpost
  | ok outcome =>
    obtain ⟨sources, hsources, hwrote⟩ := hpost
    apply hwrote.writtenOnce hrewritten
    cases directory with
    | none => exact alike rfl sources hsources
    | some directory => exact spelledAlike_some tree.here directory sources

/-- The text of a definition that relates two elements. -/
def definitionText (target : String) : String :=
  "\x7b\"mapping\":\x7b\"document_id\":\"rdf:about\",\"parent\":\x7b\"from\":\"rdf:a\",\"to\":\"" ++
    target ++ "\"\x7d\x7d\x7d"

/-- Three definitions, of which two differ in their names only after the dot. -/
def threeDefinitions : FileTree where
  root := .directory
    [("a.json", .file (definitionText "rdf:b").toUTF8),
      ("b.json", .file (definitionText "rdf:c").toUTF8),
      ("a.JSON", .file (definitionText "rdf:longer").toUTF8)]
  here := []

/-- Two of the definitions are compiled, each to a file of its own, and the third is refused. -/
theorem compileAll_threeDefinitions :
    ∃ outcome after written,
      (compileAll [⟨"a.json"⟩, ⟨"b.json"⟩, ⟨"a.JSON"⟩] none false : StateM FileTree _).run
        threeDefinitions = (.ok outcome, after) ∧
      outcome.files.map (·.output) = [some ⟨"a.xsl"⟩, some ⟨"b.xsl"⟩] ∧
      outcome.errors = ["a.JSON would overwrite a.xsl, already produced from a.json"] ∧
      WrittenOnce threeDefinitions outcome.files written after := by
  have hexpanded : ((expandInputs [⟨"a.json"⟩, ⟨"b.json"⟩, ⟨"a.JSON"⟩] :
      StateM FileTree _).run threeDefinitions).1.toOption =
        some [⟨"a.json"⟩, ⟨"b.json"⟩, ⟨"a.JSON"⟩] := by
    decide +kernel
  have alike : SpelledAlike [] none [⟨"a.json"⟩, ⟨"b.json"⟩, ⟨"a.JSON"⟩] := by
    decide +kernel
  have hseen : (((compileAll [⟨"a.json"⟩, ⟨"b.json"⟩, ⟨"a.JSON"⟩] none false :
      StateM FileTree _).run threeDefinitions).1.toOption.map fun outcome =>
        (outcome.files.map (·.output), outcome.errors)) =
      some ([some ⟨"a.xsl"⟩, some ⟨"b.xsl"⟩],
        ["a.JSON would overwrite a.xsl, already produced from a.json"]) := by
    decide +kernel
  obtain ⟨result, after, written, hrun, -, honce⟩ := compileAll_writes_once threeDefinitions
    [⟨"a.json"⟩, ⟨"b.json"⟩, ⟨"a.JSON"⟩] none fun _ sources hsources => by
      rw [hsources] at hexpanded
      exact Option.some.inj hexpanded ▸ alike
  rw [hrun] at hseen
  cases result with
  | error error => cases hseen
  | ok outcome =>
    obtain ⟨houtputs, herrors⟩ := Prod.mk.inj (Option.some.inj hseen)
    exact ⟨outcome, after, written, hrun, houtputs, herrors, honce⟩

/-- What becomes of two definitions whose outputs are one file with two spellings. -/
def twoSpellings : Except CompileError Outcome × Ledger :=
  (compileAll [⟨"a.json"⟩, ⟨"./a.JSON"⟩] none false : StateM Ledger _).run (.blank threeDefinitions)

/-- The file is written twice, and what the first summary tells of it is no longer so. -/
theorem compileAll_writes_twice :
    ∃ outcome after, twoSpellings = (.ok outcome, after) ∧
      ¬(after.written.map Prod.fst).Nodup ∧
      ∃ summary ∈ outcome.files, ∃ content, summary.output = some ⟨"a.xsl"⟩ ∧
        after.tree.read ⟨"a.xsl"⟩ = .ok content ∧ content.size ≠ summary.bytes := by
  have hseen : (twoSpellings.1.toOption.map fun outcome =>
        outcome.files.map fun summary => (summary.output, summary.bytes)) =
          some [(some ⟨"a.xsl"⟩, 523), (some ⟨"./a.xsl"⟩, 538)] ∧
      (twoSpellings.2.tree.read ⟨"a.xsl"⟩).toOption.map ByteArray.size = some 538 ∧
      twoSpellings.2.written.map Prod.fst = [["a.xsl"], ["a.xsl"]] := by
    decide +kernel
  rcases hrun : twoSpellings with ⟨result, after⟩
  rw [hrun] at hseen
  obtain ⟨hfiles, hread, hwritten⟩ := hseen
  obtain ⟨outcome, rfl, hsummaries⟩ : ∃ outcome, result = .ok outcome ∧
      outcome.files.map (fun summary => (summary.output, summary.bytes)) =
        [(some ⟨"a.xsl"⟩, 523), (some ⟨"./a.xsl"⟩, 538)] := by
    cases result with
    | error error => cases hfiles
    | ok outcome => exact ⟨outcome, rfl, Option.some.inj hfiles⟩
  obtain ⟨content, hcontent, hsize⟩ := Option.map_eq_some_iff.mp hread
  obtain ⟨summary, hsummary, hfirst⟩ : ∃ summary ∈ outcome.files,
      (summary.output, summary.bytes) = (some ⟨"a.xsl"⟩, 523) := by
    apply List.mem_map.mp
    rw [hsummaries]
    exact List.mem_cons_self
  obtain ⟨houtput, hbytes⟩ := Prod.mk.inj hfirst
  refine ⟨outcome, after, rfl, ?_, summary, hsummary, content, houtput,
    toOption_eq_some_iff.mp hcontent, ?_⟩
  · rw [hwritten]
    decide
  · rw [hsize, hbytes]
    decide

end Concordance
