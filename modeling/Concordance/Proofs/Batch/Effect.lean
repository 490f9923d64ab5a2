import Concordance.Proofs.Batch.Alone
import Concordance.Proofs.Batch.Overwriting
import Concordance.Proofs.Disk.Listing

/-!
# What compiling one source does to the tree

A source is loaded and its stylesheet drafted before anything is written, so that a source of which
nothing comes leaves the tree as it was.  So does a dry run.  Otherwise directories are made where
they are missing on the way to the output, and the output is written; a source that is compiled has
changed nothing else.  What is written is a stylesheet, so no definition is ever changed.
-/

namespace Concordance

open FileTree

namespace FileTree

/-! ## Directories that were missing -/

/-- Two trees differ in nothing but directories that one of them lacks, each of which one of the
paths names. -/
structure Furnished (before : FileTree) (paths : List Path) (after : FileTree) : Prop where
  here : after.here = before.here
  occupant : ∀ location, after.occupant? location = before.occupant? location ∨
    before.occupant? location = none ∧ after.occupant? location = some .directory ∧
      ∃ path ∈ paths, location = path.location before.here

section Furnishing

variable {before tree after : FileTree} {paths : List Path} {path : Path}

theorem Furnished.refl (tree : FileTree) (paths : List Path) : tree.Furnished paths tree :=
  ⟨rfl, fun _ => Or.inl rfl⟩

theorem Furnished.makeDirectory (h : before.Furnished paths tree) (hpath : path ∈ paths)
    (htrimmed : IsTrimmed path) (hmade : tree.makeDirectory path = .ok after) :
    before.Furnished paths after := by
  obtain ⟨location, hlocate, hnone, hhere, hset⟩ := occupant?_makeDirectory hmade
  have hlocation : location = path.location before.here := by
    rw [eq_location_of_locate (locate_of_isTrimmed htrimmed hlocate), h.here]
  refine ⟨hhere.trans h.here, fun other => ?_⟩
  rw [hset]
  split
  · next hother =>
    -- nothing was there before either, because nothing is ever taken away
    have hfree : before.occupant? location = none := by
      rcases h.occupant location with hsame | ⟨-, hdirectory, -⟩
      · rw [← hsame, hnone]
      · rw [hnone] at hdirectory
        cases hdirectory
    rw [hother]
    exact Or.inr ⟨hfree, rfl, path, hpath, hlocation⟩
  · exact h.occupant other

theorem furnished_makeDirectories (htrimmed : IsTrimmed path) {result : Except IoError Unit}
    (h : (makeDirectories path : StateM FileTree _).run tree = (result, after)) :
    tree.Furnished path.ancestors after := by
  have hkept : tree.Furnished path.ancestors (making path.ancestors tree).2 := by
    refine making_keeps ?_ (Furnished.refl tree path.ancestors)
    intro folder hfolder middle next hmiddle hmade
    exact hmiddle.makeDirectory hfolder ((Path.lineage_ancestors htrimmed).trimmed folder hfolder)
      hmade
  have hrun : making path.ancestors tree = (result, after) := h
  rw [hrun] at hkept
  exact hkept

end Furnishing

/-- An output was put into a tree: it holds the given bytes, and nothing else has changed, except
that directories were made which were missing on the way to it. -/
structure Receives (before : FileTree) (output : Path) (content : ByteArray)
    (after : FileTree) : Prop where
  here : after.here = before.here
  read : after.read output = .ok content
  elsewhere : ∀ location, location ≠ output.location before.here →
    after.occupant? location = before.occupant? location ∨
      before.occupant? location = none ∧ after.occupant? location = some .directory ∧
        ∃ folder ∈ output.outer.ancestors, location = folder.location before.here

end FileTree

section Outputs

variable {source output : Path} {directory : Option Path} {tree opened : FileTree}
  {location : Location}

theorem receives_write
    (hopened : (makeDirectories output.outer : StateM FileTree _).run tree = (.ok (), opened))
    (hopen : opened.openFile output = .ok location) (content : ByteArray) :
    tree.Receives output content (opened.setAt location (.file content)) := by
  have hfurnished := furnished_makeDirectories (isTrimmed_outer output) hopened
  have hset := occupant?_write hopen content
  obtain ⟨hlocate, -⟩ := openFile_eq_ok hopen
  have hlocation : location = output.location tree.here := by
    rw [eq_location_of_locate hlocate, hfurnished.here]
  refine ⟨hfurnished.here, ?_, fun other hother => ?_⟩
  · refine read_of_locate ((rewritten_write hopen content).locate hlocate) ?_
    rw [file?, hset, if_pos rfl]
  · rw [hset, if_neg (hlocation ▸ hother)]
    exact hfurnished.occupant other

/-- Writing an output keeps what is not a stylesheet, whether it succeeds or not, and where it
succeeds the tree receives the output. -/
theorem writeOutput_effect (content : ByteArray) {result : Except CompileError Path}
    {after : FileTree} (h : (writeOutput source directory content : StateM FileTree _).run tree =
      (result, after)) : tree.Kept after ∧ ∀ output, result = .ok output →
        outputPath source directory = .ok output ∧ tree.Receives output content after := by
  have hputs := puts_writeOutput source directory content tree
  rw [h] at hputs
  cases hputs with
  | nameless houtput => exact ⟨Kept.refl tree, by simp⟩
  | unmade houtput hmade => exact ⟨(rewritten_makeDirectories hmade).kept, by simp⟩
  | unopened houtput hmade hopen => exact ⟨(rewritten_makeDirectories hmade).kept, by simp⟩
  | written houtput hmade hopen =>
    have hstyled := restyled_write hopen (isStylesheet_of_openFile houtput hopen) content
    refine ⟨(rewritten_makeDirectories hmade).kept.trans hstyled.kept, ?_⟩
    rintro _ ⟨⟩
    exact ⟨houtput, receives_write hmade hopen content⟩

end Outputs

/-! ## What becomes of a source -/

/-- A summary tells what a definition has and what its stylesheet is like. -/
structure Summary.Describes (summary : Summary) (resolved : Resolved) (text : String) : Prop where
  children : summary.children = resolved.crosswalk.children.length
  bytes : summary.bytes = text.toUTF8.size
  sha256 : summary.sha256 = Sha256.hexDigest text.toUTF8

/-- What compiling a source does.  A definition that is not loaded, or that has no stylesheet, is
refused, and the tree stays as it was, which it does in a dry run anyway.  A summary describes the
definition that was loaded and its stylesheet; unless nothing was to be written, the output has
received that stylesheet.  In no case is a file changed whose name ends as those of definitions
do. -/
structure Effect (source : Path) (directory : Option Path) (isDry : Bool) (tree : FileTree)
    (result : Except CompileError Summary) (after : FileTree) : Prop where
  unloaded : ∀ cause, ((loadResolved source : StateM FileTree _).run tree).1 = .error cause →
    result = .error (.load source cause) ∧ after = tree
  undrafted : ∀ resolved cause,
    ((loadResolved source : StateM FileTree _).run tree).1 = .ok resolved →
      resolved.crosswalk.stylesheet resolved.container = .error cause →
        result = .error (.generate source cause) ∧ after = tree
  dry : isDry = true → after = tree
  compiled : ∀ summary, result = .ok summary → ∃ resolved text,
    ((loadResolved source : StateM FileTree _).run tree).1 = .ok resolved ∧
    resolved.crosswalk.stylesheet resolved.container = .ok text ∧
    summary.source = source ∧ summary.Describes resolved text ∧
    if isDry then summary.output = none
    else ∃ output, outputPath source directory = .ok output ∧ summary.output = some output ∧
      tree.Receives output text.toUTF8 after
  definitions : ∀ stem extension : String,
    extension.toLower = "toml" ∨ extension.toLower = "json" → ∀ location : Location,
      after.file? (location ++ [stem ++ "." ++ extension]) =
        tree.file? (location ++ [stem ++ "." ++ extension])

section Compiling

variable {source : Path} {directory : Option Path} {isDry : Bool} {tree : FileTree}
  {resolved : Resolved} {text : String}

theorem loaded_eq (source : Path) (tree : FileTree) :
    ((loadResolved source : StateM FileTree _).run tree).1 = loaded source (tree.read source) :=
  congrArg Prod.fst (loadResolved_apply source tree)

theorem draft_eq_ok_iff {content : Except IoError ByteArray} :
    draft source content = .ok (resolved, text) ↔ loaded source content = .ok resolved ∧
      resolved.crosswalk.stylesheet resolved.container = .ok text := by
  rw [draft]
  cases loaded source content with
  | error cause => simp
  | ok other =>
    dsimp only
    cases htext : other.crosswalk.stylesheet other.container with
    | error cause =>
      simp only [reduceCtorEq, Except.ok.injEq, false_iff, not_and]
      rintro rfl
      simp [htext]
    | ok other' =>
      simp only [Except.ok.injEq, Prod.mk.injEq]
      refine and_congr_right ?_
      rintro rfl
      rw [htext, Except.ok.injEq]

/-- A source that has no stylesheet is refused. -/
theorem effect_of_draft_error {cause : CompileError}
    (h : draft source (tree.read source) = .error cause) :
    Effect source directory isDry tree (.error cause) tree where
  unloaded other hother := by
    rw [loaded_eq] at hother
    rw [draft, hother] at h
    cases h
    exact ⟨rfl, rfl⟩
  undrafted resolved other hresolved hother := by
    rw [loaded_eq] at hresolved
    rw [draft, hresolved] at h
    simp only [hother] at h
    cases h
    exact ⟨rfl, rfl⟩
  dry _ := rfl
  compiled := by simp
  definitions _ _ _ _ := rfl

/-- What becomes of a draft. -/
theorem settle_effect {result : Except CompileError Summary} {after : FileTree}
    (h : (settle source directory isDry (resolved, text)).run tree = (result, after)) :
    tree.Kept after ∧ (isDry = true → after = tree) ∧
      ∀ summary, result = .ok summary → ∃ output?,
        summary = .ofDraft source (resolved, text) output? ∧
        if isDry then output? = none
        else ∃ output, outputPath source directory = .ok output ∧ output? = some output ∧
          tree.Receives output text.toUTF8 after := by
  cases isDry with
  | true =>
    obtain ⟨rfl, rfl⟩ := Prod.mk.inj h
    refine ⟨Kept.refl tree, fun _ => rfl, ?_⟩
    rintro _ ⟨⟩
    exact ⟨none, rfl, rfl⟩
  | false =>
    rcases hwrite : (writeOutput source directory text.toUTF8 : StateM FileTree _).run tree
      with ⟨path, final⟩
    obtain ⟨hkept, hreceives⟩ := writeOutput_effect text.toUTF8 hwrite
    have hrun := (bind_apply_eq hwrite).symm.trans h
    cases path with
    | error error =>
      obtain ⟨rfl, rfl⟩ := Prod.mk.inj hrun
      exact ⟨hkept, by simp, by simp⟩
    | ok output =>
      obtain ⟨rfl, rfl⟩ := Prod.mk.inj hrun
      refine ⟨hkept, by simp, ?_⟩
      rintro _ ⟨⟩
      exact ⟨some output, rfl, output, (hreceives output rfl).1, rfl, (hreceives output rfl).2⟩

/-- What becomes of a source with a stylesheet. -/
theorem effect_of_draft (hdraft : draft source (tree.read source) = .ok (resolved, text))
    {result : Except CompileError Summary} {after : FileTree}
    (h : (settle source directory isDry (resolved, text)).run tree = (result, after)) :
    Effect source directory isDry tree result after := by
  obtain ⟨hloaded, htext⟩ := draft_eq_ok_iff.mp hdraft
  obtain ⟨hkept, hdry, hcompiled⟩ := settle_effect h
  have hfirst := (loaded_eq source tree).trans hloaded
  refine ⟨fun cause hcause => ?_, fun other cause hother hcause => ?_, hdry,
    fun summary hsummary => ?_, fun stem extension hletters location => ?_⟩
  · rw [hfirst] at hcause
    cases hcause
  · rw [hfirst] at hother
    cases hother
    rw [htext] at hcause
    cases hcause
  · obtain ⟨output?, rfl, houtput⟩ := hcompiled summary hsummary
    exact ⟨resolved, text, hfirst, htext, rfl, ⟨rfl, rfl, rfl⟩, houtput⟩
  · exact hkept.file _ (Location.not_isStylesheet hletters location stem)

end Compiling

/-- Compiling touches only its output, and only if it succeeds. -/
theorem compileFile_effect (source : Path) (directory : Option Path) (isDry : Bool)
    (tree : FileTree) : ∃ result after,
      (compileFile source directory isDry : StateM FileTree _).run tree = (result, after) ∧
        Effect source directory isDry tree result after := by
  rcases hrun : (compileFile source directory isDry : StateM FileTree _).run tree
    with ⟨result, after⟩
  refine ⟨result, after, rfl, ?_⟩
  rw [compileFile_run] at hrun
  cases hdraft : draft source (tree.read source) with
  | error cause =>
    rw [hdraft] at hrun
    obtain ⟨rfl, rfl⟩ := Prod.mk.inj hrun
    exact effect_of_draft_error hdraft
  | ok drafted =>
    rw [hdraft] at hrun
    exact effect_of_draft hdraft hrun

/-- A definition is compiled into a directory that is missing. -/
theorem threeDefinitions_effect : ∃ summary after,
    (compileFile ⟨"a.json"⟩ (some ⟨"out/deep"⟩) false : StateM FileTree _).run threeDefinitions =
      (.ok summary, after) ∧
    Effect ⟨"a.json"⟩ (some ⟨"out/deep"⟩) false threeDefinitions (.ok summary) after ∧
    ∃ text, threeDefinitions.Receives ⟨"out/deep/a.xsl"⟩ text after := by
  obtain ⟨result, after, hrun, heffect⟩ :=
    compileFile_effect ⟨"a.json"⟩ (some ⟨"out/deep"⟩) false threeDefinitions
  have hok : ((compileFile ⟨"a.json"⟩ (some ⟨"out/deep"⟩) false :
      StateM FileTree _).run threeDefinitions).1.isOk = true := by
    decide +kernel
  rw [hrun] at hok
  obtain ⟨summary, rfl⟩ := exists_eq_ok_of_isOk hok
  obtain ⟨resolved, text, -, -, -, -, output, houtput, -, hreceives⟩ :=
    heffect.compiled summary rfl
  have hpath : (outputPath ⟨"a.json"⟩ (some ⟨"out/deep"⟩)).toOption = some ⟨"out/deep/a.xsl"⟩ := by
    decide +kernel
  rw [houtput] at hpath
  cases hpath
  exact ⟨summary, after, hrun, heffect, text.toUTF8, hreceives⟩

end Concordance
