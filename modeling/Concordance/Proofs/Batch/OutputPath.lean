import Concordance.Proofs.Batch.Discovery

/-!
# Where outputs go

An output has the stem of its source and an extension that no definition has.  It is one name
further than the folder that it goes into, which is the given one or else the parent of the source,
and the parent says all that the source says except for its name.  So outputs are the same path
where the stems of their sources are, and, without a given folder, the parents.
-/

namespace Concordance

namespace Path

/-! ## What parents say -/

theorem filterMap_dropWhile_isSilent (parts : List String) :
    (parts.dropWhile isSilent).filterMap innerComponent = parts.filterMap innerComponent := by
  induction parts with
  | nil => rfl
  | cons part rest ih =>
    by_cases h : isSilent part = true
    · have hnone : innerComponent part = none := if_pos (by simpa [isSilent] using h)
      rw [List.dropWhile_cons_of_pos h, ih, List.filterMap_cons_none hnone]
    · rw [List.dropWhile_cons_of_neg h]

theorem filterMap_dropSilent (parts : List String) :
    (dropSilent parts).filterMap innerComponent = parts.filterMap innerComponent := by
  cases parts with
  | nil => rfl
  | cons first rest =>
    rw [dropSilent, List.filterMap_cons, List.filterMap_reverse, filterMap_dropWhile_isSilent,
      List.filterMap_reverse, List.reverse_reverse, List.filterMap_cons]

theorem partComponents_dropSilent (parts : List String) :
    partComponents (dropSilent parts) = partComponents parts := by
  cases parts with
  | nil => rfl
  | cons first rest =>
    rw [dropSilent, partComponents, List.filterMap_reverse, filterMap_dropWhile_isSilent,
      List.filterMap_reverse, List.reverse_reverse, partComponents]

/-- Silent parts at the end say nothing. -/
theorem components_eq_dropSilent (path : Path) :
    path.components =
      if path.isAbsolute then .root :: (dropSilent path.parts).filterMap innerComponent
      else partComponents (dropSilent path.parts) := by
  rw [filterMap_dropSilent, partComponents_dropSilent]
  rfl

theorem exists_innerComponent {part : String} (h : isSilent part = false) :
    ∃ component, innerComponent part = some component := by
  have hsilent : ¬(part = "" ∨ part = ".") := by simpa [isSilent] using h
  rw [innerComponent, if_neg hsilent]
  split
  · exact ⟨_, rfl⟩
  · exact ⟨_, rfl⟩

/-- The last part that says something is the file name. -/
theorem exists_dropSilent_eq_concat {path : Path} {name : String}
    (h : path.fileName? = some name) : ∃ before, dropSilent path.parts = before ++ [name] := by
  have hlast := getLast?_components_of_fileName? h
  rw [components_eq_dropSilent] at hlast
  have hname {before : List String} {part : String}
      (hkept : dropSilent path.parts = before ++ [part]) (hpart : isSilent part = false) :
      part = name := by
    obtain ⟨component, hcomponent⟩ := exists_innerComponent hpart
    have hend : component = .name name := by
      rw [hkept, partComponents_concat _ hcomponent, List.filterMap_append,
        List.filterMap_cons_some hcomponent, List.filterMap_nil, ← List.cons_append] at hlast
      split at hlast
      · exact Option.some.inj (List.getLast?_concat.symm.trans hlast)
      · exact Option.some.inj (List.getLast?_concat.symm.trans hlast)
    exact (innerComponent_eq_name_iff.mp (hend ▸ hcomponent)).1
  rcases dropSilent_cases path.parts_ne_nil with ⟨part, hkept⟩ | ⟨before, part, hkept, hpart⟩
  · cases hpart : isSilent part with
    | false =>
      have hwhole : dropSilent path.parts = [] ++ [part] := hkept
      exact ⟨[], by rw [hwhole, hname hwhole hpart]⟩
    | true =>
      -- a single silent part says no name
      have hsilent : part = "" ∨ part = "." := by simpa [isSilent] using hpart
      rw [hkept] at hlast
      exfalso
      rcases hsilent with rfl | rfl <;> split at hlast <;>
        simp [partComponents, innerComponent] at hlast
  · exact ⟨before, by rw [hkept, hname hkept hpart]⟩

theorem exists_of_dropSilent_eq_cons {parts kept : List String} {part : String}
    (h : dropSilent parts = part :: kept) : ∃ rest, parts = part :: rest := by
  cases parts with
  | nil => cases h
  | cons first rest =>
    obtain ⟨rfl, -⟩ := List.cons.inj h
    exact ⟨rest, rfl⟩

theorem isAbsolute_ofParts_iff {parts : List String}
    (slash : ∀ part ∈ parts, '/' ∉ part.toList) :
    (ofParts parts).isAbsolute = true ↔ ∃ rest, parts = "" :: rest := by
  rcases ofParts_cases parts with
    ⟨rfl, htext⟩ | ⟨hkept, htext⟩ | ⟨before, part, nonempty, hkept, htext⟩
  · rw [htext]
    simp [isAbsolute]
  · obtain ⟨rest, hparts⟩ : ∃ rest, parts = "" :: rest := exists_of_dropSilent_eq_cons hkept
    rw [htext]
    exact iff_of_true rfl ⟨rest, hparts⟩
  · have hslash := slash_notMem_dropSilent slash
    rw [hkept] at hslash
    have hself : (Path.mk ("/".intercalate (before ++ [part]))).parts = before ++ [part] :=
      split_intercalate hslash (by simp)
    rw [htext, isAbsolute_iff, hself]
    constructor
    · rintro ⟨rest, -, heq⟩
      exact exists_of_dropSilent_eq_cons (hkept.trans heq)
    · rintro ⟨rest, rfl⟩
      rw [dropSilent] at hkept
      refine ⟨_, fun hnil => ?_, hkept.symm⟩
      rw [hnil] at hkept
      have hlast := congrArg List.getLast? hkept
      simp [nonempty.symm] at hlast

section Parents

variable {path parent : Path} {name : String}

/-- The parent is written from the parts before the file name. -/
theorem exists_eq_ofParts (h : path.parent? = some parent) (hname : path.fileName? = some name) :
    ∃ before, dropSilent path.parts = before ++ [name] ∧ parent = ofParts before ∧
      ∀ part ∈ before, '/' ∉ part.toList := by
  obtain ⟨before, hbefore⟩ := exists_dropSilent_eq_concat hname
  have hparent := eq_ofParts_of_parent? h
  have hslash : ∀ part ∈ (dropSilent path.parts).dropLast, '/' ∉ part.toList :=
    slash_notMem_parentParts
  rw [hbefore, List.dropLast_concat] at hparent hslash
  exact ⟨before, hbefore, hparent, hslash⟩

theorem isAbsolute_parent (h : path.parent? = some parent) (hname : path.fileName? = some name) :
    parent.isAbsolute = path.isAbsolute := by
  obtain ⟨before, hbefore, rfl, hslash⟩ := exists_eq_ofParts h hname
  rw [Bool.eq_iff_iff, isAbsolute_ofParts_iff hslash, isAbsolute_iff]
  constructor
  · rintro ⟨rest, rfl⟩
    obtain ⟨more, hparts⟩ := dropSilent_prefix_self path.parts
    rw [hbefore] at hparts
    exact ⟨rest ++ [name] ++ more, by simp, by rw [← hparts]; simp⟩
  · rintro ⟨rest, -, hparts⟩
    rw [hparts, dropSilent] at hbefore
    cases before with
    | nil =>
      have hempty : name = "" := (List.cons.inj hbefore).1.symm
      exact absurd (Or.inl hempty) (isName_of_fileName? hname).silent
    | cons first others => exact ⟨others, by rw [(List.cons.inj hbefore).1]⟩

/-- A path with a file name says what its parent says, and then the name. -/
theorem components_of_parent? (h : path.parent? = some parent)
    (hname : path.fileName? = some name) :
    path.components = parent.components ++ [.name name] := by
  have habsolute := isAbsolute_parent h hname
  obtain ⟨before, hbefore, rfl, hslash⟩ := exists_eq_ofParts h hname
  have hplain := isName_of_fileName? hname
  have hinner : innerComponent name = some (.name name) :=
    innerComponent_eq_name_iff.mpr ⟨rfl, hplain.silent, hplain.parent⟩
  rw [components_eq_dropSilent, components, hbefore, habsolute, ← filterMap_folder (ofParts before),
    ← partComponents_folder (ofParts before), folder_ofParts hslash, filterMap_dropSilent,
    partComponents_dropSilent]
  split
  · rw [List.filterMap_append, List.filterMap_cons_some hinner, List.filterMap_nil,
      List.cons_append]
  · rw [partComponents_concat _ hinner]

end Parents

/-! ## Stems and extensions -/

theorem stem_ne_empty {path : Path} {stem : String} (h : path.stem? = some stem) : stem ≠ "" := by
  obtain ⟨name, hname, rfl⟩ := Option.map_eq_some_iff.mp h
  have hempty : name ≠ "" := fun hempty => (isName_of_fileName? hname).silent (Or.inl hempty)
  unfold splitExtension
  dsimp only
  split
  · exact hempty
  · next before hbefore =>
    intro hnil
    exact hbefore (by simpa using congrArg String.toList hnil)

theorem splitExtension_stylesheet {stem : String} (h : stem ≠ "") :
    splitExtension (stem ++ ".xsl") = (stem, some "xsl") := by
  have hsplit : splitExtension (stem ++ "." ++ "xsl") = (stem, some "xsl") :=
    splitExtension_append h (by decide)
  rwa [String.append_assoc] at hsplit

/-- Paths that are the same have the same extension. -/
theorem extension?_eq_of_same {path path' : Path} (h : path.same path' = true) :
    path.extension? = path'.extension? := by
  have hcomponents : path.components = path'.components := by simpa [same] using h
  rw [extension?, extension?, fileName?, fileName?, hcomponents]

/-- Whether two paths have parents that are the same path. -/
def SameParent (path path' : Path) : Prop :=
  ∃ parent parent', path.parent? = some parent ∧ path'.parent? = some parent' ∧
    parent.same parent' = true

theorem same_join_iff {path path' : Path} {stem stem' : String}
    (h : IsName (stem ++ ".xsl")) (h' : IsName (stem' ++ ".xsl")) :
    (path.join (stem ++ ".xsl")).same (path'.join (stem' ++ ".xsl")) = true ↔
      path.same path' = true ∧ stem = stem' := by
  rw [same, same, beq_iff_eq, beq_iff_eq, components_join path h, components_join path' h']
  constructor
  · intro heq
    obtain ⟨hpath, hname⟩ := List.append_inj' heq rfl
    have htext : stem ++ ".xsl" = stem' ++ ".xsl" := by simpa using hname
    exact ⟨hpath, by simpa using htext⟩
  · rintro ⟨hpath, rfl⟩
    rw [hpath]

end Path

/-! ## Outputs -/

section Outputs

variable {source output : Path} {directory : Option Path}

theorem exists_outputPath_eq_error_iff (source : Path) (directory : Option Path) :
    (∃ error, outputPath source directory = .error error) ↔
      ∀ name, source.components.getLast? ≠ some (.name name) := by
  have hname : source.fileName? = none ↔
      ∀ name, source.components.getLast? ≠ some (.name name) := by
    unfold Path.fileName?
    split
    · next name hlast => simp [hlast]
    · next hlast => simpa using hlast
  have hstem : source.stem? = none ↔ source.fileName? = none := Option.map_eq_none_iff
  rw [← hname, ← hstem, outputPath]
  cases source.stem? with
  | none => simp
  | some stem => simp

/-- An output leads from a folder to the stem of its source with another extension. -/
theorem exists_folder_of_outputPath (h : outputPath source directory = .ok output) :
    ∃ folder stem, directory.or source.parent? = some folder ∧ source.stem? = some stem ∧
      output = folder.join (stem ++ ".xsl") := by
  obtain ⟨stem, hstem, rfl⟩ := exists_stem_of_outputPath h
  cases directory with
  | some folder => exact ⟨folder, stem, rfl, hstem, rfl⟩
  | none =>
    obtain ⟨parent, hparent⟩ := Path.exists_parent?_of_stem? hstem
    exact ⟨parent, stem, hparent, hstem, by rw [hparent]; rfl⟩

/-- A path has the stem of a source and the extension of stylesheets, and it is one name further
than a folder, as it is written and wherever it leads. -/
structure Path.IsOutputIn (output source folder : Path) : Prop where
  stem : output.stem? = source.stem?
  extension : output.extension? = some "xsl"
  components : ∃ name, output.components = folder.components ++ [.name name]
  location : ∀ here, ∃ name, output.location here = folder.location here ++ [name]

theorem Path.isOutputIn_join (folder : Path) {stem : String} (h : source.stem? = some stem) :
    (folder.join (stem ++ ".xsl")).IsOutputIn source folder := by
  have hname := isName_stylesheet h
  have hsplit := splitExtension_stylesheet (stem_ne_empty h)
  refine ⟨?_, ?_, ⟨_, components_join folder hname⟩,
    fun here => ⟨_, location_join here folder hname⟩⟩
  · rw [stem?, fileName?_join folder hname, Option.map_some, hsplit, h]
  · rw [extension?, fileName?_join folder hname, Option.bind_some, hsplit]

/-- Outputs are the same path where the stems of their sources are and the folders. -/
theorem same_outputs_iff {source' output' : Path} (h : outputPath source directory = .ok output)
    (h' : outputPath source' directory = .ok output') :
    output.same output' = true ↔
      source.stem? = source'.stem? ∧ (directory = none → source.SameParent source') := by
  obtain ⟨folder, stem, hfolder, hstem, rfl⟩ := exists_folder_of_outputPath h
  obtain ⟨folder', stem', hfolder', hstem', rfl⟩ := exists_folder_of_outputPath h'
  rw [Path.same_join_iff (Path.isName_stylesheet hstem) (Path.isName_stylesheet hstem'), hstem,
    hstem', Option.some.injEq, and_comm]
  refine and_congr_right fun _ => ?_
  cases directory with
  | some directory =>
    obtain rfl : directory = folder := Option.some.inj hfolder
    obtain rfl : directory = folder' := Option.some.inj hfolder'
    simp [Path.same]
  | none =>
    have hparent : source.parent? = some folder := hfolder
    have hparent' : source'.parent? = some folder' := hfolder'
    simp [Path.SameParent, hparent, hparent']

/-- A source without a name at its end has no output.  Every other one has its output directly in
the given folder or else in its own parent, under its stem.  Outputs are the same path exactly where
these agree, and none is that of a definition. -/
theorem outputs_keep_stem_and_folder (source : Path) (directory : Option Path) :
    ((∃ error, outputPath source directory = .error error) ↔
        ∀ name, source.components.getLast? ≠ some (.name name)) ∧
      ∀ output, outputPath source directory = .ok output →
        (∃ folder, directory.or source.parent? = some folder ∧ output.IsOutputIn source folder ∧
          (directory = none → ∃ name, source.components = folder.components ++ [.name name])) ∧
        (∀ source' output', outputPath source' directory = .ok output' →
          (output.same output' = true ↔
            source.stem? = source'.stem? ∧ (directory = none → source.SameParent source'))) ∧
        ∀ other extension, other.extension? = some extension →
          extension.toLower = "toml" ∨ extension.toLower = "json" → output.same other = false := by
  refine ⟨exists_outputPath_eq_error_iff source directory, fun output houtput => ⟨?_, ?_, ?_⟩⟩
  · obtain ⟨folder, stem, hfolder, hstem, rfl⟩ := exists_folder_of_outputPath houtput
    refine ⟨folder, hfolder, Path.isOutputIn_join folder hstem, ?_⟩
    rintro rfl
    obtain ⟨name, hname, -⟩ := Option.map_eq_some_iff.mp hstem
    exact ⟨name, Path.components_of_parent? hfolder hname⟩
  · exact fun source' output' houtput' => same_outputs_iff houtput houtput'
  · intro other extension hextension hletters
    obtain ⟨folder, stem, -, hstem, rfl⟩ := exists_folder_of_outputPath houtput
    rw [Bool.eq_false_iff]
    intro hsame
    have hxsl := (Path.isOutputIn_join folder hstem).extension
    rw [Path.extension?_eq_of_same hsame, hextension, Option.some.injEq] at hxsl
    rw [hxsl] at hletters
    exact absurd hletters (by decide +kernel)

/-- A name that begins with a dot has no extension to lose. -/
example : (outputPath ⟨"maps/.toml/"⟩ none).toOption = some ⟨"maps/.toml.xsl"⟩ := by
  decide +kernel

end Outputs

end Concordance
