import Concordance.Batch.Compile
import Concordance.Proofs.Disk.Parent

/-!
# Trees that differ in stylesheets

Compiling changes a tree in two ways only: directories are made and stylesheets are written.  A
definition, whose name ends in another way, is read after such changes as it was before, provided
that no path goes back over its steps.  As long as only stylesheets are written, paths lead where
they led, and the same files may be written.
-/

namespace Concordance

/-- Whether the last name on the way is that of a stylesheet. -/
def Location.IsStylesheet (location : Location) : Prop :=
  ∃ folder stem, location = folder ++ [stem ++ ".xsl"]

/-- A name that ends as those of definitions do is not that of a stylesheet. -/
theorem Location.not_isStylesheet {extension : String}
    (h : extension.toLower = "toml" ∨ extension.toLower = "json") (folder : Location)
    (stem : String) : ¬IsStylesheet (folder ++ [stem ++ "." ++ extension]) := by
  rintro ⟨folder', stem', heq⟩
  have hlast : stem ++ "." ++ extension = stem' ++ ".xsl" := by
    simpa using congrArg List.getLast? heq
  have hlength : extension.toList.length = 4 := by
    have hlower : extension.toLower.length = extension.length := String.length_map
    rw [String.length_toList, ← hlower]
    rcases h with h | h <;> rw [h] <;> rfl
  have hchars : (stem ++ ".").toList ++ extension.toList = stem'.toList ++ ".xsl".toList := by
    simpa using congrArg String.toList hlast
  obtain rfl : extension = ".xsl" :=
    String.toList_injective (List.append_inj_right' hchars hlength)
  exact absurd h (by decide +kernel)

/-- The name of a stylesheet is not that of a definition. -/
theorem Notation.ofExtension?_stylesheet (stem : String) :
    (Path.splitExtension (stem ++ ".xsl")).2.bind Notation.ofExtension? = none := by
  have hreverse :
      (stem ++ ".xsl").toList.reverse = ['l', 's', 'x', '.'] ++ stem.toList.reverse := by
    simp
  have hafter : ((stem ++ ".xsl").toList.reverse.takeWhile (fun c => decide (c ≠ '.'))).reverse =
      ['x', 's', 'l'] := by
    rw [hreverse]
    simp
  unfold Path.splitExtension
  simp only [hafter]
  split
  · rfl
  · change ofExtension? (String.ofList ['x', 's', 'l']) = none
    decide +kernel

theorem Path.not_isStylesheet {path : Path} (h : path.notation?.isSome = true) (here : Location) :
    ¬(path.location here).IsStylesheet := by
  rintro ⟨folder, stem, hlocation⟩
  rw [notation?, extension?] at h
  cases hname : path.fileName? with
  | none =>
    rw [hname] at h
    cases h
  | some name =>
    obtain ⟨before, hbefore⟩ := exists_location_eq_of_fileName? hname here
    rw [hbefore] at hlocation
    have hlast : name = stem ++ ".xsl" := by
      simpa using congrArg List.getLast? hlocation
    rw [hname, hlast] at h
    simp only [Option.bind_some, Notation.ofExtension?_stylesheet] at h
    cases h

namespace FileTree

/-- What making directories and writing stylesheets leaves as it is: directories stay, and so do
files that are not stylesheets. -/
structure Kept (before after : FileTree) : Prop where
  here : after.here = before.here
  directory : ∀ location, before.occupant? location = some .directory →
    after.occupant? location = some .directory
  file : ∀ location, ¬location.IsStylesheet → after.file? location = before.file? location

/-- What writing stylesheets alone leaves as it is: directories do not change, and neither do files
that are not stylesheets. -/
structure Restyled (before after : FileTree) : Prop where
  here : after.here = before.here
  directory_iff : ∀ location, after.occupant? location = some .directory ↔
    before.occupant? location = some .directory
  file : ∀ location, ¬location.IsStylesheet → after.file? location = before.file? location

variable {before middle after : FileTree}

theorem Kept.refl (tree : FileTree) : Kept tree tree :=
  ⟨rfl, fun _ h => h, fun _ _ => rfl⟩

theorem Kept.trans (h : Kept before middle) (h' : Kept middle after) : Kept before after where
  here := h'.here.trans h.here
  directory location hlocation := h'.directory location (h.directory location hlocation)
  file location hlocation := (h'.file location hlocation).trans (h.file location hlocation)

theorem Rewritten.kept_of_isStylesheet {written : List (Location × ByteArray)}
    (h : Rewritten before written after) (hstyled : ∀ file ∈ written, file.1.IsStylesheet) :
    Kept before after := by
  refine ⟨h.here, h.directory, fun location hlocation => ?_⟩
  have hnone : written.lookup location = none := by
    refine List.lookup_eq_none_iff.mpr fun file hfile => ?_
    rw [bne_iff_ne]
    rintro rfl
    exact hlocation (hstyled file hfile)
  rw [h.file, hnone, Option.none_or]

theorem Rewritten.kept (h : Rewritten before [] after) : Kept before after :=
  h.kept_of_isStylesheet (by simp)

namespace Restyled

theorem refl (tree : FileTree) : Restyled tree tree :=
  ⟨rfl, fun _ => Iff.rfl, fun _ _ => rfl⟩

theorem trans (h : Restyled before middle) (h' : Restyled middle after) :
    Restyled before after where
  here := h'.here.trans h.here
  directory_iff location := (h'.directory_iff location).trans (h.directory_iff location)
  file location hlocation := (h'.file location hlocation).trans (h.file location hlocation)

theorem kept (h : Restyled before after) : Kept before after :=
  ⟨h.here, fun location => (h.directory_iff location).mpr, h.file⟩

variable (h : Restyled before after)

include h

/-- Paths lead where they led. -/
theorem locate_eq_ok_iff {path : Path} {location : Location} :
    after.locate path = .ok location ↔ before.locate path = .ok location := by
  rw [FileTree.locate_eq_ok_iff, FileTree.locate_eq_ok_iff, h.here]
  refine and_congr_right fun _ => and_congr_right fun _ => ?_
  constructor
  · exact foldlM_follow_of_directories fun location => (h.directory_iff location).mp
  · exact foldlM_follow_of_directories fun location => (h.directory_iff location).mpr

theorem isDirectory_eq (path : Path) : after.isDirectory path = before.isDirectory path := by
  rw [Bool.eq_iff_iff, isDirectory_iff, isDirectory_iff]
  simp only [h.locate_eq_ok_iff, h.directory_iff]

/-- Files may be written where they might have been written. -/
theorem openFile_eq_ok_iff {path : Path} {location : Location} :
    after.openFile path = .ok location ↔ before.openFile path = .ok location := by
  rw [FileTree.openFile_eq_ok_iff, FileTree.openFile_eq_ok_iff, h.locate_eq_ok_iff, Ne,
    h.directory_iff]

end Restyled

/-- A stylesheet that is written takes the place of nothing but a file. -/
theorem restyled_write {tree : FileTree} {path : Path} {location : Location}
    (h : tree.openFile path = .ok location) (hstylesheet : location.IsStylesheet)
    (content : ByteArray) : Restyled tree (tree.setAt location (.file content)) := by
  have hset := occupant?_write h content
  refine ⟨rfl, fun other => ?_, fun other hother => ?_⟩
  · by_cases hother : other = location
    · subst hother
      simp [hset, (openFile_eq_ok h).2]
    · rw [hset, if_neg hother]
  · have hne : other ≠ location := fun heq => hother (heq ▸ hstylesheet)
    exact file?_eq_of_occupant? (hset other) hne

/-! ## Reading -/

theorem read_eq_ok_iff {tree : FileTree} {path : Path} {content : ByteArray} :
    tree.read path = .ok content ↔
      ∃ location, tree.locate path = .ok location ∧ tree.file? location = some content := by
  unfold read find file? occupant?
  cases hlocate : tree.locate path with
  | error error => simp
  | ok location =>
    cases hnode : tree.at? location with
    | none => simp [hnode]
    | some node => cases node <;> simp [hnode, FileNode.occupant]

/-- Without steps back a path only goes further down. -/
theorem prefix_foldl_step {parts : List String} (plain : ".." ∉ parts) (start : Location) :
    start <+: parts.foldl Location.step start := by
  induction parts generalizing start with
  | nil => exact List.prefix_refl start
  | cons part rest ih =>
    rw [List.mem_cons, not_or] at plain
    have hstep : start <+: start.step part := by
      unfold Location.step
      split
      · exact List.prefix_refl start
      · rw [if_neg (Ne.symm plain.1)]
        exact List.prefix_append start [part]
    exact hstep.trans (ih plain.2 (start.step part))

/-- A path without steps back that leads to a file leads there in every tree that has the file. -/
theorem foldlM_follow_of_file {tree other : FileTree} {parts : List String}
    (plain : ".." ∉ parts) {start finish : Location}
    (h : parts.foldlM tree.follow start = .ok finish) {occupant : Occupant}
    (hnone : tree.occupant? finish ≠ some .directory)
    (hthere : other.occupant? finish = some occupant) :
    parts.foldlM other.follow start = .ok finish := by
  induction parts generalizing start with
  | nil => exact h
  | cons part rest ih =>
    have hwhole := foldl_step_of_foldlM_follow h
    rw [List.foldlM_cons, bind_eq_ok_iff] at h ⊢
    obtain ⟨next, hnext, hrest⟩ := h
    obtain ⟨hdirectory, hshort, hstep⟩ := follow_eq_ok_iff.mp hnext
    -- what is gone through is above the file, and so a directory in the other tree as well
    obtain ⟨more, hmore⟩ : start <+: finish := hwhole ▸ prefix_foldl_step plain start
    have hgone : other.occupant? start = some .directory := by
      cases more with
      | nil =>
        rw [List.append_nil] at hmore
        exact absurd (hmore ▸ hdirectory) hnone
      | cons name more =>
        rw [← hmore] at hthere
        exact directory_of_cons hthere
    refine ⟨next, follow_eq_ok_iff.mpr ⟨hgone, hshort, hstep⟩, ih ?_ hrest⟩
    exact fun hmem => plain (List.mem_cons_of_mem part hmem)

theorem occupant?_of_file? {tree : FileTree} {location : Location} {content : ByteArray}
    (h : tree.file? location = some content) : tree.occupant? location = some (.file content) := by
  unfold file? at h
  split at h
  · next hfile =>
    cases h
    exact hfile
  · cases h

/-- A definition that was read before is read. -/
theorem Kept.read_of_read (h : Kept before after) {path : Path}
    (hname : path.notation?.isSome = true) {content : ByteArray}
    (hread : before.read path = .ok content) : after.read path = .ok content := by
  obtain ⟨location, hlocate, hcontent⟩ := FileTree.read_eq_ok_iff.mp hread
  obtain rfl := eq_location_of_locate hlocate
  obtain ⟨hempty, hlong, hfold⟩ := FileTree.locate_eq_ok_iff.mp hlocate
  have hfile := h.file _ (Path.not_isStylesheet hname before.here)
  refine FileTree.read_eq_ok_iff.mpr
    ⟨_, FileTree.locate_eq_ok_iff.mpr ⟨hempty, hlong, ?_⟩, hfile.trans hcontent⟩
  rw [h.here]
  exact foldlM_follow_of_directories h.directory hfold

/-- A definition is read as it was read before. -/
theorem Kept.read_eq_ok_iff (h : Kept before after) {path : Path}
    (plain : Component.parent ∉ path.components) (hname : path.notation?.isSome = true)
    {content : ByteArray} : after.read path = .ok content ↔ before.read path = .ok content := by
  rw [Path.parent_mem_components_iff] at plain
  have hfile : after.file? (path.location before.here) = before.file? (path.location before.here) :=
    h.file _ (Path.not_isStylesheet hname before.here)
  rw [FileTree.read_eq_ok_iff, FileTree.read_eq_ok_iff]
  constructor
  · rintro ⟨location, hlocate, hcontent⟩
    obtain rfl := eq_location_of_locate hlocate
    rw [h.here] at hlocate hcontent
    have hcontent' := hfile ▸ hcontent
    refine ⟨_, ?_, hcontent'⟩
    obtain ⟨hempty, hlong, hfold⟩ := FileTree.locate_eq_ok_iff.mp hlocate
    rw [h.here] at hfold
    have hnone : after.occupant? (path.location before.here) ≠ some .directory := by
      simp [occupant?_of_file? hcontent]
    exact FileTree.locate_eq_ok_iff.mpr ⟨hempty, hlong,
      foldlM_follow_of_file plain hfold hnone (occupant?_of_file? hcontent')⟩
  · exact fun hread => FileTree.read_eq_ok_iff.mp
      (h.read_of_read hname (FileTree.read_eq_ok_iff.mpr hread))

end FileTree

end Concordance
