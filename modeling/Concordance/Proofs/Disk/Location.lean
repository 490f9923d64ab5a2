import Concordance.Proofs.Disk.Path
import Concordance.Proofs.Disk.Tree
import Concordance.Proofs.Outcome

/-!
# Where paths lead

A tree decides only whether a path gets to the location that it names, which takes a directory
before every part.  Once it does, it still does after more directories are made.

Writing changes a tree at the location of the path, and making a directory at one where nothing
was.  `Rewritten` says what all changes of a run come to: the files are those written last and,
elsewhere, those that were there before.
-/

namespace Concordance

namespace FileTree

/-- Whether a location is a directory or directly inside one. -/
def IsReached (tree : FileTree) (location : Location) : Prop :=
  tree.occupant? location = some .directory ∨
    ∃ directory name, location = directory ++ [name] ∧
      tree.occupant? directory = some .directory

theorem follow_eq_ok_iff {tree : FileTree} {start finish : Location} {part : String} :
    tree.follow start part = .ok finish ↔
      tree.occupant? start = some .directory ∧ part.utf8ByteSize ≤ nameLimit ∧
        finish = start.step part := by
  cases hstart : tree.at? start with
  | none => simp [follow, occupant?, hstart]
  | some node =>
    cases node with
    | file content => simp [follow, occupant?, hstart, FileNode.occupant]
    | directory entries =>
      have hdirectory : tree.occupant? start = some .directory := by
        simp [occupant?, hstart, FileNode.occupant]
      -- A part that is not a name is short enough anyway.
      by_cases hsilent : part = "" ∨ part = "."
      · have hshort : part.utf8ByteSize ≤ nameLimit := by
          obtain rfl | rfl := hsilent <;> decide
        simp only [follow, hstart, Location.step, if_pos hsilent, hdirectory, hshort,
          Except.ok.injEq, true_and]
        exact eq_comm
      by_cases hparent : part = ".."
      · have hshort : part.utf8ByteSize ≤ nameLimit := by
          subst hparent
          decide
        simp only [follow, hstart, Location.step, if_neg hsilent, if_pos hparent, hdirectory,
          hshort, Except.ok.injEq, true_and]
        exact eq_comm
      by_cases hlong : nameLimit < part.utf8ByteSize
      · simp only [follow, hstart, if_neg hsilent, if_neg hparent, if_pos hlong, reduceCtorEq,
          Nat.not_le.mpr hlong, false_and, and_false]
      · simp only [follow, hstart, Location.step, if_neg hsilent, if_neg hparent, if_neg hlong,
          hdirectory, Nat.not_lt.mp hlong, Except.ok.injEq, true_and]
        exact eq_comm

theorem IsReached.step {tree : FileTree} {start : Location} (part : String)
    (h : tree.occupant? start = some .directory) : tree.IsReached (start.step part) := by
  unfold Location.step
  split
  · exact .inl h
  · split
    · exact .inl (directory_dropLast h)
    · exact .inr ⟨start, part, rfl, h⟩

theorem foldl_step_of_foldlM_follow {tree : FileTree} {parts : List String}
    {start finish : Location} (h : parts.foldlM tree.follow start = .ok finish) :
    finish = parts.foldl Location.step start := by
  induction parts generalizing start with
  | nil =>
    cases h
    rfl
  | cons part parts ih =>
    rw [List.foldlM_cons, bind_eq_ok_iff] at h
    obtain ⟨next, hnext, hrest⟩ := h
    obtain ⟨-, -, rfl⟩ := follow_eq_ok_iff.mp hnext
    exact ih hrest

theorem isReached_of_foldlM_follow {tree : FileTree} {parts : List String}
    {start finish : Location} (h : parts.foldlM tree.follow start = .ok finish)
    (hparts : tree.IsReached start ∨ parts ≠ []) : tree.IsReached finish := by
  induction parts generalizing start with
  | nil =>
    cases h
    exact hparts.resolve_right fun hne => hne rfl
  | cons part parts ih =>
    rw [List.foldlM_cons, bind_eq_ok_iff] at h
    obtain ⟨next, hnext, hrest⟩ := h
    obtain ⟨hdirectory, -, rfl⟩ := follow_eq_ok_iff.mp hnext
    exact ih hrest (.inl (.step part hdirectory))

theorem foldlM_follow_of_directories {tree after : FileTree}
    (kept : ∀ location, tree.occupant? location = some .directory →
      after.occupant? location = some .directory)
    {parts : List String} {start finish : Location}
    (h : parts.foldlM tree.follow start = .ok finish) :
    parts.foldlM after.follow start = .ok finish := by
  induction parts generalizing start with
  | nil => exact h
  | cons part parts ih =>
    rw [List.foldlM_cons, bind_eq_ok_iff] at h ⊢
    obtain ⟨next, hnext, hrest⟩ := h
    obtain ⟨hdirectory, hrule⟩ := follow_eq_ok_iff.mp hnext
    exact ⟨next, follow_eq_ok_iff.mpr ⟨kept start hdirectory, hrule⟩, ih hrest⟩

theorem locate_eq_ok_iff {tree : FileTree} {path : Path} {location : Location} :
    tree.locate path = .ok location ↔
      path.text ≠ "" ∧ path.text.utf8ByteSize ≤ pathLimit ∧
        path.parts.foldlM tree.follow (if path.isAbsolute then [] else tree.here) =
          .ok location := by
  by_cases hempty : path.text = ""
  · simp [locate, hempty]
  · by_cases hlong : pathLimit < path.text.utf8ByteSize
    · simp [locate, hempty, hlong, Nat.not_le.mpr hlong]
    · simp [locate, hempty, hlong, Nat.not_lt.mp hlong]

/-- A tree leads a path nowhere but to the location that the path names. -/
theorem eq_location_of_locate {tree : FileTree} {path : Path} {location : Location}
    (h : tree.locate path = .ok location) : location = path.location tree.here :=
  foldl_step_of_foldlM_follow (locate_eq_ok_iff.mp h).2.2

theorem isReached_of_locate {tree : FileTree} {path : Path} {location : Location}
    (h : tree.locate path = .ok location) : tree.IsReached location :=
  isReached_of_foldlM_follow (locate_eq_ok_iff.mp h).2.2 (.inr path.parts_ne_nil)

theorem read_of_locate {tree : FileTree} {path : Path} {location : Location}
    {content : ByteArray} (h : tree.locate path = .ok location)
    (hfile : tree.file? location = some content) : tree.read path = .ok content := by
  unfold file? occupant? at hfile
  cases hnode : tree.at? location with
  | none => simp [hnode] at hfile
  | some node =>
    cases node with
    | file bytes => simpa [read, find, h, hnode, FileNode.occupant] using hfile
    | directory entries => simp [hnode, FileNode.occupant] at hfile

theorem isDirectory_iff {tree : FileTree} {path : Path} : tree.isDirectory path = true ↔
    ∃ location, tree.locate path = .ok location ∧ tree.occupant? location = some .directory := by
  unfold isDirectory find
  cases hlocate : tree.locate path with
  | error error => simp
  | ok location =>
    cases hnode : tree.at? location with
    | none => simp [occupant?, hnode]
    | some node => cases node <;> simp [occupant?, hnode, FileNode.occupant]

/-- A file is written where its path leads, unless a directory is there or the path ends in a
slash. -/
theorem openFile_eq_ok_iff {tree : FileTree} {path : Path} {location : Location} :
    tree.openFile path = .ok location ↔ withoutSlashes path = path ∧
      tree.locate path = .ok location ∧ tree.occupant? location ≠ some .directory := by
  unfold openFile
  constructor
  · intro h
    split at h
    · cases h
    · obtain ⟨found, hfound, h⟩ := bind_eq_ok_iff.mp h
      split at h
      · cases h
      · next content hnode =>
        split at h
        · next hstripped =>
          cases h
          exact ⟨hstripped, hstripped ▸ hfound, by simp [occupant?, hnode, FileNode.occupant]⟩
        · cases h
      · next hnode =>
        split at h
        · next hstripped =>
          cases h
          exact ⟨hstripped, hstripped ▸ hfound, by simp [occupant?, hnode]⟩
        · cases h
  · rintro ⟨hstripped, hlocate, hfree⟩
    have hdirectory : ¬tree.isDirectory path = true := by
      intro hdirectory
      obtain ⟨other, hother, hoccupant⟩ := isDirectory_iff.mp hdirectory
      rw [hlocate] at hother
      cases hother
      exact hfree hoccupant
    rw [if_neg hdirectory, hstripped]
    refine bind_eq_ok_iff.mpr ⟨location, hlocate, ?_⟩
    cases hnode : tree.at? location with
    | none => simp
    | some node =>
      cases node with
      | file content => simp
      | directory entries => exact absurd (by simp [occupant?, hnode, FileNode.occupant]) hfree

theorem openFile_eq_ok {tree : FileTree} {path : Path} {location : Location}
    (h : tree.openFile path = .ok location) :
    tree.locate path = .ok location ∧ tree.occupant? location ≠ some .directory :=
  (openFile_eq_ok_iff.mp h).2

/-- What a run makes of the files of a tree: those that it wrote, latest first, and elsewhere those
that were there.  Directories stay. -/
structure Rewritten (before : FileTree) (written : List (Location × ByteArray))
    (after : FileTree) : Prop where
  here : after.here = before.here
  directory : ∀ location, before.occupant? location = some .directory →
    after.occupant? location = some .directory
  file : ∀ location, after.file? location = (written.lookup location).or (before.file? location)

namespace Rewritten

theorem refl (tree : FileTree) : Rewritten tree [] tree :=
  ⟨rfl, fun _ h => h, fun _ => rfl⟩

theorem trans {before middle after : FileTree} {first second : List (Location × ByteArray)}
    (h : Rewritten before first middle) (h' : Rewritten middle second after) :
    Rewritten before (second ++ first) after where
  here := h'.here.trans h.here
  directory location hlocation := h'.directory location (h.directory location hlocation)
  file location := by
    rw [h'.file, h.file, List.lookup_append, Option.or_assoc]

/-- A path that leads somewhere still leads there after the run. -/
theorem locate {before after : FileTree} {written : List (Location × ByteArray)}
    (h : Rewritten before written after) {path : Path} {location : Location}
    (hlocate : before.locate path = .ok location) : after.locate path = .ok location := by
  rw [locate_eq_ok_iff] at hlocate ⊢
  obtain ⟨hempty, hlong, hparts⟩ := hlocate
  rw [h.here]
  exact ⟨hempty, hlong, foldlM_follow_of_directories h.directory hparts⟩

end Rewritten

theorem file?_eq_of_occupant? {tree after : FileTree} {location other : Location}
    {occupant : Option Occupant}
    (h : after.occupant? other = if other = location then occupant else tree.occupant? other)
    (hother : other ≠ location) : after.file? other = tree.file? other := by
  simp only [file?, h, if_neg hother]

theorem occupant?_write {tree : FileTree} {path : Path} {location : Location}
    (h : tree.openFile path = .ok location) (content : ByteArray) (other : Location) :
    (tree.setAt location (.file content)).occupant? other =
      if other = location then some (.file content) else tree.occupant? other := by
  obtain ⟨hlocate, hfree⟩ := openFile_eq_ok h
  obtain hdirectory | ⟨directory, name, rfl, hdirectory⟩ := isReached_of_locate hlocate
  · exact absurd hdirectory hfree
  · exact occupant?_setAt (FileNode.isLeaf_file content) hdirectory hfree other

theorem rewritten_write {tree : FileTree} {path : Path} {location : Location}
    (h : tree.openFile path = .ok location) (content : ByteArray) :
    Rewritten tree [(location, content)] (tree.setAt location (.file content)) := by
  have hset := occupant?_write h content
  refine ⟨rfl, fun other hother => ?_, fun other => ?_⟩
  · have hne : other ≠ location := fun heq => (openFile_eq_ok h).2 (heq ▸ hother)
    rw [hset, if_neg hne, hother]
  · by_cases hother : other = location
    · subst hother
      simp [file?, hset]
    · simp [file?_eq_of_occupant? (hset other) hother, List.lookup_cons,
        beq_eq_false_iff_ne.mpr hother]

/-- A directory is made where the path leads, at a place that was free. -/
theorem occupant?_makeDirectory {tree after : FileTree} {path : Path}
    (h : tree.makeDirectory path = .ok after) :
    ∃ location, tree.locate (withoutSlashes path) = .ok location ∧
      tree.occupant? location = none ∧ after.here = tree.here ∧
      ∀ other, after.occupant? other =
        if other = location then some .directory else tree.occupant? other := by
  unfold makeDirectory at h
  split at h
  · cases h
  obtain ⟨location, hlocate, h⟩ := bind_eq_ok_iff.mp h
  split at h
  · cases h
  · next hnode =>
    cases h
    have hnone : tree.occupant? location = none := by simp [occupant?, hnode]
    refine ⟨location, hlocate, hnone, rfl, ?_⟩
    obtain hdirectory | ⟨directory, name, rfl, hdirectory⟩ := isReached_of_locate hlocate
    · simp [hnone] at hdirectory
    · have hfree : tree.occupant? (directory ++ [name]) ≠ some .directory := by simp [hnone]
      exact occupant?_setAt FileNode.isLeaf_empty hdirectory hfree

theorem rewritten_makeDirectory {tree after : FileTree} {path : Path}
    (h : tree.makeDirectory path = .ok after) : Rewritten tree [] after := by
  obtain ⟨location, -, hnone, hhere, hset⟩ := occupant?_makeDirectory h
  refine ⟨hhere, fun other hother => ?_, fun other => ?_⟩
  · rw [hset]
    split
    · rfl
    · exact hother
  · by_cases hother : other = location
    · subst hother
      simp [file?, hset, hnone]
    · simp [file?_eq_of_occupant? (hset other) hother]

end FileTree

end Concordance
