import Concordance.Proofs.Disk.Making
import Concordance.Proofs.Disk.Styled
import Mathlib.Data.List.Nodup

/-!
# What directories hold

In a proper tree the names in a directory are plain, short enough and different from one another.
Making directories and writing files keeps a tree proper, because a path leads to names of this kind
only, and a name that is there already is not added again.

A directory lists its names, each with whether the path from there to it leads to a file.  In a
proper tree this is so just if a file of that name is inside and the path has not become too long.
-/

namespace Concordance

instance (part : String) : Decidable (Path.IsName part) :=
  decidable_of_iff ('/' ∉ part.toList ∧ ¬(part = "" ∨ part = ".") ∧ part ≠ "..")
    ⟨fun h => ⟨h.1, h.2.1, h.2.2⟩, fun h => ⟨h.slash, h.silent, h.parent⟩⟩

namespace FileNode

/-- The names in a directory.  A file has none. -/
def names : FileNode → List String
  | .file _ => []
  | .directory entries => entries.map Prod.fst

/-- Adds a name unless it is there already. -/
def addName (name : String) (names : List String) : List String :=
  if name ∈ names then names else names ++ [name]

theorem map_fst_setEntry (name : String) (node : FileNode) (entries : List (String × FileNode)) :
    (setEntry name node entries).map Prod.fst = addName name (entries.map Prod.fst) := by
  induction entries with
  | nil => rfl
  | cons entry rest ih =>
    obtain ⟨first, old⟩ := entry
    by_cases hfirst : first = name
    · simp [setEntry, addName, hfirst]
    · by_cases hmem : name ∈ rest.map Prod.fst
      · simp [setEntry, hfirst, ih, addName, hmem]
      · simp [setEntry, hfirst, ih, addName, hmem, Ne.symm hfirst]

/-- A node without names that is put into a directory changes the names there and nowhere else. -/
theorem names_get?_put {new : FileNode} (hleaf : new.IsLeaf) (hnew : new.names = []) (name : String)
    {node found : FileNode} {way other : List String}
    (inside : (node.get? way).map occupant = some .directory)
    (h : (put new node (way ++ [name])).get? other = some found) :
    found.names = [] ∨ ∃ old, node.get? other = some old ∧
      (found.names = old.names ∨ found.names = addName name old.names) := by
  induction way generalizing node other with
  | nil =>
    cases node with
    | file content => simp [get?, occupant] at inside
    | directory entries =>
      cases other with
      | nil =>
        obtain rfl := Option.some.inj h
        exact Or.inr ⟨_, rfl, Or.inr (map_fst_setEntry name new entries)⟩
      | cons first rest =>
        rw [List.nil_append, put, get?, lookup_setEntry] at h
        by_cases hfirst : first = name
        · rw [if_pos hfirst] at h
          cases rest with
          | nil =>
            obtain rfl := Option.some.inj h
            exact Or.inl hnew
          | cons second rest =>
            dsimp only at h
            rw [hleaf second rest] at h
            cases h
        · rw [if_neg hfirst] at h
          exact Or.inr ⟨found, by rw [get?]; exact h, Or.inl rfl⟩
  | cons next way ih =>
    cases node with
    | file content => simp [get?] at inside
    | directory entries =>
      cases hchild : entries.lookup next with
      | none => simp [get?, hchild] at inside
      | some child =>
        have hinside : (child.get? way).map occupant = some .directory := by
          simpa [get?, hchild] using inside
        rw [List.cons_append, put_cons new entries next _ hchild] at h
        cases other with
        | nil =>
          obtain rfl := Option.some.inj h
          refine Or.inr ⟨_, rfl, Or.inl ?_⟩
          have hmem : next ∈ entries.map Prod.fst := by
            obtain ⟨before, after, rfl, -⟩ := List.lookup_eq_some_iff.mp hchild
            simp
          rw [names, map_fst_setEntry, addName, if_pos hmem, names]
        | cons first rest =>
          rw [get?, lookup_setEntry] at h
          by_cases hfirst : first = next
          · subst hfirst
            rw [if_pos rfl] at h
            rw [get?, hchild]
            exact ih hinside h
          · rw [if_neg hfirst] at h
            exact Or.inr ⟨found, by rw [get?]; exact h, Or.inl rfl⟩

/-- The names in the directory are plain, no longer than a name may be, and different from one
another. -/
structure IsProper (node : FileNode) : Prop where
  plain : ∀ name ∈ node.names, Path.IsName name
  short : ∀ name ∈ node.names, name.utf8ByteSize ≤ FileTree.nameLimit
  distinct : node.names.Nodup

instance (node : FileNode) : Decidable node.IsProper :=
  decidable_of_iff ((∀ name ∈ node.names, Path.IsName name) ∧
      (∀ name ∈ node.names, name.utf8ByteSize ≤ FileTree.nameLimit) ∧ node.names.Nodup)
    ⟨fun h => ⟨h.1, h.2.1, h.2.2⟩, fun h => ⟨h.plain, h.short, h.distinct⟩⟩

theorem isProper_of_names_eq_nil {node : FileNode} (h : node.names = []) : node.IsProper := by
  constructor <;> simp [h]

theorem IsProper.of_names_eq {node other : FileNode} (h : node.IsProper)
    (hnames : other.names = node.names) : other.IsProper := by
  constructor <;> rw [hnames]
  exacts [h.plain, h.short, h.distinct]

theorem IsProper.addName {node other : FileNode} (h : node.IsProper) {name : String}
    (hname : Path.IsName name) (hshort : name.utf8ByteSize ≤ FileTree.nameLimit)
    (hnames : other.names = FileNode.addName name node.names) : other.IsProper := by
  by_cases hmem : name ∈ node.names
  · exact h.of_names_eq (hnames.trans (if_pos hmem))
  · have hadded : other.names = node.names ++ [name] := hnames.trans (if_neg hmem)
    refine ⟨?_, ?_, ?_⟩
    · simpa [hadded, or_imp, forall_and, hname] using h.plain
    · simpa [hadded, or_imp, forall_and, hshort] using h.short
    · rw [hadded]
      refine List.nodup_append.mpr ⟨h.distinct, List.nodup_singleton name, ?_⟩
      rintro other hother added hadded rfl
      exact hmem (List.mem_singleton.mp hadded ▸ hother)

/-- What holds of a directory and of everything in its entries holds of everything there. -/
theorem forall_get?_directory {property : FileNode → Prop} {entries : List (String × FileNode)}
    (hself : property (.directory entries))
    (hentries : ∀ entry ∈ entries, ∀ way node, entry.2.get? way = some node → property node) :
    ∀ way node, (directory entries).get? way = some node → property node := by
  intro way node h
  cases way with
  | nil => exact Option.some.inj h ▸ hself
  | cons name way =>
    rw [get?] at h
    cases hlookup : entries.lookup name with
    | none =>
      rw [hlookup] at h
      cases h
    | some child =>
      rw [hlookup] at h
      obtain ⟨before, after, rfl, -⟩ := List.lookup_eq_some_iff.mp hlookup
      exact hentries (name, child) (by simp) way node h

theorem forall_get?_file {property : FileNode → Prop} {content : ByteArray}
    (h : property (.file content)) :
    ∀ way node, (file content).get? way = some node → property node := by
  intro way node hnode
  cases way with
  | nil => exact Option.some.inj hnode ▸ h
  | cons name way => cases hnode

end FileNode

namespace FileTree

/-- Every directory of the tree has proper names. -/
def IsProper (tree : FileTree) : Prop :=
  ∀ location node, tree.at? location = some node → node.IsProper

/-! ## Changes -/

section Changes

variable {tree after : FileTree} {path : Path} {location : Location}

/-- Where a path leads to no directory, its last part is the name of that place in a directory. -/
theorem exists_name_of_locate (h : tree.locate path = .ok location)
    (hfree : tree.occupant? location ≠ some .directory) :
    ∃ folder name, location = folder ++ [name] ∧ tree.occupant? folder = some .directory ∧
      Path.IsName name ∧ name.utf8ByteSize ≤ nameLimit := by
  obtain ⟨-, -, hfold⟩ := locate_eq_ok_iff.mp h
  obtain ⟨before, part, hparts⟩ :=
    (List.eq_nil_or_concat' path.parts).resolve_left path.parts_ne_nil
  rw [hparts, List.foldlM_append] at hfold
  obtain ⟨folder, -, hlast⟩ := bind_eq_ok_iff.mp hfold
  simp only [List.foldlM_cons, List.foldlM_nil, bind_pure] at hlast
  obtain ⟨hdirectory, hshort, rfl⟩ := follow_eq_ok_iff.mp hlast
  have hmem : part ∈ path.parts := by simp [hparts]
  have hslash : '/' ∉ part.toList := Path.slash_notMem_of_mem_parts hmem
  unfold Location.step at hfree ⊢
  split at hfree
  · exact absurd hdirectory hfree
  · next hsilent =>
    split at hfree
    · exact absurd (directory_dropLast hdirectory) hfree
    · next hparent =>
      rw [if_neg hsilent, if_neg hparent]
      exact ⟨folder, part, rfl, hdirectory, ⟨hslash, hsilent, hparent⟩, hshort⟩

/-- A tree stays proper where a node without names is put at a place that a path leads to. -/
theorem IsProper.setAt (proper : tree.IsProper) (h : tree.locate path = .ok location)
    (hfree : tree.occupant? location ≠ some .directory) {node : FileNode} (hleaf : node.IsLeaf)
    (hnode : node.names = []) : (tree.setAt location node).IsProper := by
  obtain ⟨folder, name, rfl, hdirectory, hname, hshort⟩ := exists_name_of_locate h hfree
  intro other found hfound
  rcases FileNode.names_get?_put hleaf hnode name hdirectory hfound with
    hnone | ⟨old, hold, hsame | hadded⟩
  · exact FileNode.isProper_of_names_eq_nil hnone
  · exact (proper other old hold).of_names_eq hsame
  · exact (proper other old hold).addName hname hshort hadded

theorem IsProper.write (proper : tree.IsProper) (h : tree.openFile path = .ok location)
    (content : ByteArray) : (tree.setAt location (.file content)).IsProper :=
  proper.setAt (openFile_eq_ok h).1 (openFile_eq_ok h).2 (FileNode.isLeaf_file content) rfl

theorem makeDirectory_eq_ok (h : tree.makeDirectory path = .ok after) :
    ∃ location, tree.locate (withoutSlashes path) = .ok location ∧
      tree.occupant? location = none ∧ after = tree.setAt location (.directory []) := by
  unfold makeDirectory at h
  split at h
  · cases h
  obtain ⟨location, hlocate, h⟩ := bind_eq_ok_iff.mp h
  split at h
  · cases h
  · next hnode =>
    cases h
    exact ⟨location, hlocate, by simp [occupant?, hnode], rfl⟩

theorem IsProper.makeDirectory (proper : tree.IsProper)
    (h : tree.makeDirectory path = .ok after) : after.IsProper := by
  obtain ⟨location, hlocate, hfree, rfl⟩ := makeDirectory_eq_ok h
  exact proper.setAt hlocate (by simp [hfree]) FileNode.isLeaf_empty rfl

end Changes

/-- What making one directory keeps is kept when directories are made one above the other. -/
theorem making_keeps {kept : FileTree → Prop} {paths : List Path}
    (hstep : ∀ path ∈ paths, ∀ tree after, kept tree → tree.makeDirectory path = .ok after →
      kept after) {tree : FileTree} (htree : kept tree) : kept (making paths tree).2 := by
  induction paths generalizing tree with
  | nil => exact htree
  | cons path above ih =>
    obtain ⟨hpath, habove⟩ := List.forall_mem_cons.mp hstep
    by_cases hempty : path.text = ""
    · rw [making_of_empty hempty]
      exact htree
    have hkept := ih habove htree
    have hmakes := makes_making hempty tree above
    generalize making (path :: above) tree = ending at hmakes
    cases hmakes with
    | @made middle after hbefore hmade =>
      refine hpath middle after ?_ hmade
      rcases hbefore with rfl | hbefore
      · exact htree
      · rw [hbefore] at hkept
        exact hkept
    | refused hbefore herror =>
      rcases hbefore with ⟨rfl, -⟩ | hbefore
      · exact htree
      · rw [hbefore] at hkept
        exact hkept
    | missing hbefore =>
      rw [hbefore] at hkept
      exact hkept

theorem IsProper.makeDirectories {tree after : FileTree} (proper : tree.IsProper) {path : Path}
    {result : Except IoError Unit}
    (h : (Concordance.makeDirectories path : StateM FileTree _).run tree = (result, after)) :
    after.IsProper := by
  have hkept : (making path.ancestors tree).2.IsProper :=
    making_keeps (fun _ _ _ _ => IsProper.makeDirectory) proper
  have hrun : making path.ancestors tree = (result, after) := h
  rw [hrun] at hkept
  exact hkept

/-! ## Listings -/

section Listings

variable {tree : FileTree} {folder : Path} {location : Location} {name : String}

theorem isFile_eq_isSome_read (tree : FileTree) (path : Path) :
    tree.isFile path = (tree.read path).toOption.isSome := by
  unfold isFile FileTree.read
  cases tree.find path with
  | error error => rfl
  | ok node => cases node <;> rfl

theorem isFile_iff {path : Path} : tree.isFile path = true ↔
    ∃ location, tree.locate path = .ok location ∧ (tree.file? location).isSome = true := by
  rw [isFile_eq_isSome_read]
  constructor
  · intro h
    obtain ⟨content, hcontent⟩ := Option.isSome_iff_exists.mp h
    obtain ⟨location, hlocate, hfile⟩ := read_eq_ok_iff.mp (toOption_eq_some_iff.mp hcontent)
    exact ⟨location, hlocate, by rw [hfile]; rfl⟩
  · rintro ⟨location, hlocate, hfile⟩
    obtain ⟨content, hcontent⟩ := Option.isSome_iff_exists.mp hfile
    rw [toOption_eq_some_iff.mpr (read_of_locate hlocate hcontent)]
    rfl

/-- What is before a joined name leads where the path leads. -/
theorem foldlM_follow_folder {start : Location}
    (h : folder.parts.foldlM tree.follow start = .ok location) (hempty : folder.text ≠ "") :
    folder.folder.foldlM tree.follow start = .ok location := by
  unfold Path.folder
  rw [if_neg hempty]
  split
  · next hend =>
    obtain ⟨before, hbefore⟩ := List.getLast?_eq_some_iff.mp hend
    have hparts : folder.parts = Path.split (String.ofList before) ++ [""] :=
      Path.parts_append_slash (by simpa using hbefore) (by simp)
    rw [hparts, List.foldlM_append] at h
    obtain ⟨middle, hmiddle, hlast⟩ := bind_eq_ok_iff.mp h
    simp only [List.foldlM_cons, List.foldlM_nil, bind_pure] at hlast
    have hstay : location = middle := (follow_eq_ok_iff.mp hlast).2.2.trans (if_pos (Or.inl rfl))
    rw [hparts, List.dropLast_concat, hstay]
    exact hmiddle
  · exact h

/-- The path from a directory to a plain name leads to that name inside, unless it is too long. -/
theorem locate_join_iff (hfolder : tree.locate folder = .ok location)
    (hdirectory : tree.occupant? location = some .directory) (hname : Path.IsName name)
    (hshort : name.utf8ByteSize ≤ nameLimit) {inner : Location} :
    tree.locate (folder.join name) = .ok inner ↔
      (folder.join name).text.utf8ByteSize ≤ pathLimit ∧ inner = location ++ [name] := by
  obtain ⟨hempty, -, hparts⟩ := locate_eq_ok_iff.mp hfolder
  have hwhole : (folder.join name).parts.foldlM tree.follow
      (if (folder.join name).isAbsolute then [] else tree.here) = .ok (location ++ [name]) := by
    rw [Path.parts_join folder hname.slash, Path.isAbsolute_join folder hname.slash,
      List.foldlM_append]
    refine bind_eq_ok_iff.mpr ⟨location, foldlM_follow_folder hparts hempty, ?_⟩
    simp only [List.foldlM_cons, List.foldlM_nil, bind_pure]
    refine follow_eq_ok_iff.mpr ⟨hdirectory, hshort, ?_⟩
    rw [Location.step, if_neg hname.silent, if_neg hname.parent]
  have htext : (folder.join name).text ≠ "" := by
    intro htext
    have hsplit : (folder.join name).parts = [""] := by rw [Path.parts, htext]; rfl
    rw [Path.parts_join folder hname.slash] at hsplit
    have hlast := congrArg List.getLast? hsplit
    rw [List.getLast?_concat] at hlast
    exact hname.silent (Or.inl (Option.some.inj hlast))
  rw [locate_eq_ok_iff]
  constructor
  · rintro ⟨-, hlong, hfold⟩
    rw [hwhole] at hfold
    exact ⟨hlong, (Except.ok.inj hfold).symm⟩
  · rintro ⟨hlong, rfl⟩
    exact ⟨htext, hlong, hwhole⟩

theorem isFile_join_iff (hfolder : tree.locate folder = .ok location)
    (hdirectory : tree.occupant? location = some .directory) (hname : Path.IsName name)
    (hshort : name.utf8ByteSize ≤ nameLimit) : tree.isFile (folder.join name) = true ↔
      (folder.join name).text.utf8ByteSize ≤ pathLimit ∧
        (tree.file? (location ++ [name])).isSome = true := by
  rw [isFile_iff]
  constructor
  · rintro ⟨inner, hlocate, hfile⟩
    obtain ⟨hlong, rfl⟩ := (locate_join_iff hfolder hdirectory hname hshort).mp hlocate
    exact ⟨hlong, hfile⟩
  · rintro ⟨hlong, hfile⟩
    exact ⟨_, (locate_join_iff hfolder hdirectory hname hshort).mpr ⟨hlong, rfl⟩, hfile⟩

/-- Whatever is inside a directory has its name there. -/
theorem mem_names_of_file? {node : FileNode} (hnode : tree.at? location = some node)
    (h : (tree.file? (location ++ [name])).isSome = true) : name ∈ node.names := by
  obtain ⟨content, hcontent⟩ := Option.isSome_iff_exists.mp h
  have hoccupant := occupant?_of_file? hcontent
  rw [occupant?, at?, FileNode.get?_append, show tree.root.get? location = some node from hnode,
    Option.bind_some] at hoccupant
  cases node with
  | file content => cases hoccupant
  | directory entries =>
    rw [FileNode.get?] at hoccupant
    cases hlookup : entries.lookup name with
    | none =>
      rw [hlookup] at hoccupant
      cases hoccupant
    | some child =>
      obtain ⟨before, after, rfl, -⟩ := List.lookup_eq_some_iff.mp hlookup
      simp [FileNode.names]

theorem exists_entries (h : tree.isDirectory folder = true) :
    ∃ location node, tree.locate folder = .ok location ∧
      tree.occupant? location = some .directory ∧ tree.at? location = some node ∧
      tree.entries folder =
        .ok (node.names.map fun name => (name, tree.isFile (folder.join name))) := by
  obtain ⟨location, hlocate, hdirectory⟩ := isDirectory_iff.mp h
  obtain ⟨node, hnode, hoccupant⟩ := Option.map_eq_some_iff.mp hdirectory
  refine ⟨location, node, hlocate, hdirectory, hnode, ?_⟩
  cases node with
  | file content => cases hoccupant
  | directory entries => simp [FileTree.entries, find, hlocate, hnode, FileNode.names]

end Listings

end FileTree

end Concordance
