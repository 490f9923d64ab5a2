import Concordance.Proofs.Batch.Accounting
import Concordance.Proofs.Disk.Listing
import Concordance.Proofs.Order.Lookup

/-!
# Finding definitions

The name of a definition file is something, a dot, and `toml` or `json` in letters of either case.
Listing a directory and loading a file go by the same names, although each has its own test for
them.

What is found in a directory does not depend on the order in which its entries are listed: it is
the one strictly ascending list of the names that are those of definitions and lead to a file
inside.  A file is left out if the path from the directory to it is longer than a path may be.
-/

namespace Concordance

open FileTree

/-! ## Names of definitions -/

/-- Whether the name of a file is that of a definition. -/
def IsDefinitionName (name : String) : Prop :=
  ∃ stem extension : String, stem ≠ "" ∧ '.' ∉ extension.toList ∧
    name = stem ++ "." ++ extension ∧
      (extension.toLower = "toml" ∨ extension.toLower = "json")

namespace Path

theorem splitExtension_append {stem extension : String} (hstem : stem ≠ "")
    (hdot : '.' ∉ extension.toList) :
    splitExtension (stem ++ "." ++ extension) = (stem, some extension) := by
  have hreverse : (stem ++ "." ++ extension).toList.reverse =
      extension.toList.reverse ++ '.' :: stem.toList.reverse := by
    simp
  have htaken : ∀ c ∈ extension.toList.reverse, decide (c ≠ '.') = true := by
    intro c hc
    rw [decide_eq_true_iff]
    rintro rfl
    exact hdot (List.mem_reverse.mp hc)
  unfold splitExtension
  simp only [hreverse, List.takeWhile_append_of_pos htaken, List.dropWhile_append_of_pos htaken]
  simp [hstem]

/-- A name is cut at its last dot, unless nothing is before it. -/
theorem splitExtension_snd_eq_some_iff {name extension : String} :
    (splitExtension name).2 = some extension ↔
      ∃ stem : String, stem ≠ "" ∧ '.' ∉ extension.toList ∧ name = stem ++ "." ++ extension := by
  constructor
  · intro h
    unfold splitExtension at h
    dsimp only at h
    split at h
    · cases h
    · next before hbefore =>
      obtain rfl := Option.some.inj h
      set reversed := name.toList.reverse with hreversed
      -- the rest of the name begins with the dot, behind which there is something
      obtain ⟨dot, rest, hrest⟩ : ∃ dot rest,
          reversed.dropWhile (fun c => decide (c ≠ '.')) = dot :: rest := by
        refine List.exists_cons_of_ne_nil fun hnil => ?_
        rw [hnil] at hbefore
        exact hbefore rfl
      have hdot : dot = '.' := by
        have hstop := List.head?_dropWhile_not (fun c => decide (c ≠ '.')) reversed
        rw [hrest] at hstop
        simpa using hstop
      refine ⟨String.ofList rest.reverse, ?_, ?_, ?_⟩
      · intro hempty
        have hnil : rest.reverse = [] := by simpa using congrArg String.toList hempty
        rw [hrest] at hbefore
        exact hbefore hnil
      · intro hmem
        have htaken : '.' ∈ reversed.takeWhile (fun c => decide (c ≠ '.')) := by simpa using hmem
        simpa using List.all_eq_true.mp List.all_takeWhile '.' htaken
      · apply String.toList_injective
        have hwhole := List.takeWhile_append_dropWhile (p := fun c => decide (c ≠ '.'))
          (l := reversed)
        rw [hrest, hdot] at hwhole
        calc name.toList = reversed.reverse := by simp [hreversed]
          _ = (reversed.takeWhile (fun c => decide (c ≠ '.')) ++ '.' :: rest).reverse := by
            rw [hwhole]
          _ = _ := by simp
  · rintro ⟨stem, hstem, hdot, rfl⟩
    rw [splitExtension_append hstem hdot]

end Path

theorem Notation.ofExtension?_isSome_iff {extension : String} :
    (ofExtension? extension).isSome = true ↔
      extension.toLower = "toml" ∨ extension.toLower = "json" := by
  unfold ofExtension?
  split
  · next htoml => simp [htoml]
  · next htoml =>
    split
    · next hjson => simp [hjson]
    · next hjson => simp [htoml, hjson]

theorem isDefinitionName_iff {name : String} : IsDefinitionName name ↔
    ((Path.splitExtension name).2.bind Notation.ofExtension?).isSome = true := by
  constructor
  · rintro ⟨stem, extension, hstem, hdot, hname, hletters⟩
    rw [Path.splitExtension_snd_eq_some_iff.mpr ⟨stem, hstem, hdot, hname⟩, Option.bind_some,
      Notation.ofExtension?_isSome_iff]
    exact hletters
  · intro h
    cases hextension : (Path.splitExtension name).2 with
    | none =>
      rw [hextension] at h
      cases h
    | some extension =>
      rw [hextension, Option.bind_some, Notation.ofExtension?_isSome_iff] at h
      obtain ⟨stem, hstem, hdot, hname⟩ := Path.splitExtension_snd_eq_some_iff.mp hextension
      exact ⟨stem, extension, hstem, hdot, hname, h⟩

instance (name : String) : Decidable (IsDefinitionName name) :=
  decidable_of_iff _ isDefinitionName_iff.symm

namespace Path

variable {path : Path}

/-- A path has a notation where its file name is that of a definition. -/
theorem notation?_isSome_iff : path.notation?.isSome = true ↔
    ∃ name, path.fileName? = some name ∧ IsDefinitionName name := by
  rw [notation?, extension?]
  cases path.fileName? with
  | none => simp
  | some name => simp [isDefinitionName_iff]

/-- What is listed as a definition file is loaded as one. -/
theorem isListed_eq (path : Path) : path.isListed = path.notation?.isSome := by
  unfold isListed notation?
  cases path.extension? with
  | none => decide +kernel
  | some extension =>
    rw [Bool.eq_iff_iff, Option.bind_some, Notation.ofExtension?_isSome_iff]
    simp [definitionExtensions]

theorem fileName?_join (path : Path) {name : String} (h : IsName name) :
    (path.join name).fileName? = some name := by
  rw [fileName?, components_join path h, List.getLast?_concat]

theorem isListed_join_iff (path : Path) {name : String} (h : IsName name) :
    (path.join name).isListed = true ↔ IsDefinitionName name := by
  rw [isListed_eq, notation?_isSome_iff, fileName?_join path h]
  simp

end Path

/-! ## Directories -/

section Directories

variable {tree : FileTree} {folder : Path} {names : List String}

/-- The definition files among entries, by their names. -/
theorem definitionFiles_eq (folder : Path) (entries : List (String × Bool)) :
    definitionFiles folder entries =
      (((entries.filter fun entry => entry.2 && (folder.join entry.1).isListed).map
        Prod.fst).mergeSort fun a b => (compare a b).isLE).map folder.join := by
  have hpaths : entries.filterMap (fun entry =>
        if entry.2 && (folder.join entry.1).isListed then some (entry.1, folder.join entry.1)
        else none) =
      ((entries.filter fun entry => entry.2 && (folder.join entry.1).isListed).map
        Prod.fst).map fun name => (name, folder.join name) := by
    rw [List.map_map, ← List.filterMap_eq_map, List.filterMap_filter]
    rfl
  unfold definitionFiles
  dsimp only
  rw [hpaths, ← List.map_mergeSort (r := fun a b => (compare a b).isLE) fun _ _ _ _ => rfl,
    List.map_map]
  rfl

/-- The names under which definitions are found in a directory, in ascending order: those of
definitions that lead to a file inside by a path that is not too long. -/
structure FileTree.Finds (tree : FileTree) (folder : Path) (names : List String) : Prop where
  ascending : names.Pairwise fun a b => compare a b = .lt
  mem_iff : ∀ name, name ∈ names ↔ IsDefinitionName name ∧
    (tree.file? (folder.location tree.here ++ [name])).isSome = true ∧
      (folder.join name).text.utf8ByteSize ≤ pathLimit

/-- A strictly ascending list is determined by its members. -/
theorem eq_of_ascending {names names' : List String}
    (h : names.Pairwise fun a b => compare a b = .lt)
    (h' : names'.Pairwise fun a b => compare a b = .lt)
    (hmem : ∀ name, name ∈ names ↔ name ∈ names') : names = names' := by
  have hnodup {names : List String} (h : names.Pairwise fun a b => compare a b = .lt) :
      names.Nodup := by
    refine h.imp fun {a b} hlt heq => ?_
    have hself : compare b b = .eq := Std.ReflCmp.compare_self
    rw [heq, hself] at hlt
    cases hlt
  refine ((List.perm_ext_iff_of_nodup (hnodup h) (hnodup h')).mpr hmem).eq_of_pairwise ?_ h h'
  intro a b _ _ hab hba
  rw [Std.OrientedCmp.gt_iff_lt.mpr hab] at hba
  cases hba

theorem FileTree.Finds.eq {names' : List String} (h : tree.Finds folder names)
    (h' : tree.Finds folder names') : names = names' :=
  eq_of_ascending h.ascending h'.ascending fun name => (h.mem_iff name).trans (h'.mem_iff name).symm

/-- Names that are different from one another are in strictly ascending order once they are
sorted. -/
theorem ascending_mergeSort (h : names.Nodup) :
    (names.mergeSort fun a b => (compare a b).isLE).Pairwise fun a b => compare a b = .lt := by
  have hsorted : (names.mergeSort fun a b => (compare a b).isLE).Pairwise
      fun a b => (compare a b).isLE = true := by
    refine List.pairwise_mergeSort (fun _ _ _ => Std.TransCmp.isLE_trans) (fun a b => ?_) names
    have hswap : compare b a = (compare a b).swap := Std.OrientedCmp.eq_swap
    rw [hswap]
    cases compare a b <;> rfl
  have hnodup : (names.mergeSort fun a b => (compare a b).isLE).Nodup :=
    (List.mergeSort_perm names _).nodup_iff.mpr h
  refine (hsorted.and hnodup).imp ?_
  rintro a b ⟨hle, hne⟩
  rcases Ordering.isLE_iff_eq_lt_or_eq_eq.mp hle with hlt | heq
  · exact hlt
  · exact absurd (Std.LawfulEqCmp.eq_of_compare heq) hne

/-- What is found in a directory of a proper tree, however the directory is listed. -/
theorem exists_finds (proper : tree.IsProper) (h : tree.isDirectory folder = true) :
    ∃ names, tree.Finds folder names ∧
      (discover folder : StateM FileTree _).run tree = (.ok (names.map folder.join), tree) ∧
      ∀ entries listing, tree.entries folder = .ok entries → listing.Perm entries →
        definitionFiles folder listing = names.map folder.join := by
  obtain ⟨location, node, hlocate, hdirectory, hnode, hentries⟩ := exists_entries h
  set entries := node.names.map fun name => (name, tree.isFile (folder.join name)) with hlisted
  let chosen := (entries.filter fun entry => entry.2 && (folder.join entry.1).isListed).map Prod.fst
  have hchosen : chosen.Nodup := by
    refine List.Nodup.sublist (List.filter_sublist.map Prod.fst) ?_
    simpa [hlisted, Function.comp_def] using (proper location node hnode).distinct
  have hmem (name : String) : name ∈ chosen ↔ IsDefinitionName name ∧
      (tree.file? (folder.location tree.here ++ [name])).isSome = true ∧
        (folder.join name).text.utf8ByteSize ≤ pathLimit := by
    rw [← eq_location_of_locate hlocate]
    have hinside (hname : name ∈ node.names) :
        (tree.isFile (folder.join name) = true ∧ (folder.join name).isListed = true) ↔
          IsDefinitionName name ∧ (tree.file? (location ++ [name])).isSome = true ∧
            (folder.join name).text.utf8ByteSize ≤ pathLimit := by
      have hplain := (proper location node hnode).plain name hname
      rw [isFile_join_iff hlocate hdirectory hplain ((proper location node hnode).short name hname),
        Path.isListed_join_iff folder hplain]
      tauto
    simp only [chosen, hlisted, List.mem_map, List.mem_filter, Bool.and_eq_true]
    constructor
    · rintro ⟨_, ⟨⟨name, hname, rfl⟩, hboth⟩, rfl⟩
      exact (hinside hname).mp hboth
    · intro hboth
      have hname := mem_names_of_file? hnode hboth.2.1
      exact ⟨_, ⟨⟨name, hname, rfl⟩, (hinside hname).mpr hboth⟩, rfl⟩
  have hfinds : tree.Finds folder (chosen.mergeSort fun a b => (compare a b).isLE) :=
    ⟨ascending_mergeSort hchosen, fun name => List.mem_mergeSort.trans (hmem name)⟩
  refine ⟨_, hfinds, ?_, ?_⟩
  · refine (discover_apply folder tree).trans ?_
    simp only [hentries, definitionFiles_eq]
    rfl
  · rintro listed listing hlisting hperm
    obtain rfl : entries = listed := Except.ok.inj (hentries.symm.trans hlisting)
    rw [definitionFiles_eq]
    -- in whatever order they come, the same names are sorted
    have hsame := (hperm.filter fun entry => entry.2 && (folder.join entry.1).isListed).map Prod.fst
    congr 1
    refine eq_of_ascending (ascending_mergeSort (hsame.nodup_iff.mpr hchosen)) hfinds.ascending ?_
    intro name
    rw [List.mem_mergeSort, List.mem_mergeSort]
    exact hsame.mem_iff

end Directories

/-! ## Inputs -/

section Inputs

variable {tree : FileTree}

/-- The sources that an input stands for: what is found in it if it is a directory, and else
itself. -/
def FileTree.StandsFor (tree : FileTree) (input : Path) (sources : List Path) : Prop :=
  if tree.isDirectory input then
    (discover input : StateM FileTree _).run tree = (.ok sources, tree)
  else sources = [input]

theorem expandInput_eq {input : Path} {sources : List Path} (h : tree.StandsFor input sources) :
    (expandInput input : StateM FileTree _).run tree = (.ok sources, tree) := by
  have hlook : (Host.isDirectory input : StateM FileTree _) tree =
      (tree.isDirectory input, tree) := rfl
  unfold expandInput
  refine (bind_apply_eq hlook).trans ?_
  unfold StandsFor at h
  split at h
  · next hdirectory =>
    rw [if_pos hdirectory]
    refine (bind_apply_eq h).trans ?_
    cases sources <;> rfl
  · next hdirectory =>
    rw [if_neg hdirectory, h]
    rfl

theorem expandInputs_eq {inputs : List Path} {parts : List (List Path)}
    (h : List.Forall₂ tree.StandsFor inputs parts) :
    (expandInputs inputs : StateM FileTree _).run tree = (.ok parts.flatten, tree) := by
  induction h with
  | nil => rfl
  | cons hfirst _ ih =>
    unfold expandInputs
    refine (bind_apply_eq (expandInput_eq hfirst)).trans ?_
    exact bind_apply_eq ih

theorem exists_standsFor (proper : tree.IsProper) (inputs : List Path) :
    ∃ parts, List.Forall₂ tree.StandsFor inputs parts := by
  induction inputs with
  | nil => exact ⟨[], .nil⟩
  | cons input rest ih =>
    obtain ⟨parts, hparts⟩ := ih
    by_cases hdirectory : tree.isDirectory input = true
    · obtain ⟨names, -, hdiscover, -⟩ := exists_finds proper hdirectory
      exact ⟨_ :: parts, .cons ((if_pos hdirectory).mpr hdiscover) hparts⟩
    · exact ⟨[input] :: parts, .cons ((if_neg hdirectory).mpr rfl) hparts⟩

end Inputs

/-! ## Loading -/

section Loading

variable {tree : FileTree} {path : Path} {content : ByteArray} {text : String}

theorem loadDefinition_eq (h : tree.read path = .ok content) :
    (loadDefinition path : StateM FileTree _).run tree =
      (Definition.ofFile path content, tree) := by
  have hread : (Host.read path : StateM FileTree _) tree = (.ok content, tree) := by
    rw [← h]
    rfl
  exact bind_apply_eq hread

theorem ofFile_eq_unsupported_iff (h : String.fromUTF8? content = some text) :
    Definition.ofFile path content = .error (.unsupported path) ↔
      ¬∃ name, path.fileName? = some name ∧ IsDefinitionName name := by
  rw [← Path.notation?_isSome_iff, Definition.ofFile, h]
  cases path.notation? with
  | none => simp
  | some format =>
    simp only [Option.isSome_some, not_true_eq_false, iff_false]
    intro herror
    obtain ⟨cause, -, hcause⟩ := mapError_eq_error_iff.mp herror
    cases hcause

end Loading

/-- Finding and loading go by the same names.  In a directory are found, each once and in the
strictly ascending order of their names, however the directory is listed, just the definition files
inside whose path is not too long.  A text that can be read is refused for its name just if the name
is not that of a definition.  Inputs stand for their sources one input after another. -/
theorem found_and_loaded_alike {tree : FileTree} (proper : tree.IsProper) :
    (∀ folder, tree.isDirectory folder = true → ∃ names, tree.Finds folder names ∧
      (discover folder : StateM FileTree _).run tree = (.ok (names.map folder.join), tree) ∧
      ∀ entries listing, tree.entries folder = .ok entries → listing.Perm entries →
        definitionFiles folder listing = names.map folder.join) ∧
    (∀ path content text, tree.read path = .ok content → String.fromUTF8? content = some text →
      ((loadDefinition path : StateM FileTree _).run tree = (.error (.unsupported path), tree) ↔
        ¬∃ name, path.fileName? = some name ∧ IsDefinitionName name)) ∧
    ∀ inputs, ∃ parts, List.Forall₂ tree.StandsFor inputs parts ∧
      (expandInputs inputs : StateM FileTree _).run tree = (.ok parts.flatten, tree) := by
  refine ⟨fun folder => exists_finds proper, ?_, ?_⟩
  · intro path content text hread htext
    rw [loadDefinition_eq hread, ← ofFile_eq_unsupported_iff htext, Prod.mk.injEq, eq_self,
      and_true]
  · intro inputs
    obtain ⟨parts, hparts⟩ := exists_standsFor proper inputs
    exact ⟨parts, hparts, expandInputs_eq hparts⟩

/-- A directory with two definitions, a stylesheet, a file whose name is all extension, and a
directory that is named like a definition. -/
def mixedDirectory : FileTree where
  root := .directory [("m", .directory
    [("b.toml", .file .empty), (".toml", .file .empty), ("a.b.JSON", .file .empty),
      ("b.xsl", .file .empty), ("d.toml", .directory [])])]
  here := []

theorem isProper_mixedDirectory : mixedDirectory.IsProper := by
  refine FileNode.forall_get?_directory (by decide +kernel) ?_
  simp only [List.forall_mem_cons, List.not_mem_nil, false_imp_iff, implies_true, and_true]
  refine FileNode.forall_get?_directory (by decide +kernel) ?_
  simp only [List.forall_mem_cons, List.not_mem_nil, false_imp_iff, implies_true, and_true]
  have hfile := FileNode.forall_get?_file
    (@FileNode.isProper_of_names_eq_nil (.file .empty) rfl)
  exact ⟨hfile, hfile, hfile, hfile, FileNode.forall_get?_directory (by decide) (by simp)⟩

theorem finds_mixedDirectory : mixedDirectory.Finds ⟨"m"⟩ ["a.b.JSON", "b.toml"] := by
  refine ⟨by decide +kernel, fun name => ⟨?_, ?_⟩⟩
  · simp only [List.mem_cons, List.not_mem_nil, or_false]
    rintro (rfl | rfl) <;> decide +kernel
  · rintro ⟨hname, hfile, -⟩
    have hfolder : mixedDirectory.at? ["m"] = some _ := rfl
    have hmem := mem_names_of_file? hfolder hfile
    simp only [FileNode.names, List.map_cons, List.map_nil, List.mem_cons, List.not_mem_nil,
      or_false] at hmem
    rcases hmem with rfl | rfl | rfl | rfl | rfl
    · simp
    · exact absurd hname (by decide +kernel)
    · simp
    · exact absurd hname (by decide +kernel)
    · exact absurd hfile (by decide +kernel)

/-- The definitions are found, and the file that is all extension is refused for its name. -/
theorem mixedDirectory_found : mixedDirectory.IsProper ∧
    mixedDirectory.isDirectory ⟨"m"⟩ = true ∧
    (discover ⟨"m"⟩ : StateM FileTree _).run mixedDirectory =
      (.ok [⟨"m/a.b.JSON"⟩, ⟨"m/b.toml"⟩], mixedDirectory) ∧
    mixedDirectory.read ⟨"m/.toml"⟩ = .ok .empty ∧ String.fromUTF8? .empty = some "" ∧
    (loadDefinition ⟨"m/.toml"⟩ : StateM FileTree _).run mixedDirectory =
      (.error (.unsupported ⟨"m/.toml"⟩), mixedDirectory) ∧
    ∃ parts, List.Forall₂ mixedDirectory.StandsFor [⟨"m/b.xsl"⟩, ⟨"m"⟩] parts ∧
      (expandInputs [⟨"m/b.xsl"⟩, ⟨"m"⟩] : StateM FileTree _).run mixedDirectory =
        (.ok parts.flatten, mixedDirectory) := by
  obtain ⟨hfound, hloaded, hexpanded⟩ := found_and_loaded_alike isProper_mixedDirectory
  have hdirectory : mixedDirectory.isDirectory ⟨"m"⟩ = true := by decide +kernel
  have hread : mixedDirectory.read ⟨"m/.toml"⟩ = .ok .empty := by
    apply toOption_eq_some_iff.mp
    decide +kernel
  have htext : String.fromUTF8? .empty = some "" := by decide +kernel
  have hpaths : ["a.b.JSON", "b.toml"].map (Path.join ⟨"m"⟩) =
      [⟨"m/a.b.JSON"⟩, ⟨"m/b.toml"⟩] := by
    decide +kernel
  obtain ⟨names, hnames, hdiscover, -⟩ := hfound ⟨"m"⟩ hdirectory
  rw [hnames.eq finds_mixedDirectory, hpaths] at hdiscover
  refine ⟨isProper_mixedDirectory, hdirectory, hdiscover, hread, htext,
    (hloaded _ _ _ hread htext).mpr ?_, hexpanded _⟩
  rw [← Path.notation?_isSome_iff]
  decide +kernel

/-! ## A path that becomes too long -/

/-- A directory with one definition. -/
def oneDefinition : FileTree where
  root := .directory [("m", .directory [("a.toml", .file .empty)])]
  here := []

/-- The path of the directory with so many slashes at its end. -/
def slashedFolder (count : Nat) : Path :=
  ⟨"/".intercalate ("m" :: List.replicate count "")⟩

theorem isProper_oneDefinition : oneDefinition.IsProper := by
  refine FileNode.forall_get?_directory (by decide +kernel) ?_
  simp only [List.forall_mem_cons, List.not_mem_nil, false_imp_iff, implies_true, and_true]
  refine FileNode.forall_get?_directory (by decide +kernel) ?_
  simp only [List.forall_mem_cons, List.not_mem_nil, false_imp_iff, implies_true, and_true]
  exact FileNode.forall_get?_file (FileNode.isProper_of_names_eq_nil rfl)

theorem slashedFolder_succ (count : Nat) :
    (slashedFolder (count + 1)).text = (slashedFolder count).text ++ "/" := by
  rw [slashedFolder, List.replicate_succ', ← List.cons_append,
    String.intercalate_append_of_ne_nil (by simp) (by simp), String.intercalate_singleton,
    String.append_empty, slashedFolder]

theorem utf8ByteSize_slashedFolder (count : Nat) :
    (slashedFolder count).text.utf8ByteSize = count + 1 := by
  induction count with
  | zero => rfl
  | succ count ih =>
    rw [slashedFolder_succ, String.utf8ByteSize_append, ih]
    rfl

theorem parts_slashedFolder (count : Nat) :
    (slashedFolder count).parts = "m" :: List.replicate count "" := by
  refine Path.split_intercalate ?_ (by simp)
  simp +contextual [List.mem_replicate]

theorem foldlM_follow_replicate {tree : FileTree} {location : Location}
    (h : tree.occupant? location = some .directory) (count : Nat) :
    (List.replicate count "").foldlM tree.follow location = .ok location := by
  induction count with
  | zero => rfl
  | succ count ih =>
    rw [List.replicate_succ, List.foldlM_cons]
    refine bind_eq_ok_iff.mpr ⟨location, follow_eq_ok_iff.mpr ⟨h, by decide, ?_⟩, ih⟩
    exact (if_pos (Or.inl rfl)).symm

theorem locate_slashedFolder {count : Nat} (h : count < pathLimit) :
    oneDefinition.locate (slashedFolder count) = .ok ["m"] := by
  have habsolute : (slashedFolder count).isAbsolute = false := by
    rw [Bool.eq_false_iff, Ne, Path.isAbsolute_iff, parts_slashedFolder]
    simp
  have hsize := utf8ByteSize_slashedFolder count
  refine locate_eq_ok_iff.mpr ⟨?_, ?_, ?_⟩
  · intro hempty
    rw [hempty] at hsize
    cases hsize
  · omega
  · rw [habsolute, parts_slashedFolder, List.foldlM_cons]
    exact bind_eq_ok_iff.mpr ⟨["m"], by decide +kernel, foldlM_follow_replicate rfl count⟩

theorem join_slashedFolder (count : Nat) {name : String} (h : '/' ∉ name.toList) :
    ((slashedFolder (count + 1)).join name).text.utf8ByteSize =
      count + 2 + name.utf8ByteSize := by
  have hend : (slashedFolder (count + 1)).text.toList.getLast? = some '/' := by
    rw [slashedFolder_succ]
    simp
  rw [Path.join, if_neg (Path.not_slash_head h), if_pos (Or.inr hend), String.utf8ByteSize_append,
    utf8ByteSize_slashedFolder]

/-- The definition is not found if the path to it is longer than a path may be. -/
theorem slashedFolder_finds_nothing : oneDefinition.IsProper ∧
    oneDefinition.isDirectory (slashedFolder 4089) = true ∧ IsDefinitionName "a.toml" ∧
    (oneDefinition.file? ((slashedFolder 4089).location oneDefinition.here ++
      ["a.toml"])).isSome = true ∧
    (discover (slashedFolder 4089) : StateM FileTree _).run oneDefinition =
      (.ok [], oneDefinition) := by
  have hlocate : oneDefinition.locate (slashedFolder 4089) = .ok ["m"] :=
    locate_slashedFolder (by decide)
  have hdirectory : oneDefinition.isDirectory (slashedFolder 4089) = true :=
    isDirectory_iff.mpr ⟨["m"], hlocate, rfl⟩
  obtain ⟨names, hnames, hdiscover, -⟩ := exists_finds isProper_oneDefinition hdirectory
  -- the only file there is the definition, and the path to it is too long
  have hnone : names = [] := by
    refine List.eq_nil_iff_forall_not_mem.mpr fun name hname => ?_
    obtain ⟨-, hfile, hlong⟩ := (hnames.mem_iff name).mp hname
    rw [← eq_location_of_locate hlocate] at hfile
    have hfolder : oneDefinition.at? ["m"] = some _ := rfl
    have hmem := mem_names_of_file? hfolder hfile
    obtain rfl : name = "a.toml" := by simpa [FileNode.names] using hmem
    rw [join_slashedFolder 4088 (by decide)] at hlong
    exact absurd hlong (by decide)
  rw [hnone] at hdiscover
  refine ⟨isProper_oneDefinition, hdirectory, by decide +kernel, ?_, hdiscover⟩
  rw [← eq_location_of_locate hlocate]
  rfl

end Concordance
