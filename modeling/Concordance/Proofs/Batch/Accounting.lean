import Concordance.Proofs.Batch.Alone
import Concordance.Proofs.Batch.Overwriting

/-!
# Every source of a batch is accounted for

A batch that finds its sources ends with one entry for each of them, a summary or an error, both in
the order of the sources.  A source whose output an earlier one has claimed is refused, whether or
not the earlier one was compiled.  Every other source ends as it would have ended alone: no file of
the batch changes what becomes of another.
-/

namespace Concordance

open FileTree

/-- What becomes of one source of a batch. -/
inductive Fate where
  | compiled (summary : Summary)
  | refused (error : CompileError)
  | collided (source output owner : Path)

namespace Fate

def summary? : Fate → Option Summary
  | .compiled summary => some summary
  | _ => none

def error? : Fate → Option String
  | .compiled _ => none
  | .refused error => some error.message
  | .collided source output owner => some (source.text ++ " would overwrite " ++ output.text ++
      ", already produced from " ++ owner.text)

/-- What becomes of a source that is compiled. -/
def ofResult : Except CompileError Summary → Fate
  | .ok summary => .compiled summary
  | .error error => .refused error

theorem summary?_ofResult (result : Except CompileError Summary) :
    (ofResult result).summary? = result.toOption := by
  cases result <;> rfl

/-- A fate gives a summary or an error, and not both. -/
theorem length_filterMap_add (fates : List Fate) :
    (fates.filterMap summary?).length + (fates.filterMap error?).length = fates.length := by
  induction fates with
  | nil => rfl
  | cons fate rest ih =>
    cases fate <;> simp only [List.filterMap_cons, summary?, error?, List.length_cons] <;> omega

end Fate

/-- The output of a source counts as equal to the given path. -/
def Claims (directory : Option Path) (source output : Path) : Prop :=
  ∃ path, outputPath source directory = .ok path ∧ path.same output = true

/-- What becomes of a source after earlier ones in a batch that began with the given tree: without a
name it is refused, a collision is refused with the name of an earlier source that has claimed the
output, and otherwise there is a summary just if the source has one when it is compiled alone. -/
structure Befalls (tree : FileTree) (directory : Option Path) (isDry : Bool) (earlier : List Path)
    (source : Path) (fate : Fate) : Prop where
  nameless : ∀ error, outputPath source directory = .error error → fate = .refused error
  collided_iff : ∀ output, outputPath source directory = .ok output →
    ((∃ owner, fate = .collided source output owner) ↔
      ∃ other ∈ earlier, Claims directory other output)
  owner : ∀ source' output owner, fate = .collided source' output owner →
    owner ∈ earlier ∧ Claims directory owner output
  alone : ∀ output, outputPath source directory = .ok output →
    (¬∃ other ∈ earlier, Claims directory other output) →
      fate.summary? =
        ((compileFile source directory isDry : StateM FileTree _).run tree).1.toOption

/-- The fates of sources, one for each, after earlier ones. -/
structure Fated (tree : FileTree) (directory : Option Path) (isDry : Bool)
    (earlier sources : List Path) (fates : List Fate) : Prop where
  length_eq : fates.length = sources.length
  befalls : ∀ (index : Nat) (source : Path), sources[index]? = some source →
    ∃ fate, fates[index]? = some fate ∧
      Befalls tree directory isDry (earlier ++ sources.take index) source fate

section Fates

variable {tree : FileTree} {directory : Option Path} {isDry : Bool} {earlier sources : List Path}
  {source output owner : Path} {fates : List Fate} {fate : Fate}

theorem Fated.nil : Fated tree directory isDry earlier [] [] :=
  ⟨rfl, fun _ _ h => by simp at h⟩

theorem Fated.cons (h : Befalls tree directory isDry earlier source fate)
    (hrest : Fated tree directory isDry (earlier ++ [source]) sources fates) :
    Fated tree directory isDry earlier (source :: sources) (fate :: fates) := by
  refine ⟨by rw [List.length_cons, List.length_cons, hrest.length_eq], ?_⟩
  intro index other hother
  cases index with
  | zero =>
    obtain rfl : source = other := by simpa using hother
    exact ⟨fate, rfl, by simpa using h⟩
  | succ index =>
    obtain ⟨found, hfound, hbefalls⟩ := hrest.befalls index other (by simpa using hother)
    exact ⟨found, by simpa using hfound, by simpa using hbefalls⟩

theorem Befalls.of_nameless {error : CompileError}
    (h : outputPath source directory = .error error) :
    Befalls tree directory isDry earlier source (.refused error) where
  nameless error' h' := by
    rw [h] at h'
    cases h'
    rfl
  collided_iff output h' := by
    rw [h] at h'
    cases h'
  owner _ _ _ h' := by cases h'
  alone output h' := by
    rw [h] at h'
    cases h'

theorem Befalls.of_collided (h : outputPath source directory = .ok output)
    (howner : owner ∈ earlier) (hclaims : Claims directory owner output) :
    Befalls tree directory isDry earlier source (.collided source output owner) where
  nameless error h' := by
    rw [h] at h'
    cases h'
  collided_iff output' h' := by
    rw [h] at h'
    cases h'
    exact ⟨fun _ => ⟨owner, howner, hclaims⟩, fun _ => ⟨owner, rfl⟩⟩
  owner _ _ _ h' := by
    cases h'
    exact ⟨howner, hclaims⟩
  alone output' h' hfree := by
    rw [h] at h'
    cases h'
    exact absurd ⟨owner, howner, hclaims⟩ hfree

theorem Befalls.of_alone (h : outputPath source directory = .ok output)
    (hfree : ¬∃ other ∈ earlier, Claims directory other output)
    {result : Except CompileError Summary} (halone : result.toOption =
      ((compileFile source directory isDry : StateM FileTree _).run tree).1.toOption) :
    Befalls tree directory isDry earlier source (.ofResult result) where
  nameless error h' := by
    rw [h] at h'
    cases h'
  collided_iff output' h' := by
    rw [h] at h'
    cases h'
    refine ⟨?_, fun hclaimed => absurd hclaimed hfree⟩
    rintro ⟨owner, howner⟩
    cases result <;> cases howner
  owner _ _ _ h' := by cases result <;> cases h'
  alone _ _ _ := by rw [Fate.summary?_ofResult, halone]

/-! ## Paths that are taken -/

/-- The paths that a batch holds as taken are the outputs of earlier sources, and every output of an
earlier source counts as equal to one of them. -/
structure Taken (directory : Option Path) (earlier : List Path) (taken : List (Path × Path)) :
    Prop where
  claimed : ∀ pair ∈ taken, pair.2 ∈ earlier ∧ outputPath pair.2 directory = .ok pair.1
  held : ∀ other ∈ earlier, ∀ path, outputPath other directory = .ok path →
    ∃ pair ∈ taken, pair.1.same path = true

namespace Taken

variable {taken : List (Path × Path)} (h : Taken directory earlier taken)

theorem nil : Taken directory [] [] :=
  ⟨by simp, by simp⟩

theorem same_iff {a b : Path} : a.same b = true ↔ a.components = b.components := by
  rw [Path.same, beq_iff_eq]

include h

theorem add (hsource : ∀ path, outputPath source directory = .ok path →
    ∃ pair ∈ taken, pair.1.same path = true) : Taken directory (earlier ++ [source]) taken where
  claimed pair hpair :=
    ⟨List.mem_append_left _ (h.claimed pair hpair).1, (h.claimed pair hpair).2⟩
  held other hother path hpath := by
    rcases List.mem_append.mp hother with hother | hother
    · exact h.held other hother path hpath
    · rw [List.mem_singleton.mp hother] at hpath
      exact hsource path hpath

theorem claim (houtput : outputPath source directory = .ok output) :
    Taken directory (earlier ++ [source]) ((output, source) :: taken) where
  claimed pair hpair := by
    rcases List.mem_cons.mp hpair with rfl | hpair
    · exact ⟨by simp, houtput⟩
    · exact ⟨List.mem_append_left _ (h.claimed pair hpair).1, (h.claimed pair hpair).2⟩
  held other hother path hpath := by
    rcases List.mem_append.mp hother with hother | hother
    · obtain ⟨pair, hpair, hsame⟩ := h.held other hother path hpath
      exact ⟨pair, List.mem_cons_of_mem _ hpair, hsame⟩
    · rw [List.mem_singleton.mp hother, houtput] at hpath
      cases hpath
      exact ⟨_, List.mem_cons_self, same_iff.mpr rfl⟩

/-- A path that is not taken is claimed by no earlier source. -/
theorem free (hfind : taken.find? (fun pair => pair.1.same output) = none) :
    ¬∃ other ∈ earlier, Claims directory other output := by
  rintro ⟨other, hother, path, hpath, hsame⟩
  obtain ⟨pair, hpair, hheld⟩ := h.held other hother path hpath
  apply List.find?_eq_none.mp hfind pair hpair
  exact same_iff.mpr ((same_iff.mp hheld).trans (same_iff.mp hsame))

end Taken

end Fates

/-! ## Batches -/

section Batches

variable {before : FileTree} {directory : Option Path} {isDry : Bool}

/-- A batch accounts for its sources if each one, from any tree that the batch may have reached,
ends as it would have ended at the beginning and leaves such a tree. -/
theorem compileSources_fated {reached : FileTree → Prop} {sources : List Path}
    (hstep : ∀ source ∈ sources, ∀ output, outputPath source directory = .ok output →
      ∀ tree, reached tree → ∃ result after,
        (compileFile source directory isDry : StateM FileTree _).run tree = (result, after) ∧
          reached after ∧ result.toOption =
            ((compileFile source directory isDry : StateM FileTree _).run before).1.toOption)
    {earlier : List Path} {taken : List (Path × Path)} (htaken : Taken directory earlier taken)
    {tree : FileTree} (htree : reached tree) :
    ∃ fates after,
      (compileSources directory isDry taken sources : StateM FileTree _).run tree =
        ((fates.filterMap Fate.summary?, fates.filterMap Fate.error?), after) ∧
      reached after ∧ Fated before directory isDry earlier sources fates := by
  induction sources generalizing earlier taken tree with
  | nil => exact ⟨[], tree, rfl, htree, .nil⟩
  | cons source sources ih =>
    obtain ⟨hsource, hrest⟩ := List.forall_mem_cons.mp hstep
    unfold compileSources
    cases houtput : outputPath source directory with
    | error error =>
      have hadd : Taken directory (earlier ++ [source]) taken := htaken.add fun path hpath => by
        rw [houtput] at hpath
        cases hpath
      obtain ⟨fates, after, hrun, hafter, hfated⟩ := ih hrest hadd htree
      exact ⟨.refused error :: fates, after, bind_apply_eq hrun, hafter,
        .cons (.of_nameless houtput) hfated⟩
    | ok output =>
      cases hfind : taken.find? (fun pair => pair.1.same output) with
      | some pair =>
        obtain ⟨path, owner⟩ := pair
        have hmem := List.mem_of_find?_eq_some hfind
        have hsame := List.find?_some hfind
        obtain ⟨howner, hpath⟩ := htaken.claimed _ hmem
        have hadd : Taken directory (earlier ++ [source]) taken := htaken.add fun path' hpath' => by
          rw [houtput] at hpath'
          cases hpath'
          exact ⟨_, hmem, hsame⟩
        obtain ⟨fates, after, hrun, hafter, hfated⟩ := ih hrest hadd htree
        refine ⟨.collided source output owner :: fates, after, ?_, hafter,
          .cons (.of_collided houtput howner ⟨path, hpath, hsame⟩) hfated⟩
        simp only [hfind]
        exact (bind_apply_eq rfl).trans (bind_apply_eq hrun)
      | none =>
        obtain ⟨result, middle, hcompiled, hmiddle, halone⟩ := hsource output houtput tree htree
        obtain ⟨fates, after, hrun, hafter, hfated⟩ := ih hrest (htaken.claim houtput) hmiddle
        refine ⟨.ofResult result :: fates, after, ?_, hafter,
          .cons (.of_alone houtput (htaken.free hfind) halone) hfated⟩
        simp only [hfind]
        refine (bind_apply_eq hcompiled).trans ?_
        cases result with
        | ok summary => exact bind_apply_eq hrun
        | error error => exact (bind_apply_eq rfl).trans (bind_apply_eq hrun)

theorem compileFile_idle (source : Path) (directory : Option Path) :
    Idle (compileFile source directory true) (compileFile source directory true) := by
  have hsource : Idle (compileSource source directory true)
      (compileSource source directory true) := by
    apply Idle.bind (loadResolved_idle source)
    intro resolved
    cases resolved with
    | error error => exact .pure _
    | ok resolved =>
      apply Idle.bind (reportAll_idle _)
      intro _
      cases resolved.crosswalk.stylesheet resolved.container with
      | error error => exact .pure _
      | ok text => exact .pure _
  apply Idle.bind hsource
  intro outcome
  exact .bind (.report _) fun _ => .pure _

/-- The trees that a batch may reach; one that writes nothing stays where it began. -/
def ReachedBy (before : FileTree) (directory : Option Path) (isDry : Bool)
    (tree : FileTree) : Prop :=
  if isDry then tree = before else Reached before directory tree

theorem ReachedBy.compileFile {source output : Path} {tree : FileTree}
    (h : ReachedBy before directory isDry tree)
    (houtput : outputPath source directory = .ok output) (plain : source.IsPlain) :
    ∃ result after,
      (Concordance.compileFile source directory isDry : StateM FileTree _).run tree =
        (result, after) ∧ ReachedBy before directory isDry after ∧
      result.toOption =
        ((Concordance.compileFile source directory isDry : StateM FileTree _).run
          before).1.toOption := by
  cases isDry with
  | false => exact Reached.compileFile h houtput plain
  | true =>
    obtain rfl : tree = before := h
    obtain ⟨result, hrun, -⟩ := compileFile_idle source directory tree []
    exact ⟨result, tree, hrun, rfl, congrArg (fun run => run.1.toOption) hrun.symm⟩

/-! ## Sources without steps back -/

/-- Entries of directories have plain names. -/
def FileTree.IsNamed (tree : FileTree) : Prop :=
  ∀ location entries, tree.at? location = some (.directory entries) →
    ∀ entry ∈ entries, Path.IsName entry.1

theorem Path.IsPlain.join {path : Path} (h : path.IsPlain) {name : String} (hname : IsName name) :
    (path.join name).IsPlain := by
  rw [IsPlain, parent_mem_components_iff] at h ⊢
  rw [parts_join path hname.slash, List.mem_append, not_or]
  refine ⟨fun hmem => h (mem_parts_of_mem_folder hmem), ?_⟩
  simpa using Ne.symm hname.parent

theorem exists_entry_of_mem_definitionFiles {folder source : Path} {entries : List (String × Bool)}
    (h : source ∈ definitionFiles folder entries) : ∃ entry ∈ entries,
      entry.2 = true ∧ source = folder.join entry.1 ∧ source.isListed = true := by
  obtain ⟨pair, hpair, rfl⟩ := List.mem_map.mp h
  rw [List.mem_mergeSort] at hpair
  obtain ⟨entry, hentry, hsome⟩ := List.mem_filterMap.mp hpair
  dsimp only at hsome
  split at hsome
  · next hlisted =>
    rw [Bool.and_eq_true] at hlisted
    cases hsome
    exact ⟨entry, hentry, hlisted.1, rfl, hlisted.2⟩
  · cases hsome

theorem isPlain_of_mem_definitionFiles {folder source : Path} {entries : List (String × Bool)}
    (hfolder : folder.IsPlain) (hentries : ∀ entry ∈ entries, Path.IsName entry.1)
    (h : source ∈ definitionFiles folder entries) : source.IsPlain := by
  obtain ⟨entry, hentry, -, rfl, -⟩ := exists_entry_of_mem_definitionFiles h
  exact hfolder.join (hentries entry hentry)

theorem discover_apply (folder : Path) (tree : FileTree) :
    (discover folder : StateM FileTree _) tree =
      (match tree.entries folder with
        | .error error => .error (.unreadable folder error)
        | .ok entries => .ok (definitionFiles folder entries), tree) := by
  have hentries : (Host.entries folder : StateM FileTree _) tree =
      (tree.entries folder, tree) := rfl
  refine (bind_apply_eq hentries).trans ?_
  cases tree.entries folder <;> rfl

theorem isNamed_entries {tree : FileTree} (hnamed : tree.IsNamed) {folder : Path}
    {entries : List (String × Bool)} (h : tree.entries folder = .ok entries) :
    ∀ entry ∈ entries, Path.IsName entry.1 := by
  unfold FileTree.entries find at h
  cases hlocate : tree.locate folder with
  | error error =>
    rw [hlocate] at h
    cases h
  | ok location =>
    cases hnode : tree.at? location with
    | none =>
      simp only [hlocate, hnode] at h
      cases h
    | some node =>
      simp only [hlocate, hnode] at h
      cases node with
      | file content => cases h
      | directory nodes =>
        cases h
        intro entry hentry
        obtain ⟨node, hmem, rfl⟩ := List.mem_map.mp hentry
        exact hnamed location nodes hnode node hmem

theorem isPlain_of_mem_expandInput {tree : FileTree} (hnamed : tree.IsNamed) {input : Path}
    (plain : input.IsPlain) {sources : List Path} {after : FileTree}
    (h : (expandInput input : StateM FileTree _) tree = (.ok sources, after)) :
    ∀ source ∈ sources, source.IsPlain := by
  have hlook : (Host.isDirectory input : StateM FileTree _) tree =
      (tree.isDirectory input, tree) := rfl
  unfold expandInput at h
  rw [bind_apply_eq hlook] at h
  cases hdirectory : tree.isDirectory input with
  | false =>
    rw [hdirectory] at h
    obtain ⟨hsources, -⟩ := Prod.mk.inj h
    cases hsources
    simpa using plain
  | true =>
    rw [hdirectory, if_pos rfl, bind_apply_eq (discover_apply input tree)] at h
    cases hentries : tree.entries input with
    | error error =>
      simp only [hentries] at h
      cases h
    | ok entries =>
      simp only [hentries] at h
      have hfiles : ∀ source ∈ definitionFiles input entries, source.IsPlain := fun source =>
        isPlain_of_mem_definitionFiles plain (isNamed_entries hnamed hentries)
      cases hlisted : definitionFiles input entries with
      | nil =>
        simp only [hlisted] at h
        cases h
        simp
      | cons first rest =>
        simp only [hlisted] at h
        cases h
        rwa [hlisted] at hfiles

theorem isPlain_of_mem_expandInputs {tree : FileTree} (hnamed : tree.IsNamed) {inputs : List Path}
    (plain : ∀ input ∈ inputs, input.IsPlain) {sources : List Path} {after : FileTree}
    (h : (expandInputs inputs : StateM FileTree _) tree = (.ok sources, after)) :
    ∀ source ∈ sources, source.IsPlain := by
  induction inputs generalizing sources after with
  | nil =>
    cases h
    simp
  | cons input rest ih =>
    obtain ⟨hinput, hrest⟩ := List.forall_mem_cons.mp plain
    obtain ⟨files, hfirst, -⟩ := expandInput_idle input tree []
    obtain ⟨others, hothers, -⟩ := expandInputs_idle rest tree []
    unfold expandInputs at h
    rw [bind_apply_eq hfirst] at h
    cases files with
    | error error => cases h
    | ok files =>
      dsimp only at h
      rw [bind_apply_eq hothers] at h
      cases others with
      | error error => cases h
      | ok others =>
        cases h
        intro source hsource
        rcases List.mem_append.mp hsource with hsource | hsource
        · exact isPlain_of_mem_expandInput hnamed hinput hfirst source hsource
        · exact ih hrest hothers source hsource

end Batches

/-- What a batch ends with: one entry for each source, a summary or an error, in the order of the
sources. -/
structure Accounts (tree : FileTree) (directory : Option Path) (isDry : Bool) (sources : List Path)
    (outcome : Outcome) : Prop where
  isDry_eq : outcome.isDry = isDry
  hasErrors_iff : outcome.hasErrors = true ↔ outcome.errors ≠ []
  length_add : outcome.files.length + outcome.errors.length = sources.length
  fated : ∃ fates, outcome.files = fates.filterMap Fate.summary? ∧
    outcome.errors = fates.filterMap Fate.error? ∧ Fated tree directory isDry [] sources fates

/-- A batch either cannot list its inputs, and then changes nothing, or accounts for every source
that they stand for. -/
theorem compileAll_accounts {tree : FileTree} (hnamed : tree.IsNamed) {inputs : List Path}
    (plain : ∀ input ∈ inputs, input.IsPlain) (directory : Option Path) (isDry : Bool) :
    (∃ error, (expandInputs inputs : StateM FileTree _).run tree = (.error error, tree) ∧
      (compileAll inputs directory isDry : StateM FileTree _).run tree = (.error error, tree)) ∨
    ∃ sources outcome after,
      (expandInputs inputs : StateM FileTree _).run tree = (.ok sources, tree) ∧
      (compileAll inputs directory isDry : StateM FileTree _).run tree = (.ok outcome, after) ∧
      Accounts tree directory isDry sources outcome := by
  obtain ⟨expansion, hexpanded, -⟩ := expandInputs_idle inputs tree []
  cases expansion with
  | error error => exact Or.inl ⟨error, hexpanded, (bind_apply_eq hexpanded).trans rfl⟩
  | ok sources =>
    have hplain := isPlain_of_mem_expandInputs hnamed plain hexpanded
    have hstart : ReachedBy tree directory isDry tree := by
      cases isDry with
      | false => exact Reached.refl tree directory
      | true => exact rfl
    obtain ⟨fates, after, hrun, -, hfated⟩ := compileSources_fated
      (fun source hsource output houtput tree' htree' =>
        htree'.compileFile houtput (hplain source hsource)) Taken.nil hstart
    refine Or.inr ⟨sources, ⟨fates.filterMap Fate.summary?, fates.filterMap Fate.error?, isDry⟩,
      after, hexpanded, ?_, ?_⟩
    · exact (bind_apply_eq hexpanded).trans ((bind_apply_eq hrun).trans rfl)
    · refine ⟨rfl, ?_, ?_, fates, rfl, rfl, hfated⟩
      · simp [Outcome.hasErrors]
      · rw [Fate.length_filterMap_add, hfated.length_eq]

theorem isNamed_threeDefinitions : threeDefinitions.IsNamed := by
  intro location entries h entry hentry
  cases location with
  | nil =>
    cases h
    simp only [List.mem_cons, List.not_mem_nil, or_false] at hentry
    rcases hentry with rfl | rfl | rfl <;> exact ⟨by decide, by decide, by decide⟩
  | cons name way =>
    -- whatever is found in the directory is a file
    have hfile : ∀ node, [("a.json", FileNode.file (definitionText "rdf:b").toUTF8),
        ("b.json", .file (definitionText "rdf:c").toUTF8),
        ("a.JSON", .file (definitionText "rdf:longer").toUTF8)].lookup name = some node →
          ∃ content, node = .file content := by
      intro node hnode
      simp only [FileNode.lookup_cons_eq_ite, List.lookup_nil] at hnode
      split at hnode
      · cases hnode
        exact ⟨_, rfl⟩
      · split at hnode
        · cases hnode
          exact ⟨_, rfl⟩
        · split at hnode
          · cases hnode
            exact ⟨_, rfl⟩
          · cases hnode
    simp only [FileTree.at?, threeDefinitions, FileNode.get?] at h
    split at h
    · next node hnode =>
      obtain ⟨content, rfl⟩ := hfile node hnode
      cases way <;> cases h
    · cases h

/-- A definition, one that is missing, and one whose output collides with that of the first. -/
theorem threeDefinitions_accounts :
    let inputs : List Path := [⟨"a.json"⟩, ⟨"missing.json"⟩, ⟨"a.JSON"⟩]
    threeDefinitions.IsNamed ∧ (∀ input ∈ inputs, input.IsPlain) ∧
      ∃ outcome after,
        (compileAll inputs (some ⟨"out"⟩) false : StateM FileTree _).run threeDefinitions =
          (.ok outcome, after) ∧
        Accounts threeDefinitions (some ⟨"out"⟩) false inputs outcome := by
  intro inputs
  have hplain : ∀ input ∈ inputs, input.IsPlain := by decide
  have hexpanded : ((expandInputs inputs : StateM FileTree _).run threeDefinitions).1.toOption =
      some inputs := by
    decide +kernel
  refine ⟨isNamed_threeDefinitions, hplain, ?_⟩
  rcases compileAll_accounts isNamed_threeDefinitions hplain (some ⟨"out"⟩) false with
    ⟨error, herror, -⟩ | ⟨sources, outcome, after, hsources, hrun, haccounts⟩
  · rw [herror] at hexpanded
    cases hexpanded
  · rw [hsources] at hexpanded
    cases hexpanded
    exact ⟨outcome, after, hrun, haccounts⟩

end Concordance
