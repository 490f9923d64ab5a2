import Concordance.Batch.Compile
import Concordance.Proofs.Disk.Ledger

/-!
# What a batch writes

A batch on a ledger: what it looks at changes nothing, a source that is compiled is written to one
file, of which its summary tells, and a source that is not leaves no entry.  A batch refuses a
source whose output has the same components as one before, so the outputs that it writes differ in
theirs.
-/

namespace Concordance

section Reading

theorem reportAll_idle (reports : List Report) : Idle (reportAll reports) (reportAll reports) := by
  induction reports with
  | nil => exact .pure ()
  | cons report rest ih => exact .bind (.report report) fun _ => ih

theorem discover_idle (directory : Path) : Idle (discover directory) (discover directory) := by
  apply Idle.bind (.entries directory)
  intro entries
  cases entries with
  | error error => exact .pure _
  | ok entries => exact .pure _

theorem loadDefinition_idle (path : Path) : Idle (loadDefinition path) (loadDefinition path) := by
  apply Idle.bind (.read path)
  intro content
  cases content with
  | error error => exact .pure _
  | ok content => exact .pure _

theorem loadResolved_idle (path : Path) : Idle (loadResolved path) (loadResolved path) := by
  apply Idle.bind (loadDefinition_idle path)
  intro definition
  cases definition with
  | error error => exact .pure _
  | ok definition => exact .pure _

theorem expandInput_idle (input : Path) : Idle (expandInput input) (expandInput input) := by
  apply Idle.bind (.isDirectory input)
  intro isDirectory
  cases isDirectory with
  | false => exact .pure _
  | true =>
    apply Idle.bind (discover_idle input)
    intro files
    match files with
    | .error error => exact .pure _
    | .ok [] => exact .bind (.report _) fun _ => .pure _
    | .ok (file :: files) => exact .pure _

theorem expandInputs_idle (inputs : List Path) :
    Idle (expandInputs inputs) (expandInputs inputs) := by
  induction inputs with
  | nil => exact .pure _
  | cons input rest ih =>
    apply Idle.bind (expandInput_idle input)
    intro files
    cases files with
    | error error => exact .pure _
    | ok files =>
      apply Idle.bind ih
      intro others
      cases others with
      | error error => exact .pure _
      | ok others => exact .pure _

end Reading

/-- What a summary tells of a file that was written: the output leads there, and the size and the
hash are those of its bytes. -/
structure Summary.Tells (summary : Summary) (tree : FileTree)
    (file : Location × ByteArray) : Prop where
  output : ∃ path, summary.output = some path ∧ tree.locate path = .ok file.1
  bytes : file.2.size = summary.bytes
  sha256 : Sha256.hexDigest file.2 = summary.sha256

theorem Summary.Tells.later {summary : Summary} {tree after : FileTree}
    {file : Location × ByteArray} {written : List (Location × ByteArray)}
    (h : summary.Tells tree file) (hrewritten : tree.Rewritten written after) :
    summary.Tells after file := by
  obtain ⟨path, hpath, hlocate⟩ := h.output
  exact ⟨⟨path, hpath, hrewritten.locate hlocate⟩, h.bytes, h.sha256⟩

section Writing

theorem writeOutput_tracks (source : Path) (directory : Option Path) (content : ByteArray) :
    Tracks (writeOutput source directory content) (writeOutput source directory content)
      fun result entries after =>
        match result with
        | .ok path => outputPath source directory = .ok path ∧
          ∃ location, after.locate path = .ok location ∧ entries = [(location, content)]
        | .error _ => entries = [] := by
  unfold writeOutput
  cases houtput : outputPath source directory with
  | error error => exact .pure fun _ => rfl
  | ok path =>
    apply Tracks.after_silent (makeDirectories_tracks (path.parent?.getD ⟨""⟩))
    intro made
    cases made with
    | error error => exact .pure fun _ => rfl
    | ok made =>
      apply Tracks.returning (.write path content)
      intro result
      cases result with
      | error error => exact ⟨_, .pure _, fun _ _ hnone => hnone⟩
      | ok written => exact ⟨_, .report_pure _ _, fun _ _ hwritten => ⟨rfl, hwritten⟩⟩

/-- What compiling a source comes to: one file of which the summary tells, or none. -/
def Summary.Written (source : Path) (directory : Option Path) :
    Except CompileError Summary → List (Location × ByteArray) → FileTree → Prop
  | .ok summary, entries, after => ∃ path file, outputPath source directory = .ok path ∧
      summary.source = source ∧ summary.output = some path ∧ summary.Tells after file ∧
      entries = [file]
  | .error _, entries, _ => entries = []

theorem compileSource_tracks (source : Path) (directory : Option Path) :
    Tracks (compileSource source directory false) (compileSource source directory false)
      (Summary.Written source directory) := by
  apply Tracks.after_idle (loadResolved_idle source)
  intro resolved
  cases resolved with
  | error error => exact .pure fun _ => rfl
  | ok resolved =>
    apply Tracks.after_idle (reportAll_idle _)
    intro _
    cases resolved.crosswalk.stylesheet resolved.container with
    | error error => exact .pure fun _ => rfl
    | ok text =>
      apply Tracks.returning (writeOutput_tracks source directory text.toUTF8)
      intro result
      cases result with
      | error error => exact ⟨_, .pure _, fun _ _ hnone => hnone⟩
      | ok path =>
        refine ⟨_, .pure _, ?_⟩
        rintro entries after ⟨houtput, location, hlocate, rfl⟩
        exact ⟨path, (location, text.toUTF8), houtput, rfl, rfl,
          ⟨⟨path, rfl, hlocate⟩, rfl, rfl⟩, rfl⟩

theorem compileFile_tracks (source : Path) (directory : Option Path) :
    Tracks (compileFile source directory false) (compileFile source directory false)
      (Summary.Written source directory) := by
  apply Tracks.returning (compileSource_tracks source directory)
  intro result
  exact ⟨result, .report_pure _ result, fun _ _ hwritten => hwritten⟩

/-- What sources have come to after some paths were taken: one file for every summary, in the order
of the summaries, under outputs whose components differ among them and from those of the paths
taken. -/
structure Wrote (directory : Option Path) (sources taken : List Path) (files : List Summary)
    (entries : List (Location × ByteArray)) (after : FileTree) : Prop where
  tells : List.Forall₂ (fun summary file => summary.Tells after file) files entries.reverse
  chosen : ∀ summary ∈ files, ∀ path, summary.output = some path →
    summary.source ∈ sources ∧ outputPath summary.source directory = .ok path
  untaken : ∀ summary ∈ files, ∀ path, summary.output = some path →
    ∀ earlier ∈ taken, earlier.same path = false
  apart : files.Pairwise fun a b => ∀ path path', a.output = some path →
    b.output = some path' → path.same path' = false

namespace Wrote

variable {directory : Option Path} {source output : Path} {sources taken : List Path}
  {files : List Summary} {older newer : List (Location × ByteArray)} {tree after : FileTree}

theorem none_yet : Wrote directory [] taken [] [] after where
  tells := .nil
  chosen := by simp
  untaken := by simp
  apart := .nil

/-- A source without a summary changes nothing. -/
theorem skip (h : Wrote directory sources taken files newer after) :
    Wrote directory (source :: sources) taken files newer after where
  tells := h.tells
  chosen summary hsummary path hpath :=
    ⟨List.mem_cons_of_mem source (h.chosen summary hsummary path hpath).1,
      (h.chosen summary hsummary path hpath).2⟩
  untaken := h.untaken
  apart := h.apart

theorem of_more_taken (h : Wrote directory sources (output :: taken) files newer after) :
    Wrote directory sources taken files newer after where
  tells := h.tells
  chosen := h.chosen
  untaken summary hsummary path hpath earlier hearlier :=
    h.untaken summary hsummary path hpath earlier (List.mem_cons_of_mem output hearlier)
  apart := h.apart

/-- A source that is compiled to a path not taken takes it for the sources after it. -/
theorem cons {summary : Summary}
    (hwritten : Summary.Written source directory (.ok summary) older tree)
    (houtput : outputPath source directory = .ok output)
    (hfree : ∀ earlier ∈ taken, earlier.same output = false)
    (h : Wrote directory sources (output :: taken) files newer after)
    (hrewritten : tree.Rewritten newer after) :
    Wrote directory (source :: sources) taken (summary :: files) (newer ++ older) after := by
  obtain ⟨path, file, hpath, hsource, hsummary, htells, rfl⟩ := hwritten
  obtain rfl : output = path := by simpa [houtput] using hpath
  constructor
  · rw [List.reverse_append]
    exact .cons (htells.later hrewritten) h.tells
  · intro other hother path hpath
    obtain rfl | hother := List.mem_cons.mp hother
    · obtain rfl : output = path := by simpa [hsummary] using hpath
      exact ⟨hsource ▸ List.mem_cons_self, hsource ▸ houtput⟩
    · exact h.skip.chosen other hother path hpath
  · intro other hother path hpath
    obtain rfl | hother := List.mem_cons.mp hother
    · obtain rfl : output = path := by simpa [hsummary] using hpath
      exact hfree
    · exact h.of_more_taken.untaken other hother path hpath
  · apply List.Pairwise.cons
    · intro other hother path path' hpath hpath'
      obtain rfl : output = path := by simpa [hsummary] using hpath
      exact h.untaken other hother path' hpath' output List.mem_cons_self
    · exact h.apart

end Wrote

theorem compileSources_tracks (directory : Option Path) (taken : List (Path × Path))
    (sources : List Path) :
    Tracks (compileSources directory false taken sources)
      (compileSources directory false taken sources)
      fun result => Wrote directory sources (taken.map Prod.fst) result.1 := by
  induction sources generalizing taken with
  | nil => exact .pure fun _ => .none_yet
  | cons source sources ih =>
    unfold compileSources
    cases houtput : outputPath source directory with
    | error error =>
      apply Tracks.returning (ih taken)
      intro result
      exact ⟨_, .pure _, fun _ _ h => h.skip⟩
    | ok output =>
      cases hfind : taken.find? (fun pair => pair.1.same output) with
      | some owner =>
        simp only [hfind]
        apply Tracks.after_idle (.report _)
        intro _
        apply Tracks.returning (ih taken)
        intro result
        exact ⟨_, .pure _, fun _ _ h => h.skip⟩
      | none =>
        have hfree : ∀ earlier ∈ taken.map Prod.fst, earlier.same output = false := by
          simpa using hfind
        simp only [hfind]
        -- Whether the source is compiled or not, its output is taken from now on.
        apply Tracks.bind (fun (outcome : Except CompileError Summary) result newer after =>
          ∃ files, Wrote directory sources (output :: taken.map Prod.fst) files newer after ∧
            result.1 = outcome.toOption.toList ++ files) (compileFile_tracks source directory)
        · intro outcome
          cases outcome with
          | ok summary =>
            apply Tracks.returning (ih ((output, source) :: taken))
            intro result
            exact ⟨_, .pure _, fun _ _ h => ⟨result.1, h, rfl⟩⟩
          | error error =>
            apply Tracks.after_idle (.report _)
            intro _
            apply Tracks.returning (ih ((output, source) :: taken))
            intro result
            exact ⟨_, .pure _, fun _ _ h => ⟨result.1, h, rfl⟩⟩
        · rintro outcome older tree ⟨_, errors⟩ newer after hwritten ⟨files, hwrote, rfl⟩ hrewritten
          cases outcome with
          | ok summary => exact .cons hwritten houtput hfree hwrote hrewritten
          | error error =>
            obtain rfl : older = [] := hwritten
            rw [List.append_nil]
            exact hwrote.of_more_taken.skip

/-- Whether a batch compiles at all depends on the tree before it alone. -/
theorem compileAll_tracks (tree : FileTree) (inputs : List Path) (directory : Option Path) :
    TracksFrom tree (compileAll inputs directory false) (compileAll inputs directory false)
      fun result entries after =>
        match result with
        | .ok outcome => ∃ sources,
          (expandInputs inputs : StateM FileTree _).run tree = (.ok sources, tree) ∧
            Wrote directory sources [] outcome.files entries after
        | .error _ => entries = [] ∧ after = tree := by
  apply Tracks.from_idle (expandInputs_idle inputs)
  intro expansion hexpansion
  cases expansion with
  | error error =>
    intro written
    exact ⟨.error error, [], tree, rfl, rfl, .refl tree, rfl, rfl⟩
  | ok sources =>
    apply Tracks.returning (compileSources_tracks directory [] sources)
    intro result
    exact ⟨_, .report_pure _ _, fun _ _ hwrote => ⟨sources, hexpansion, hwrote⟩⟩

end Writing

end Concordance
