import Concordance.Disk.Host
import Concordance.Proofs.Disk.Location

/-!
# Ledgers

A ledger is a tree of files with a record of every file written to it.  A program that runs on any
machine runs on a ledger as well, which tells how often it writes what, and not only what is there
in the end.

Watching a tree does not disturb the program: it gives the same result and leaves the same tree.
This is shown along the program, one rule for each way of making programs out of smaller ones, with
a condition on the result, on the entries that the program adds and on the tree that it leaves.
-/

namespace Concordance

/-- A tree of files with the files written to it, latest first. -/
structure Ledger where
  tree : FileTree
  written : List (Location × ByteArray)

namespace Ledger

variable {α β : Type}

/-- A ledger without entries. -/
def blank (tree : FileTree) : Ledger :=
  ⟨tree, []⟩

/-- Looks at the tree and changes nothing. -/
def look (view : FileTree → α) : StateM Ledger α :=
  fun ledger => (view ledger.tree, ledger)

instance : Host (StateM Ledger) where
  isDirectory path := look (·.isDirectory path)
  entries path := look (·.entries path)
  read path := look (·.read path)
  makeDirectory path := fun ledger =>
    match ledger.tree.makeDirectory path with
    | .ok tree => (.ok (), { ledger with tree := tree })
    | .error error => (.error error, ledger)
  write path content := fun ledger =>
    match ledger.tree.openFile path with
    | .ok location =>
      (.ok (), ⟨ledger.tree.setAt location (.file content), (location, content) :: ledger.written⟩)
    | .error error => (.error error, ledger)
  report _ := look fun _ => ()

end Ledger

section Programs

variable {α β : Type}

/-- A program that changes nothing, on a ledger and on the tree alone. -/
def Idle (watched : StateM Ledger α) (alone : StateM FileTree α) : Prop :=
  ∀ tree written, ∃ result, alone tree = (result, tree) ∧
    watched ⟨tree, written⟩ = (result, ⟨tree, written⟩)

/-- A program that changes nothing and gives one result whatever the tree is like. -/
def Returns (watched : StateM Ledger α) (alone : StateM FileTree α) (result : α) : Prop :=
  ∀ tree written, alone tree = (result, tree) ∧
    watched ⟨tree, written⟩ = (result, ⟨tree, written⟩)

/-- A program that, from a tree, does on a ledger what it does on the tree alone.  What it writes is
entered, and its result, the entries and the tree that it leaves satisfy a condition. -/
def TracksFrom (tree : FileTree) (watched : StateM Ledger α) (alone : StateM FileTree α)
    (post : α → List (Location × ByteArray) → FileTree → Prop) : Prop :=
  ∀ written, ∃ result entries after, alone tree = (result, after) ∧
    watched ⟨tree, written⟩ = (result, ⟨after, entries ++ written⟩) ∧
    tree.Rewritten entries after ∧ post result entries after

/-- A program that does so from every tree. -/
def Tracks (watched : StateM Ledger α) (alone : StateM FileTree α)
    (post : α → List (Location × ByteArray) → FileTree → Prop) : Prop :=
  ∀ tree, TracksFrom tree watched alone post

theorem bind_apply_eq {σ : Type} {program : StateM σ α} {rest : α → StateM σ β} {state after : σ}
    {a : α} (h : program state = (a, after)) : (program >>= rest) state = rest a after := by
  change rest (program state).1 (program state).2 = rest a after
  rw [h]

namespace Idle

theorem pure (a : α) : Idle (Pure.pure a) (Pure.pure a) :=
  fun _ _ => ⟨a, rfl, rfl⟩

theorem look (view : FileTree → α) : Idle (Ledger.look view) fun tree => (view tree, tree) :=
  fun tree _ => ⟨view tree, rfl, rfl⟩

theorem bind {watched : StateM Ledger α} {alone : StateM FileTree α}
    {watched' : α → StateM Ledger β} {alone' : α → StateM FileTree β}
    (first : Idle watched alone) (rest : ∀ a, Idle (watched' a) (alone' a)) :
    Idle (watched >>= watched') (alone >>= alone') := by
  intro tree written
  obtain ⟨a, halone, hwatched⟩ := first tree written
  obtain ⟨b, halone', hwatched'⟩ := rest a tree written
  exact ⟨b, (bind_apply_eq halone).trans halone', (bind_apply_eq hwatched).trans hwatched'⟩

theorem isDirectory (path : Path) : Idle (Host.isDirectory path) (Host.isDirectory path) :=
  look _

theorem entries (path : Path) : Idle (Host.entries path) (Host.entries path) :=
  look _

theorem read (path : Path) : Idle (Host.read path) (Host.read path) :=
  look _

theorem report (report : Report) : Idle (Host.report report) (Host.report report) :=
  look _

end Idle

namespace Returns

theorem pure (a : α) : Returns (Pure.pure a) (Pure.pure a) a :=
  fun _ _ => ⟨rfl, rfl⟩

theorem report_pure (report : Report) (a : α) :
    Returns (do Host.report report; Pure.pure a) (do Host.report report; Pure.pure a) a :=
  fun _ _ => ⟨rfl, rfl⟩

end Returns

namespace Tracks

theorem of_idle {watched : StateM Ledger α} {alone : StateM FileTree α}
    {post : α → List (Location × ByteArray) → FileTree → Prop}
    (h : Idle watched alone) (hpost : ∀ a tree, post a [] tree) : Tracks watched alone post := by
  intro tree written
  obtain ⟨a, halone, hwatched⟩ := h tree written
  exact ⟨a, [], tree, halone, hwatched, .refl tree, hpost a tree⟩

theorem pure {post : α → List (Location × ByteArray) → FileTree → Prop} {a : α}
    (hpost : ∀ tree, post a [] tree) : Tracks (Pure.pure a) (Pure.pure a) post :=
  fun tree _ => ⟨a, [], tree, rfl, rfl, .refl tree, hpost tree⟩

/-- One program after another: the entries of the second come before those of the first, and what
the first one wrote still leads where it did. -/
theorem bind {watched : StateM Ledger α} {alone : StateM FileTree α}
    {watched' : α → StateM Ledger β} {alone' : α → StateM FileTree β}
    {first : α → List (Location × ByteArray) → FileTree → Prop}
    {post : β → List (Location × ByteArray) → FileTree → Prop}
    (second : α → β → List (Location × ByteArray) → FileTree → Prop)
    (hfirst : Tracks watched alone first)
    (hsecond : ∀ a, Tracks (watched' a) (alone' a) (second a))
    (hpost : ∀ a older middle b newer after, first a older middle → second a b newer after →
      middle.Rewritten newer after → post b (newer ++ older) after) :
    Tracks (watched >>= watched') (alone >>= alone') post := by
  intro tree written
  obtain ⟨a, older, middle, halone, hwatched, hrewritten, ha⟩ := hfirst tree written
  obtain ⟨b, newer, after, halone', hwatched', hrewritten', hb⟩ :=
    hsecond a middle (older ++ written)
  refine ⟨b, newer ++ older, after, (bind_apply_eq halone).trans halone', ?_,
    hrewritten.trans hrewritten', hpost a older middle b newer after ha hb hrewritten'⟩
  rw [bind_apply_eq hwatched, hwatched', List.append_assoc]

/-- A program that writes no file leaves the condition to the one after it. -/
theorem after_silent {watched : StateM Ledger α} {alone : StateM FileTree α}
    {watched' : α → StateM Ledger β} {alone' : α → StateM FileTree β}
    {post : β → List (Location × ByteArray) → FileTree → Prop}
    (first : Tracks watched alone fun _ entries _ => entries = [])
    (rest : ∀ a, Tracks (watched' a) (alone' a) post) :
    Tracks (watched >>= watched') (alone >>= alone') post := by
  refine bind (fun _ => post) first rest fun a older middle b newer after hsilent hpost _ => ?_
  rw [hsilent, List.append_nil]
  exact hpost

theorem after_idle {watched : StateM Ledger α} {alone : StateM FileTree α}
    {watched' : α → StateM Ledger β} {alone' : α → StateM FileTree β}
    {post : β → List (Location × ByteArray) → FileTree → Prop}
    (first : Idle watched alone) (rest : ∀ a, Tracks (watched' a) (alone' a) post) :
    Tracks (watched >>= watched') (alone >>= alone') post :=
  after_silent (of_idle first fun _ _ => rfl) rest

/-- What an idle program returns is what it returns on the tree alone. -/
theorem from_idle {tree : FileTree} {watched : StateM Ledger α} {alone : StateM FileTree α}
    {watched' : α → StateM Ledger β} {alone' : α → StateM FileTree β}
    {post : β → List (Location × ByteArray) → FileTree → Prop} (first : Idle watched alone)
    (rest : ∀ a, alone tree = (a, tree) → TracksFrom tree (watched' a) (alone' a) post) :
    TracksFrom tree (watched >>= watched') (alone >>= alone') post := by
  intro written
  obtain ⟨a, halone, hwatched⟩ := first tree written
  obtain ⟨b, entries, after, halone', hwatched', hrewritten, hb⟩ := rest a halone written
  exact ⟨b, entries, after, (bind_apply_eq halone).trans halone',
    (bind_apply_eq hwatched).trans hwatched', hrewritten, hb⟩

/-- What a program returns in the end is made from the result of what it ran. -/
theorem returning {watched : StateM Ledger α} {alone : StateM FileTree α}
    {watched' : α → StateM Ledger β} {alone' : α → StateM FileTree β}
    {first : α → List (Location × ByteArray) → FileTree → Prop}
    {post : β → List (Location × ByteArray) → FileTree → Prop}
    (hfirst : Tracks watched alone first)
    (rest : ∀ a, ∃ b, Returns (watched' a) (alone' a) b ∧
      ∀ entries after, first a entries after → post b entries after) :
    Tracks (watched >>= watched') (alone >>= alone') post := by
  intro tree written
  obtain ⟨a, entries, after, halone, hwatched, hrewritten, ha⟩ := hfirst tree written
  obtain ⟨b, hreturns, hpost⟩ := rest a
  obtain ⟨halone', hwatched'⟩ := hreturns after (entries ++ written)
  exact ⟨b, entries, after, (bind_apply_eq halone).trans halone',
    (bind_apply_eq hwatched).trans hwatched', hrewritten, hpost entries after ha⟩

theorem makeDirectory (path : Path) :
    Tracks (Host.makeDirectory path) (Host.makeDirectory path) fun _ entries _ => entries = [] := by
  intro tree written
  cases h : tree.makeDirectory path with
  | error error =>
    refine ⟨.error error, [], tree, ?_, ?_, .refl tree, rfl⟩
    · simp [Host.makeDirectory, FileTree.attempt, h]
    · simp [Host.makeDirectory, h]
  | ok after =>
    refine ⟨.ok (), [], after, ?_, ?_, FileTree.rewritten_makeDirectory h, rfl⟩
    · simp [Host.makeDirectory, FileTree.attempt, h]
    · simp [Host.makeDirectory, h]

/-- A file that was written is where its path leads from then on. -/
theorem write (path : Path) (content : ByteArray) :
    Tracks (Host.write path content) (Host.write path content) fun result entries after =>
      match result with
      | .ok () => ∃ location, after.locate path = .ok location ∧ entries = [(location, content)]
      | .error _ => entries = [] := by
  intro tree written
  cases h : tree.openFile path with
  | error error =>
    refine ⟨.error error, [], tree, ?_, ?_, .refl tree, rfl⟩
    · simp [Host.write, FileTree.attempt, FileTree.write, Bind.bind, Except.bind, h]
    · simp [Host.write, h]
  | ok location =>
    have hrewritten := FileTree.rewritten_write h content
    refine ⟨.ok (), [(location, content)], tree.setAt location (.file content), ?_, ?_,
      hrewritten, location, hrewritten.locate (FileTree.openFile_eq_ok h).1, rfl⟩
    · simp [Host.write, FileTree.attempt, FileTree.write, Bind.bind, Except.bind, h]
    · simp [Host.write, h]

end Tracks

theorem makeDirectoryAlong_tracks (paths : List Path) :
    Tracks (makeDirectoryAlong paths) (makeDirectoryAlong paths)
      fun _ entries _ => entries = [] := by
  induction paths with
  | nil => exact .pure fun _ => rfl
  | cons path above ih =>
    -- What is there already was made or not, and neither is a file.
    have hseen (error : IoError) : Tracks
        (do pure (if ← Host.isDirectory path then .ok () else .error error))
        (do pure (if ← Host.isDirectory path then .ok () else .error error))
        fun (_ : Except IoError Unit) entries _ => entries = [] :=
      .after_idle (.isDirectory path) fun _ => .pure fun _ => rfl
    unfold makeDirectoryAlong
    split
    · exact .pure fun _ => rfl
    · refine .after_silent (.makeDirectory path) fun result => ?_
      cases result with
      | ok made => exact .pure fun _ => rfl
      | error error =>
        cases error with
        | notFound =>
          refine .after_silent ih fun result => ?_
          cases result with
          | error error => exact .pure fun _ => rfl
          | ok made =>
            refine .after_silent (.makeDirectory path) fun result => ?_
            cases result with
            | ok made => exact .pure fun _ => rfl
            | error error => exact hseen error
        | _ => exact hseen _

theorem makeDirectories_tracks (path : Path) :
    Tracks (makeDirectories path) (makeDirectories path) fun _ entries _ => entries = [] :=
  makeDirectoryAlong_tracks path.ancestors

end Programs

end Concordance
