import Concordance.Proofs.Disk.Styled

/-!
# Writing files again

Files that are there already can be written in any order, as long as each of them is written last
with what it is to hold in the end.  So whatever is written file after file changes nothing if it is
written once more: a file that is written again later need not be written before, and one that is
not holds what is written.

This is an equality of trees, in which directories keep the order of their entries, and not only of
what stands at each location.
-/

namespace Concordance

namespace FileNode

/-! ## Entries -/

section Entries

variable {name other : String} {node new : FileNode} {entries : List (String × FileNode)}

theorem setEntry_of_lookup (h : entries.lookup name = some node) :
    setEntry name node entries = entries := by
  induction entries with
  | nil => cases h
  | cons entry rest ih =>
    obtain ⟨first, old⟩ := entry
    rw [lookup_cons_eq_ite] at h
    by_cases hfirst : name = first
    · rw [if_pos hfirst] at h
      rw [setEntry, if_pos hfirst.symm, hfirst, Option.some.inj h]
    · rw [if_neg hfirst] at h
      rw [setEntry, if_neg (Ne.symm hfirst), ih h]

theorem setEntry_setEntry (name : String) (new node : FileNode)
    (entries : List (String × FileNode)) :
    setEntry name new (setEntry name node entries) = setEntry name new entries := by
  induction entries with
  | nil => simp [setEntry]
  | cons entry rest ih =>
    by_cases hfirst : entry.1 = name
    · simp [setEntry, hfirst]
    · simp [setEntry, hfirst, ih]

/-- Entries that do not share a name are set in either order if one of them is there already. -/
theorem setEntry_comm (hne : name ≠ other) (h : (entries.lookup name).isSome = true)
    (new node : FileNode) : setEntry name new (setEntry other node entries) =
      setEntry other node (setEntry name new entries) := by
  induction entries with
  | nil => cases h
  | cons entry rest ih =>
    obtain ⟨first, old⟩ := entry
    by_cases hname : first = name
    · subst hname
      simp [setEntry, hne]
    · by_cases hother : first = other
      · subst hother
        simp [setEntry, hname]
      · rw [lookup_cons_eq_ite, if_neg (Ne.symm hname)] at h
        simp [setEntry, hname, hother, ih h]

end Entries

/-! ## Nodes -/

section Nodes

variable {node found new : FileNode} {way other : List String}

/-- A way that leads on leads into an entry. -/
theorem exists_child {name : String} (h : node.get? (name :: way) = some found) :
    ∃ entries child, node = .directory entries ∧ entries.lookup name = some child ∧
      child.get? way = some found := by
  cases node with
  | file content => cases h
  | directory entries =>
    rw [get?] at h
    cases hchild : entries.lookup name with
    | none =>
      rw [hchild] at h
      cases h
    | some child =>
      rw [hchild] at h
      exact ⟨entries, child, rfl, hchild, h⟩

theorem put_of_get? (h : node.get? way = some found) : put found node way = node := by
  induction way generalizing node with
  | nil => exact (Option.some.inj h).symm
  | cons name way ih =>
    obtain ⟨entries, child, rfl, hchild, hfound⟩ := exists_child h
    rw [put_cons found entries name way hchild, ih hfound, setEntry_of_lookup hchild]

theorem put_put (h : node.get? way = some found) (new old : FileNode) :
    put new (put old node way) way = put new node way := by
  induction way generalizing node with
  | nil => rfl
  | cons name way ih =>
    obtain ⟨entries, child, rfl, hchild, hfound⟩ := exists_child h
    have hafter : (setEntry name (put old child way) entries).lookup name =
        some (put old child way) := by
      rw [lookup_setEntry, if_pos rfl]
    rw [put_cons old entries name way hchild, put_cons new _ name way hafter,
      put_cons new entries name way hchild, ih hfound, setEntry_setEntry]

theorem get?_put_self (h : node.get? way = some found) (new : FileNode) :
    (put new node way).get? way = some new := by
  induction way generalizing node with
  | nil => rfl
  | cons name way ih =>
    obtain ⟨entries, child, rfl, hchild, hfound⟩ := exists_child h
    rw [put_cons new entries name way hchild, get?, lookup_setEntry, if_pos rfl]
    exact ih hfound

section Files

variable {content content' : ByteArray} (h : node.get? way = some (.file content))
  (h' : node.get? other = some (.file content')) (hne : way ≠ other)

include h h' hne

/-- A file stays where another is written. -/
theorem get?_put_of_ne (new : FileNode) :
    (put new node way).get? other = some (.file content') := by
  induction way generalizing node other with
  | nil =>
    obtain rfl := Option.some.inj h
    cases other with
    | nil => exact absurd rfl hne
    | cons name other => cases h'
  | cons name way ih =>
    obtain ⟨entries, child, rfl, hchild, hfound⟩ := exists_child h
    cases other with
    | nil => cases h'
    | cons name' other =>
      rw [put_cons new entries name way hchild]
      by_cases hname : name' = name
      · subst hname
        rw [get?, lookup_setEntry, if_pos rfl]
        rw [get?, hchild] at h'
        exact ih hfound h' fun heq => hne (heq ▸ rfl)
      · rw [get?, lookup_setEntry, if_neg hname]
        exact h'

/-- Two files are written in either order. -/
theorem put_comm (new new' : FileNode) :
    put new (put new' node other) way = put new' (put new node way) other := by
  induction way generalizing node other with
  | nil =>
    obtain rfl := Option.some.inj h
    cases other with
    | nil => exact absurd rfl hne
    | cons name other => cases h'
  | cons name way ih =>
    obtain ⟨entries, child, rfl, hchild, hfound⟩ := exists_child h
    cases other with
    | nil => cases h'
    | cons name' other =>
      obtain ⟨_, child', ⟨⟩, hchild', hfound'⟩ := exists_child h'
      rw [put_cons new entries name way hchild, put_cons new' entries name' other hchild']
      by_cases hname : name = name'
      · subst hname
        obtain rfl : child = child' := Option.some.inj (hchild.symm.trans hchild')
        have hother : (setEntry name (put new' child other) entries).lookup name =
            some (put new' child other) := by
          rw [lookup_setEntry, if_pos rfl]
        have hway : (setEntry name (put new child way) entries).lookup name =
            some (put new child way) := by
          rw [lookup_setEntry, if_pos rfl]
        rw [put_cons new _ name way hother, put_cons new' _ name other hway, setEntry_setEntry,
          setEntry_setEntry, ih hfound hfound' fun heq => hne (heq ▸ rfl)]
      · have hother :
            (setEntry name' (put new' child' other) entries).lookup name = some child := by
          rw [lookup_setEntry, if_neg hname, hchild]
        have hway : (setEntry name (put new child way) entries).lookup name' = some child' := by
          rw [lookup_setEntry, if_neg (Ne.symm hname), hchild']
        rw [put_cons new _ name way hother, put_cons new' _ name' other hway,
          setEntry_comm hname (by simp [hchild])]

end Files

end Nodes

end FileNode

namespace FileTree

/-! ## Trees -/

section Trees

variable {tree : FileTree} {location other : Location} {content content' : ByteArray}

theorem at?_of_file? (h : tree.file? location = some content) :
    tree.at? location = some (.file content) := by
  obtain ⟨node, hnode, hoccupant⟩ := Option.map_eq_some_iff.mp (occupant?_of_file? h)
  rw [hnode]
  cases node with
  | file bytes =>
    cases hoccupant
    rfl
  | directory entries => cases hoccupant

theorem file?_of_at? (h : tree.at? location = some (.file content)) :
    tree.file? location = some content := by
  rw [file?, occupant?, h]
  rfl

theorem setAt_of_file? (h : tree.file? location = some content) :
    tree.setAt location (.file content) = tree := by
  rw [setAt, FileNode.put_of_get? (at?_of_file? h)]

theorem setAt_setAt (h : (tree.file? location).isSome = true) (new old : FileNode) :
    (tree.setAt location old).setAt location new = tree.setAt location new := by
  obtain ⟨content, hcontent⟩ := Option.isSome_iff_exists.mp h
  simp only [setAt, FileNode.put_put (at?_of_file? hcontent)]

theorem setAt_comm (h : (tree.file? location).isSome = true)
    (h' : (tree.file? other).isSome = true) (hne : location ≠ other) (new new' : FileNode) :
    (tree.setAt other new').setAt location new = (tree.setAt location new).setAt other new' := by
  obtain ⟨content, hcontent⟩ := Option.isSome_iff_exists.mp h
  obtain ⟨content', hcontent'⟩ := Option.isSome_iff_exists.mp h'
  simp only [setAt, FileNode.put_comm (at?_of_file? hcontent) (at?_of_file? hcontent') hne]

/-- Files stay files when one of them is written. -/
theorem isSome_file?_setAt (h : (tree.file? location).isSome = true)
    (h' : (tree.file? other).isSome = true) (new : ByteArray) :
    ((tree.setAt location (.file new)).file? other).isSome = true := by
  obtain ⟨content, hcontent⟩ := Option.isSome_iff_exists.mp h
  obtain ⟨content', hcontent'⟩ := Option.isSome_iff_exists.mp h'
  by_cases hne : location = other
  · subst hne
    have hnode : (tree.setAt location (.file new)).at? location = some (.file new) :=
      FileNode.get?_put_self (at?_of_file? hcontent) (.file new)
    rw [file?_of_at? hnode]
    rfl
  · have hnode : (tree.setAt location (.file new)).at? other = some (.file content') :=
      FileNode.get?_put_of_ne (at?_of_file? hcontent) (at?_of_file? hcontent') hne (.file new)
    rw [file?_of_at? hnode]
    rfl

end Trees

/-! ## One file after another -/

/-- Writes files one after another. -/
def fill (tree : FileTree) (writes : List (Location × ByteArray)) : FileTree :=
  writes.foldl (fun tree write => tree.setAt write.1 (.file write.2)) tree

section Filling

variable {tree : FileTree} {location : Location} {writes : List (Location × ByteArray)}

/-- A file that is written later need not be written before. -/
theorem fill_setAt (hfiles : ∀ write ∈ writes, (tree.file? write.1).isSome = true)
    (hlater : location ∈ writes.map Prod.fst) (content : ByteArray) :
    (tree.setAt location (.file content)).fill writes = tree.fill writes := by
  induction writes generalizing tree with
  | nil => cases hlater
  | cons write rest ih =>
    obtain ⟨hfirst, hrest⟩ := List.forall_mem_cons.mp hfiles
    have hthere : (tree.file? location).isSome = true := by
      obtain ⟨later, hmem, rfl⟩ := List.mem_map.mp hlater
      exact hfiles later hmem
    rw [fill, List.foldl_cons, fill, List.foldl_cons]
    by_cases heq : write.1 = location
    · rw [heq, setAt_setAt hthere]
    · rw [setAt_comm hfirst hthere heq]
      refine ih (fun later hmem => isSome_file?_setAt hfirst (hrest later hmem) _) ?_
      simpa [Ne.symm heq] using hlater

/-- Files that hold what is written to them last are not changed by writing. -/
theorem fill_eq_self (h : ∀ location content, writes.reverse.lookup location = some content →
    tree.file? location = some content) : tree.fill writes = tree := by
  induction writes with
  | nil => rfl
  | cons write rest ih =>
    have hrest (location : Location) (content : ByteArray)
        (hlookup : rest.reverse.lookup location = some content) :
        tree.file? location = some content := by
      refine h location content ?_
      rw [List.reverse_cons, List.lookup_append, hlookup, Option.some_or]
    rw [fill, List.foldl_cons]
    by_cases hlater : write.1 ∈ rest.map Prod.fst
    · have hfiles : ∀ later ∈ rest, (tree.file? later.1).isSome = true := by
        intro later hmem
        have hlookup : (rest.reverse.lookup later.1).isSome = true :=
          List.lookup_isSome_iff.mpr ⟨later, List.mem_reverse.mpr hmem, beq_self_eq_true later.1⟩
        obtain ⟨content, hcontent⟩ := Option.isSome_iff_exists.mp hlookup
        rw [hrest later.1 content hcontent]
        rfl
      exact (fill_setAt hfiles hlater write.2).trans (ih hrest)
    · have hholds : tree.file? write.1 = some write.2 := by
        have hnone : rest.reverse.lookup write.1 = none := by
          refine List.lookup_eq_none_iff.mpr fun later hmem => ?_
          rw [bne_iff_ne]
          rintro heq
          exact hlater (heq ▸ List.mem_map_of_mem (List.mem_reverse.mp hmem))
        refine h write.1 write.2 ?_
        rw [List.reverse_cons, List.lookup_append, hnone, Option.none_or]
        exact List.lookup_cons_self
      rw [setAt_of_file? hholds]
      exact ih hrest

/-- A stylesheet may be written at a location. -/
def MayStyle (tree : FileTree) (location : Location) : Prop :=
  location.IsStylesheet ∧ ∃ path, tree.openFile path = .ok location

/-- What stylesheets come to that are written one after another. -/
theorem Restyled.fill {base : FileTree} (h : base.Restyled tree)
    (hwrites : ∀ write ∈ writes, base.MayStyle write.1) :
    base.Restyled (tree.fill writes) ∧ tree.Rewritten writes.reverse (tree.fill writes) := by
  induction writes generalizing tree with
  | nil => exact ⟨h, .refl tree⟩
  | cons write rest ih =>
    obtain ⟨⟨hstylesheet, path, hopen⟩, hrest⟩ := List.forall_mem_cons.mp hwrites
    have hopen' : tree.openFile path = .ok write.1 := h.openFile_eq_ok_iff.mpr hopen
    obtain ⟨hrestyled, hrewritten⟩ :=
      ih (h.trans (restyled_write hopen' hstylesheet write.2)) hrest
    refine ⟨hrestyled, ?_⟩
    rw [List.reverse_cons]
    exact (rewritten_write hopen' write.2).trans hrewritten

/-- Stylesheets that were written one after another are written once more without a change. -/
theorem fill_fill (hwrites : ∀ write ∈ writes, tree.MayStyle write.1) :
    (tree.fill writes).fill writes = tree.fill writes := by
  obtain ⟨-, hrewritten⟩ := (Restyled.refl tree).fill hwrites
  refine fill_eq_self fun location content hlookup => ?_
  rw [hrewritten.file, hlookup, Option.some_or]

end Filling

end FileTree

end Concordance
