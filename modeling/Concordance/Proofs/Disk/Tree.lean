import Concordance.Disk.FileTree
import Mathlib.Data.List.Basic

/-!
# Places in a tree of files

A tree of files is looked at as a map from locations to what takes them, a file with its bytes or a
directory.  A change to a tree is then a change of that map at one location: writing puts a file
there, making a directory puts a directory where nothing was.  Nothing below the location changes,
because nothing is below a file or below a place that is free.
-/

namespace Concordance

namespace FileNode

theorem lookup_cons_eq_ite (first other : String) (node : FileNode)
    (entries : List (String × FileNode)) :
    ((first, node) :: entries).lookup other =
      if other = first then some node else entries.lookup other := by
  by_cases h : other = first
  · simp [h]
  · simp [List.lookup_cons, h, beq_eq_false_iff_ne.mpr h]

theorem lookup_setEntry (name other : String) (node : FileNode)
    (entries : List (String × FileNode)) :
    (setEntry name node entries).lookup other =
      if other = name then some node else entries.lookup other := by
  induction entries with
  | nil => simp [setEntry, lookup_cons_eq_ite]
  | cons entry rest ih =>
    obtain ⟨first, old⟩ := entry
    by_cases hfirst : first = name
    · subst hfirst
      by_cases h : other = first <;> simp [setEntry, lookup_cons_eq_ite, h]
    · by_cases h : other = first
      · simp [setEntry, hfirst, h]
      · simp [setEntry, lookup_cons_eq_ite, hfirst, h, ih]

theorem get?_append (node : FileNode) (way rest : List String) :
    node.get? (way ++ rest) = (node.get? way).bind fun node => node.get? rest := by
  induction way generalizing node with
  | nil => simp [get?]
  | cons name way ih =>
    cases node with
    | file content => simp [get?]
    | directory entries =>
      cases hentry : entries.lookup name with
      | none => simp [get?, hentry]
      | some child => simp [get?, hentry, ih child]

/-- Where a directory on the way is there the way goes on in it. -/
theorem put_cons (new : FileNode) (entries : List (String × FileNode)) (name : String)
    (way : List String) {child : FileNode} (hchild : entries.lookup name = some child) :
    put new (.directory entries) (name :: way) =
      .directory (setEntry name (put new child way) entries) := by
  cases way with
  | nil => rfl
  | cons next way => simp [put, hchild]

end FileNode

/-- What takes a place in a tree. -/
inductive Occupant where
  | file (content : ByteArray)
  | directory

namespace FileNode

def occupant : FileNode → Occupant
  | .file content => .file content
  | .directory _ => .directory

/-- Whether nothing is below a node. -/
def IsLeaf (node : FileNode) : Prop :=
  ∀ name way, node.get? (name :: way) = none

theorem isLeaf_file (content : ByteArray) : (file content).IsLeaf :=
  fun _ _ => rfl

theorem isLeaf_empty : (directory []).IsLeaf :=
  fun _ _ => rfl

theorem isLeaf_of_occupant_ne {node : FileNode} (h : node.occupant ≠ .directory) :
    node.IsLeaf := by
  cases node with
  | file content => exact isLeaf_file content
  | directory entries => exact absurd rfl h

/-- A leaf put into a directory, in place of nothing or of a file, changes what takes its own place
and no other. -/
theorem occupant_get?_put {new : FileNode} (hnew : new.IsLeaf) (name : String) {node : FileNode}
    {way : List String} (inside : (node.get? way).map occupant = some .directory)
    (free : (node.get? (way ++ [name])).map occupant ≠ some .directory) (other : List String) :
    ((put new node (way ++ [name])).get? other).map occupant =
      if other = way ++ [name] then some new.occupant else (node.get? other).map occupant := by
  induction way generalizing node other with
  | nil =>
    cases node with
    | file content => simp [get?, occupant] at inside
    | directory entries =>
      cases other with
      | nil => simp [put, get?, occupant]
      | cons first rest =>
        by_cases hfirst : first = name
        · subst hfirst
          cases rest with
          | nil => simp [put, get?, lookup_setEntry]
          | cons second rest =>
            -- Below the place there is nothing, neither before nor after.
            have hbefore : (directory entries).get? (first :: second :: rest) = none := by
              cases hold : entries.lookup first with
              | none => simp [get?, hold]
              | some old =>
                have hleaf : old.IsLeaf :=
                  isLeaf_of_occupant_ne fun h => free (by simp [get?, hold, h])
                simpa [get?, hold] using hleaf second rest
            rw [hbefore]
            simp [put, get?, lookup_setEntry, hnew second rest]
        · simp [put, get?, lookup_setEntry, hfirst]
  | cons next way ih =>
    cases node with
    | file content => simp [get?] at inside
    | directory entries =>
      cases hchild : entries.lookup next with
      | none => simp [get?, hchild] at inside
      | some child =>
        have hput : put new (.directory entries) (next :: (way ++ [name])) =
            .directory (setEntry next (put new child (way ++ [name])) entries) :=
          put_cons new entries next _ hchild
        rw [List.cons_append, hput]
        cases other with
        | nil => simp [get?, occupant]
        | cons first rest =>
          by_cases hfirst : first = next
          · subst hfirst
            have hinside : (child.get? way).map occupant = some .directory := by
              simpa [get?, hchild] using inside
            have hfree : (child.get? (way ++ [name])).map occupant ≠ some .directory := by
              simpa [get?, hchild] using free
            simpa [get?, lookup_setEntry, hchild] using ih hinside hfree rest
          · simp [get?, lookup_setEntry, hfirst]

end FileNode

namespace FileTree

/-- What takes a location, if anything does. -/
def occupant? (tree : FileTree) (location : Location) : Option Occupant :=
  (tree.at? location).map FileNode.occupant

/-- The bytes of the file at a location, if one is there. -/
def file? (tree : FileTree) (location : Location) : Option ByteArray :=
  match tree.occupant? location with
  | some (.file content) => some content
  | _ => none

/-- What is anywhere below a location is in a directory there. -/
theorem directory_of_cons {tree : FileTree} {location rest : Location} {name : String}
    {occupant : Occupant} (h : tree.occupant? (location ++ name :: rest) = some occupant) :
    tree.occupant? location = some .directory := by
  simp only [occupant?, at?, FileNode.get?_append] at h ⊢
  cases hnode : tree.root.get? location with
  | none => simp [hnode] at h
  | some node =>
    cases node with
    | file content => simp [hnode, FileNode.get?] at h
    | directory entries => simp [FileNode.occupant]

theorem directory_of_append {tree : FileTree} {location rest : Location}
    (h : tree.occupant? (location ++ rest) = some .directory) :
    tree.occupant? location = some .directory := by
  cases rest with
  | nil => simpa using h
  | cons name rest => exact directory_of_cons h

theorem directory_dropLast {tree : FileTree} {location : Location}
    (h : tree.occupant? location = some .directory) :
    tree.occupant? location.dropLast = some .directory := by
  obtain rfl | ⟨outer, name, rfl⟩ := location.eq_nil_or_concat'
  · exact h
  · rw [List.dropLast_concat]
    exact directory_of_append h

theorem occupant?_setAt {tree : FileTree} {directory : Location} {name : String} {node : FileNode}
    (leaf : node.IsLeaf) (inside : tree.occupant? directory = some .directory)
    (free : tree.occupant? (directory ++ [name]) ≠ some .directory) (other : Location) :
    (tree.setAt (directory ++ [name]) node).occupant? other =
      if other = directory ++ [name] then some node.occupant else tree.occupant? other :=
  FileNode.occupant_get?_put leaf name inside free other

end FileTree

end Concordance
