import Concordance.Disk.FileTree
import Concordance.Journal.Report

/-!
# Hosts

What a run asks of the machine that it runs on: to look at files and directories, to make and write
them, and to take its reports.  A tree of files is such a machine; it drops the reports.
-/

namespace Concordance

/-- A machine with files and directories that takes reports. -/
class Host (m : Type → Type) where
  isDirectory : Path → m Bool
  entries : Path → m (Except IoError (List (String × Bool)))
  read : Path → m (Except IoError ByteArray)
  makeDirectory : Path → m (Except IoError Unit)
  write : Path → ByteArray → m (Except IoError Unit)
  report : Report → m Unit

namespace FileTree

/-- Keeps the tree that a change leaves behind, and tells whether the change succeeded. -/
def attempt (change : FileTree → Except IoError FileTree) (tree : FileTree) :
    Except IoError Unit × FileTree :=
  match change tree with
  | .ok tree => (.ok (), tree)
  | .error error => (.error error, tree)

instance : Host (StateM FileTree) where
  isDirectory path := fun tree => (tree.isDirectory path, tree)
  entries path := fun tree => (tree.entries path, tree)
  read path := fun tree => (tree.read path, tree)
  makeDirectory path := attempt (·.makeDirectory path)
  write path content := attempt (·.write path content)
  report _ := fun tree => ((), tree)

end FileTree

variable {m : Type → Type} [Monad m] [Host m]

/-- Makes the first of the paths a directory, where each path is the parent of the one before.  One
that is there already is as good as made, and one whose parent is missing is made after it. -/
def makeDirectoryAlong : List Path → m (Except IoError Unit)
  | [] => pure (.ok ())
  | path :: above =>
    if path.text = "" then pure (.ok ())
    else do
      match ← Host.makeDirectory path with
      | .ok () => pure (.ok ())
      | .error .notFound =>
        match ← makeDirectoryAlong above with
        | .error error => pure (.error error)
        | .ok () =>
          match ← Host.makeDirectory path with
          | .ok () => pure (.ok ())
          | .error error => pure (if ← Host.isDirectory path then .ok () else .error error)
      | .error error => pure (if ← Host.isDirectory path then .ok () else .error error)

/-- Makes a directory and those that are missing above it. -/
def makeDirectories (path : Path) : m (Except IoError Unit) :=
  makeDirectoryAlong path.ancestors

end Concordance
