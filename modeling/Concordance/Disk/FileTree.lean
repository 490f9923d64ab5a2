import Concordance.Disk.IoError
import Concordance.Disk.Path

/-!
# Trees of files

Files and directories as a value, without links.  A path is followed part by part from the root or
from the working directory; every part but the last has to lead through a directory, and neither a
name nor the path may be too long.  What a path leads to is a location, the names on the way from
the root, which may or may not hold something.
-/

namespace Concordance

/-- A file with its bytes, or a directory with its entries. -/
inductive FileNode where
  | file (content : ByteArray)
  | directory (entries : List (String × FileNode))

namespace FileNode

/-- Replaces or adds the entry of a name. -/
def setEntry (name : String) (node : FileNode) :
    List (String × FileNode) → List (String × FileNode)
  | [] => [(name, node)]
  | entry :: rest =>
    if entry.1 = name then (name, node) :: rest else entry :: setEntry name node rest

/-- What stands at the end of a way of names. -/
def get? : FileNode → List String → Option FileNode
  | node, [] => some node
  | .file _, _ :: _ => none
  | .directory entries, name :: way =>
    match entries.lookup name with
    | some node => node.get? way
    | none => none

/-- Puts something at the end of a way of names.  Nothing changes if a directory on the way is
missing. -/
def put (new : FileNode) : FileNode → List String → FileNode
  | _, [] => new
  | .file content, _ :: _ => .file content
  | .directory entries, [name] => .directory (setEntry name new entries)
  | .directory entries, name :: way =>
    match entries.lookup name with
    | some node => .directory (setEntry name (put new node way) entries)
    | none => .directory entries

end FileNode

/-- The names on the way from the root. -/
abbrev Location := List String

/-- A tree of files with the location of the working directory. -/
structure FileTree where
  root : FileNode
  here : Location

namespace FileTree

/-- What stands at a location. -/
def at? (tree : FileTree) (location : Location) : Option FileNode :=
  tree.root.get? location

/-- Puts something at a location. -/
def setAt (tree : FileTree) (location : Location) (node : FileNode) : FileTree :=
  { tree with root := node.put tree.root location }

/-- The number of bytes that a name may have. -/
def nameLimit : Nat := 255

/-- The number of bytes that a path may have. -/
def pathLimit : Nat := 4095

/-- Follows one part of a path. -/
def follow (tree : FileTree) (location : Location) (part : String) : Except IoError Location :=
  match tree.at? location with
  | none => .error .notFound
  | some (.file _) => .error .notDirectory
  | some (.directory _) =>
    if part = "" ∨ part = "." then .ok location
    else if part = ".." then .ok location.dropLast
    else if nameLimit < part.utf8ByteSize then .error .nameTooLong
    else .ok (location ++ [part])

/-- The location that a path leads to. -/
def locate (tree : FileTree) (path : Path) : Except IoError Location :=
  if path.text = "" then .error .notFound
  else if pathLimit < path.text.utf8ByteSize then .error .nameTooLong
  else path.parts.foldlM tree.follow (if path.isAbsolute then [] else tree.here)

/-- What stands where a path leads to. -/
def find (tree : FileTree) (path : Path) : Except IoError FileNode :=
  match tree.locate path with
  | .error error => .error error
  | .ok location =>
    match tree.at? location with
    | some node => .ok node
    | none => .error .notFound

def isDirectory (tree : FileTree) (path : Path) : Bool :=
  match tree.find path with
  | .ok (.directory _) => true
  | _ => false

def read (tree : FileTree) (path : Path) : Except IoError ByteArray :=
  match tree.find path with
  | .ok (.file content) => .ok content
  | .ok (.directory _) => .error .isDirectory
  | .error error => .error error

def isFile (tree : FileTree) (path : Path) : Bool :=
  match tree.find path with
  | .ok (.file _) => true
  | _ => false

/-- The names in a directory, each with whether the path from there to it leads to a file.  A path
that has become too long leads nowhere. -/
def entries (tree : FileTree) (path : Path) : Except IoError (List (String × Bool)) :=
  match tree.find path with
  | .ok (.directory entries) =>
    .ok (entries.map fun entry => (entry.1, tree.isFile (path.join entry.1)))
  | .ok (.file _) => .error .notDirectory
  | .error error => .error error

def withoutSlashes (path : Path) : Path :=
  ⟨String.ofList (path.text.toList.reverse.dropWhile (· == '/')).reverse⟩

/-- Makes a directory where nothing stands yet. -/
def makeDirectory (tree : FileTree) (path : Path) : Except IoError FileTree := do
  if tree.isDirectory path then .error .alreadyExists
  else
    let location ← tree.locate (withoutSlashes path)
    match tree.at? location with
    | some _ => .error .alreadyExists
    | none => .ok (tree.setAt location (.directory []))

/-- The location of a file that may be written, whether it stands there yet or not. -/
def openFile (tree : FileTree) (path : Path) : Except IoError Location := do
  let stripped := withoutSlashes path
  if tree.isDirectory path then .error .isDirectory
  else
    let location ← tree.locate stripped
    match tree.at? location with
    | some (.directory _) => .error .isDirectory
    | some (.file _) => if stripped = path then .ok location else .error .notDirectory
    | none => if stripped = path then .ok location else .error .isDirectory

/-- Writes a file, in place of one that stands there. -/
def write (tree : FileTree) (path : Path) (content : ByteArray) : Except IoError FileTree := do
  let location ← tree.openFile path
  .ok (tree.setAt location (.file content))

/-- Adds bytes at the end of the file at a location. -/
def append (tree : FileTree) (location : Location) (content : ByteArray) : FileTree :=
  match tree.at? location with
  | some (.file old) => tree.setAt location (.file (old ++ content))
  | _ => tree.setAt location (.file content)

mutual

/-- The files below a node, each with its path from there. -/
def filesBelow (path : Path) : FileNode → List (Path × ByteArray)
  | .file content => [(path, content)]
  | .directory entries => filesAmong path entries

/-- The files among entries and below them. -/
def filesAmong (path : Path) : List (String × FileNode) → List (Path × ByteArray)
  | [] => []
  | (name, node) :: rest => filesBelow (path.join name) node ++ filesAmong path rest

end

/-- Every file below the working directory, with its path from there. -/
def files (tree : FileTree) : List (Path × ByteArray) :=
  match tree.at? tree.here with
  | some (.directory entries) => filesAmong ⟨""⟩ entries
  | _ => []

end FileTree

end Concordance
