/-!
# Paths

A path is a text whose parts are separated by slashes.  Parts that are empty or a single dot say
nothing, except for the slash at the beginning, which starts at the root, and a dot at the
beginning.  What a path says is the list of its components; paths with the same components count as
equal, although their texts may differ.
-/

namespace Concordance

/-- One step of a path. -/
inductive Component where
  | root
  | here
  | parent
  | name (text : String)
  deriving Repr, DecidableEq

/-- A path as it is written. -/
structure Path where
  text : String
  deriving Repr, DecidableEq

namespace Path

/-- The parts between the slashes of a text, empty ones included. -/
def split (text : String) : List String :=
  (text.toList.splitOn '/').map String.ofList

/-- The parts between the slashes, empty ones included. -/
def parts (path : Path) : List String :=
  split path.text

def isAbsolute (path : Path) : Bool :=
  path.text.toList.head? == some '/'

/-- The component of a part that is not the first. -/
def innerComponent (part : String) : Option Component :=
  if part = "" ∨ part = "." then none
  else if part = ".." then some .parent
  else some (.name part)

/-- The components of parts, of which the first may be a dot that counts. -/
def partComponents : List String → List Component
  | [] => []
  | first :: rest =>
    (if first = "." then [.here] else (innerComponent first).toList) ++
      rest.filterMap innerComponent

/-- What the path says, step by step. -/
def components (path : Path) : List Component :=
  if path.isAbsolute then .root :: path.parts.filterMap innerComponent
  else partComponents path.parts

/-- Whether two paths have the same components. -/
def same (a b : Path) : Bool :=
  a.components == b.components

/-- The name at the end of the path, if it ends in one. -/
def fileName? (path : Path) : Option String :=
  match path.components.getLast? with
  | some (.name text) => some text
  | _ => none

/-- A file name cut at its last dot; one without a dot, or with none but at its beginning, has no
second half. -/
def splitExtension (name : String) : String × Option String :=
  let reversed := name.toList.reverse
  let after := (reversed.takeWhile (· ≠ '.')).reverse
  match (reversed.dropWhile (· ≠ '.')).tail.reverse with
  | [] => (name, none)
  | before => (String.ofList before, some (String.ofList after))

def stem? (path : Path) : Option String :=
  path.fileName?.map fun name => (splitExtension name).1

def extension? (path : Path) : Option String :=
  path.fileName?.bind fun name => (splitExtension name).2

/-- Whether a part after the first says nothing. -/
def isSilent (part : String) : Bool :=
  part == "" || part == "."

/-- The parts without the silent ones at the end; the first part always stays. -/
def dropSilent : List String → List String
  | [] => []
  | first :: rest => first :: (rest.reverse.dropWhile isSilent).reverse

/-- The path up to its last component, if it has one besides the root. -/
def parent? (path : Path) : Option Path :=
  match path.components.getLast? with
  | none | some .root => none
  | some _ =>
    match (dropSilent path.parts).dropLast with
    | [] => some ⟨""⟩
    | kept =>
      let kept := dropSilent kept
      some ⟨if kept = [""] then "/" else "/".intercalate kept⟩

/-- The parents of a path one above the other, at most so many. -/
def parents : Nat → Path → List Path
  | 0, _ => []
  | count + 1, path =>
    match path.parent? with
    | some parent => parent :: parents count parent
    | none => []

/-- The path, its parent, the parent of that, and so on. -/
def ancestors (path : Path) : List Path :=
  path :: parents path.parts.length path

/-- The path that leads to `name` from the given path. -/
def join (path : Path) (name : String) : Path :=
  if name.toList.head? == some '/' then ⟨name⟩
  else if path.text = "" ∨ path.text.toList.getLast? = some '/' then ⟨path.text ++ name⟩
  else ⟨path.text ++ "/" ++ name⟩

end Path

end Concordance
