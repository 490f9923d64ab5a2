import Concordance.Definition.Reading

/-!
# Tables of a TOML document

A document names its tables in headers and in dotted keys, and may come back to a table only as
long as that adds to what is still open.  A header may define a table that so far only stood on the
way to others.  A dotted key may lead through such tables and through tables that dotted keys made,
but puts its value only into one of the latter.  Each element of an array of tables is a table of
its own, and names that lead through the array lead to its last element.  Any other value is
complete where it is written.
-/

namespace Concordance.Toml

open Text (Extent)

/-- How a table came to be: on the way to another, by a dotted key, or by a header of its own. -/
inductive Origin where
  | passed
  | dotted
  | headed
  deriving Repr, DecidableEq

/-- What stands at a key: a value that is complete, a table, or an array of tables.  A table shows
where its header stands, or the key that made it. -/
inductive Node where
  | value (reading : Reading)
  | table (extent : Extent) (origin : Origin) (entries : List (String × Extent × Node))
  | tables (extent : Extent) (elements : List (Extent × List (String × Extent × Node)))
  deriving Repr

/-- A key with the extent at which it stands. -/
abbrev Key := String × Extent

/-- The entries of a table, in the order in which they were made. -/
abbrev Entries := List (String × Extent × Node)

namespace Entries

/-- Changes what stands at a key, by a function of what stood there, the extent of the key
included. -/
def change (key : String) (f : Option (Extent × Node) → Option (Extent × Node)) :
    Entries → Option Entries
  | [] => (f none).map fun node => [(key, node)]
  | (k, node) :: rest =>
    if k = key then (f (some node)).map fun node => (k, node) :: rest
    else (change key f rest).map ((k, node) :: ·)

/-- Changes the last of the elements of an array of tables. -/
def changeLast (f : Entries → Option Entries) :
    List (Extent × Entries) → Option (List (Extent × Entries))
  | [] => none
  | [last] => (f last.2).map fun entries => [(last.1, entries)]
  | first :: rest => (changeLast f rest).map (first :: ·)

/-- Goes through the tables named by a path, making those that are missing, and changes what stands
at its end. -/
def walk (f : Option (Extent × Node) → Option (Extent × Node)) :
    List Key → Entries → Option Entries
  | [], _ => none
  | [key], entries => entries.change key.1 f
  | key :: path, entries => entries.change key.1 fun
    | none => (walk f path []).map fun inner => (key.2, .table key.2 .passed inner)
    | some (extent, .table place origin inner) =>
      (walk f path inner).map fun inner => (extent, .table place origin inner)
    | some (extent, .tables place elements) =>
      (changeLast (walk f path) elements).map fun elements => (extent, .tables place elements)
    | some (_, .value _) => none

/-- The extent of the last key of a path. -/
def lastExtent (path : List Key) : Extent :=
  (path.getLast?.map Prod.snd).getD (.point [])

def openTable (header : Extent) (path : List Key) (entries : Entries) : Option Entries :=
  entries.walk (fun
    | none => some (lastExtent path, .table header .headed [])
    | some (_, .table _ .passed inner) => some (lastExtent path, .table header .headed inner)
    | some _ => none) path

/-- Opens a new element of the array of tables of a header. -/
def openElement (header : Extent) (path : List Key) (entries : Entries) : Option Entries :=
  entries.walk (fun
    | none => some (lastExtent path, .tables header [(header, [])])
    | some (extent, .tables place elements) =>
      some (extent, .tables place (elements ++ [(header, [])]))
    | some _ => none) path

/-- Puts a value at a key that is not taken, at the end of a path of dotted keys.  `isOpen` says
whether the table may take the last key of the path. -/
def assign (value : Reading) (isOpen : Bool) : List Key → Entries → Option Entries
  | [], _ => none
  | [key], entries =>
    if isOpen then
      entries.change key.1 fun
        | none => some (key.2, .value value)
        | some _ => none
    else none
  | key :: path, entries => entries.change key.1 fun
    | none => (assign value true path []).map fun inner => (key.2, .table key.2 .dotted inner)
    | some (_, .table _ .headed _) => none
    | some (extent, .table place origin inner) =>
      (assign value (origin = .dotted) path inner).map fun inner =>
        (extent, .table place origin inner)
    | some (extent, .tables place elements) =>
      (changeLast (assign value false path) elements).map fun elements =>
        (extent, .tables place elements)
    | some (_, .value _) => none

/-- Applies a change to the table of the latest header. -/
def inside (f : Entries → Option Entries) : List Key → Entries → Option Entries
  | [], entries => f entries
  | path, entries => entries.walk (fun
    | some (extent, .table place origin inner) =>
      (f inner).map fun inner => (extent, .table place origin inner)
    | some (extent, .tables place elements) =>
      (changeLast f elements).map fun elements => (extent, .tables place elements)
    | _ => none) path

end Entries

/-- One line of a document. -/
inductive Statement where
  | header (extent : Extent) (path : List Key)
  | element (extent : Extent) (path : List Key)
  | assignment (path : List Key) (value : Reading)
  deriving Repr

/-- Carries out the statements in the table of the given header. -/
def run : List Key → Entries → List Statement → Option Entries
  | _, entries, [] => some entries
  | header, entries, statement :: rest =>
    match statement with
    | .header extent path => (entries.openTable extent path).bind (run path · rest)
    | .element extent path => (entries.openElement extent path).bind (run path · rest)
    | .assignment path value =>
      (entries.inside (Entries.assign value true path) header).bind (run header · rest)

/-- The reading of a table with the given entries, which shows, and lacks what it lacks, at the
given extent.  Its entries are in the order of their keys. -/
def tableReading (extent : Extent) (entries : List (String × Extent × Reading)) : Reading :=
  .table extent (entries.mergeSort fun a b => (compare a.1 b.1).isLE) (.closed extent)

mutual

def Node.reading : Node → Reading
  | .value reading => reading
  | .table extent _ entries => tableReading extent (Node.entryReadings entries)
  | .tables extent elements => .sequence extent (Node.elementReadings elements) (.closed extent)

/-- The readings of the entries of a table. -/
def Node.entryReadings : List (String × Extent × Node) → List (String × Extent × Reading)
  | [] => []
  | (key, extent, node) :: rest => (key, extent, node.reading) :: Node.entryReadings rest

/-- The readings of the elements of an array of tables. -/
def Node.elementReadings : List (Extent × List (String × Extent × Node)) → List Reading
  | [] => []
  | (extent, entries) :: rest =>
    tableReading extent (Node.entryReadings entries) :: Node.elementReadings rest

end

/-- The reading of a document that consists of the given statements, if they can be carried out.
What the document as a whole lacks shows at the given extent. -/
def document? (extent : Extent) (statements : List Statement) : Option Reading :=
  (run [] [] statements).map fun entries => tableReading extent (Node.entryReadings entries)

end Concordance.Toml
