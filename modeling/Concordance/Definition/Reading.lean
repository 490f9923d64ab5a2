import Concordance.Text.Extent
import Concordance.Text.Quoted

/-!
# Readings

A notation for structured data is read into a tree that goes as far as the text makes sense.  What
does not make sense is a `broken` leaf, or a sequence or table that breaks off, so that a reader of
the tree meets every fault in the order of the text.  Each part knows where in the text a fault of
it shows.
-/

namespace Concordance

open Text (Extent)

/-- How a sequence or a table ends: in such a way that what it lacks shows at the given extent, or
not at all. -/
inductive Ending where
  | closed (extent : Extent)
  | broken
  deriving Repr, DecidableEq

/-- A value as far as it could be read, with the extent at which it shows when another kind of value
is asked for.  Each key of a table has the extent at which a fault of the key shows. -/
inductive Reading where
  | null (extent : Extent)
  | boolean (value : Bool) (extent : Extent)
  | integer (value : Int) (extent : Extent)
  | float (shown : String) (extent : Extent)
  | string (value : String) (extent : Extent)
  | sequence (extent : Extent) (items : List Reading) (ending : Ending)
  | table (extent : Extent) (entries : List (String × Extent × Reading)) (ending : Ending)
  | broken
  deriving Repr

/-- Why a text holds no value of the shape that is asked for. -/
inductive ShapeError where
  /-- The text breaks the rules of its notation. -/
  | syntactic
  /-- The text holds a value of another shape. -/
  | data (message : String) (extent : Extent)
  deriving Repr, DecidableEq

/-- What kind of value a reading holds, and where that shows; nothing for a broken one. -/
def Reading.kind? : Reading → Option (String × Extent)
  | .null extent => some ("null", extent)
  | .boolean value extent => some ("boolean `" ++ toString value ++ "`", extent)
  | .integer value extent => some ("integer `" ++ toString value ++ "`", extent)
  | .float shown extent => some ("floating point `" ++ shown ++ "`", extent)
  | .string value extent => some ("string " ++ Text.quoted value, extent)
  | .sequence extent .. => some ("sequence", extent)
  | .table extent .. => some ("map", extent)
  | .broken => none

/-- The error of a reading where something else is expected. -/
def Reading.mismatch (reading : Reading) (expected : String) : ShapeError :=
  match reading.kind? with
  | some (kind, extent) => .data ("invalid type: " ++ kind ++ ", expected " ++ expected) extent
  | none => .syntactic

end Concordance
