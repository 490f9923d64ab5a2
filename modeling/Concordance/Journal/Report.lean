/-!
# Reports

What a run tells about itself: events with a level, a message and fields, inside the spans of work
during which they happen, and the closing of a span when its work is done.
-/

namespace Concordance

/-- How much an event matters, from the most to the least. -/
inductive Level where
  | error
  | warn
  | info
  | debug
  | trace
  deriving Repr, DecidableEq

/-- The rank of a level: the less an event matters, the higher. -/
def Level.rank : Level → Nat
  | .error => 1
  | .warn => 2
  | .info => 3
  | .debug => 4
  | .trace => 5

inductive FieldValue where
  | text (value : String)
  | count (value : Nat)
  | flag (value : Bool)
  deriving Repr, DecidableEq

/-- Named values, in the order in which they are told. -/
abbrev Fields := List (String × FieldValue)

structure Span where
  name : String
  level : Level
  target : String
  fields : Fields
  deriving Repr, DecidableEq

/-- Something that happens. -/
structure Event where
  level : Level
  target : String
  message : String
  fields : Fields
  deriving Repr, DecidableEq

/-- An event, or the end of a span, inside the spans that are open around it, outermost first. -/
inductive Report where
  | event (inside : List Span) (event : Event)
  | closed (inside : List Span) (span : Span)
  deriving Repr, DecidableEq

end Concordance
