import Concordance.Xml.Event

/-!
# Layout

Documents are laid out one event to a line, two spaces deeper inside each open element.  Text is
the exception: it follows what comes before it, and what comes next follows the text, so that no
white space is added to it.
-/

namespace Concordance.Xml

/-- How deep the next event stands, and whether it begins a line. -/
structure Layout where
  depth : Nat
  breaks : Bool

namespace Layout

def initial : Layout :=
  ⟨0, false⟩

/-- A line break with the indentation of a depth. -/
def margin (depth : Nat) : String :=
  "\n" ++ String.ofList (List.replicate (2 * depth) ' ')

/-- The depth at which an event stands. -/
def depthOf (layout : Layout) : Event → Nat
  | .finish _ => layout.depth - 1
  | _ => layout.depth

/-- An event with the white space before it. -/
def place (layout : Layout) (event : Event) : String :=
  match event with
  | .text _ => event.markup
  | _ => (if layout.breaks then margin (layout.depthOf event) else "") ++ event.markup

def after (layout : Layout) : Event → Layout
  | .start .. => ⟨layout.depth + 1, true⟩
  | .finish _ => ⟨layout.depth - 1, true⟩
  | .text _ => ⟨layout.depth, false⟩
  | _ => ⟨layout.depth, true⟩

/-- The events one after another, each with the white space before it. -/
def pieces : Layout → List Event → List String
  | _, [] => []
  | layout, event :: rest => layout.place event :: pieces (layout.after event) rest

end Layout

/-- The document of a list of events. -/
def render (events : List Event) : String :=
  String.join (Layout.initial.pieces events)

end Concordance.Xml
