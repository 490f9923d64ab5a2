import Concordance.Xml.Layout
import Concordance.Xml.Scope

/-!
# Markup trees

The content of a document as a tree, and how a tree is written: each element through a scope, so
that a written tree always has matching tags.
-/

namespace Concordance.Xml

/-- An item of the content of a document. -/
inductive Markup where
  | element (name : String) (attributes : Attributes) (content : List Markup)
  | empty (name : String) (attributes : Attributes)
  | comment (body : String)
  | text (content : String)

namespace Markup

mutual

def write {ε : Type} : Markup → Scoped ε Unit
  | .element name attributes content => Scoped.element name attributes (writeAll content)
  | .empty name attributes => Scoped.empty name attributes
  | .comment body => Scoped.comment body
  | .text content => Scoped.text content

def writeAll {ε : Type} : List Markup → Scoped ε Unit
  | [] => pure ()
  | item :: rest => do
    write item
    writeAll rest

end

/-- The events of a document with the given root. -/
def documentEvents (root : Markup) : List Event :=
  Scoped.written (ε := Empty) do
    Scoped.emit .declaration
    root.write

/-- The text of a document with the given root. -/
def document (root : Markup) : String :=
  render (documentEvents root)

end Markup

end Concordance.Xml
