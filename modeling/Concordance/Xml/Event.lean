/-!
# Markup events

What an XML writer is told, one event at a time, and the markup of each event.  Attribute values
and text are given as they are meant; the five characters that markup claims are escaped on the
way out.
-/

namespace Concordance.Xml

/-- The attributes of a tag, in order, each a name with its value. -/
abbrev Attributes := List (String × String)

/-- One step of writing a document. -/
inductive Event where
  | declaration
  | start (name : String) (attributes : Attributes)
  | finish (name : String)
  | empty (name : String) (attributes : Attributes)
  | comment (body : String)
  | text (content : String)
  deriving Repr, DecidableEq

/-- The form of one character in text and in attribute values. -/
def escapeChar (c : Char) : List Char :=
  match c with
  | '<' => "&lt;".toList
  | '>' => "&gt;".toList
  | '&' => "&amp;".toList
  | '\'' => "&apos;".toList
  | '"' => "&quot;".toList
  | c => [c]

/-- The form of a text in markup. -/
def escape (content : String) : String :=
  String.ofList (content.toList.flatMap escapeChar)

/-- A name with its attributes, as both stand inside a tag. -/
def tagBody (name : String) (attributes : Attributes) : String :=
  name ++ String.join (attributes.map fun a => " " ++ a.1 ++ "=\"" ++ escape a.2 ++ "\"")

def Event.markup : Event → String
  | .declaration => "<?xml version=\"1.0\" encoding=\"UTF-8\"?>"
  | .start name attributes => "<" ++ tagBody name attributes ++ ">"
  | .finish name => "</" ++ name ++ ">"
  | .empty name attributes => "<" ++ tagBody name attributes ++ "/>"
  | .comment body => "<!--" ++ body ++ "-->"
  | .text content => escape content

end Concordance.Xml
