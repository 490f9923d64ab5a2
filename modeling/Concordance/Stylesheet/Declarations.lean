import Concordance.Mapping.Crosswalk
import Concordance.Stylesheet.Error
import Concordance.Stylesheet.Fallback

/-!
# The namespaces of a stylesheet

A stylesheet declares every namespace on its root: those of the crosswalk, that of the stylesheet
language, that of RDF where a fallback needs it, and that of the record container.  The namespace
of XML is never declared.  A set of declarations can be written when no prefix is reserved or
declared twice, and it fits a list of elements when each is written with the prefix declared for
its URI.
-/

namespace Concordance

/-- Declared namespaces, one for each URI. -/
abbrev Declarations := Ascending Namespace.cmp

namespace Declarations

def withoutXml (declared : Declarations) : Declarations :=
  declared.filter (·.uri != Namespace.xmlUri)

def byUri? (declared : Declarations) (uri : String) : Option Namespace :=
  declared.toList.find? (·.uri == uri)

/-- A local name with the prefix that is declared for its namespace. -/
def qualified (declared : Declarations) (space : Namespace) (localName : String) : String :=
  ((declared.byUri? space.uri).getD space).label ++ ":" ++ localName

/-- Checks that declarations can be written: no prefix is reserved, and none is in `seen` or comes
twice. -/
def checkLabels (seen : List Namespace) : List Namespace → Except StylesheetError Unit
  | [] => .ok ()
  | space :: rest =>
    if space.label = "xml" ∨ space.label = "xmlns" then
      .error (.reservedPrefix space.label space.uri)
    else
      match seen.find? (·.label == space.label) with
      | some existing => .error (.sharedPrefix space.label existing.uri space.uri)
      | none => checkLabels (space :: seen) rest

/-- Checks that one element is written with the prefix that is declared for its URI. -/
def checkElement (declared : Declarations) (element : Element) : Except StylesheetError Unit :=
  if element.space.uri = Namespace.xmlUri then
    if element.space.label = "xml" then .ok ()
    else .error (.foreignXmlPrefix element.qualifiedName)
  else
    match declared.byUri? element.space.uri with
    | some bound =>
      if bound.label = element.space.label then .ok ()
      else .error (.splitNamespace element.space.uri bound.label element.space.label)
    | none => .ok ()

/-- Checks that the declarations can be written and fit the elements, in that order. -/
def check (declared : Declarations) (elements : List Element) : Except StylesheetError Unit := do
  checkLabels [] declared.toList
  elements.forM declared.checkElement

end Declarations

namespace Crosswalk

/-- The namespaces that the crosswalk itself needs.  Of two elements of one URI the later gives the
prefix; the namespaces that fallbacks and the stylesheet language need do not replace any. -/
def namespaces (crosswalk : Crosswalk) : Declarations :=
  let used : Declarations :=
    crosswalk.elements.foldl (fun set element => set.insertOver element.space) .empty
  let needed : Declarations :=
    if crosswalk.children.any (·.fallback.isEmitted) then used.insertNew Namespace.rdf else used
  Declarations.withoutXml (needed.insertNew Namespace.xsl)

/-- The namespace of the record container; the container is an RDF one unless another is given. -/
def containerSpace (container : Option Element) : Namespace :=
  match container with
  | some element => element.space
  | none => Namespace.rdf

/-- The namespaces that the stylesheet declares. -/
def declarations (crosswalk : Crosswalk) (container : Option Element) : Declarations :=
  Declarations.withoutXml (crosswalk.namespaces.insertNew (containerSpace container))

end Crosswalk

end Concordance
