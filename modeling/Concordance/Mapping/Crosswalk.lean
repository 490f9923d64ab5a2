import Concordance.Mapping.Rule
import Concordance.Name.Registry

/-!
# Crosswalks

A crosswalk takes records of one vocabulary to another.  It has a parent rule for the record
itself, child rules for the tags inside it, and the attribute that holds the identifier of a
record.  The child rules form a set that keeps the order of insertion.
-/

namespace Concordance

/-- A parent rule with its child rules and the attribute that identifies a record. -/
structure Crosswalk where
  parent : Rule
  children : List Rule
  documentId : Option Element

namespace Crosswalk

def ofParent (parent : Rule) : Crosswalk :=
  ⟨parent, [], none⟩

/-- Sets the attribute that identifies a record. -/
def withDocumentId (crosswalk : Crosswalk) (documentId : Element) : Crosswalk :=
  { crosswalk with documentId := some documentId }

/-- Appends a child rule unless one that says the same is there. -/
def withChild (crosswalk : Crosswalk) (child : Rule) : Crosswalk :=
  if crosswalk.children.any (fun other => other.expanded == child.expanded) then crosswalk
  else { crosswalk with children := crosswalk.children ++ [child] }

/-- Appends child rules one after another. -/
def withChildren (crosswalk : Crosswalk) (children : List Rule) : Crosswalk :=
  children.foldl withChild crosswalk

/-- Every element that the crosswalk names: those of the parent rule, those of each child rule,
then the record identifier. -/
def elements (crosswalk : Crosswalk) : List Element :=
  crosswalk.parent.elements ++ crosswalk.children.flatMap Rule.elements ++
    crosswalk.documentId.toList

/-- What the crosswalk says, whatever the prefixes of its names. -/
def expanded (crosswalk : Crosswalk) :=
  (crosswalk.parent.expanded, crosswalk.children.map Rule.expanded,
    crosswalk.documentId.map Element.expanded)

/-- Whether two crosswalks say the same. -/
def same (a b : Crosswalk) : Bool :=
  a.expanded == b.expanded

/-- Checks that every namespace is registered and that a record can be identified. -/
def validate (crosswalk : Crosswalk) (registry : Registry) : Except Fault Unit :=
  match crosswalk.elements.find? (fun element => !registry.contains element.space) with
  | some element => .error (.unknownNamespace element.qualifiedName element.space.uri)
  | none => if crosswalk.documentId.isNone then .error .missingDocumentId else .ok ()

end Crosswalk

end Concordance
