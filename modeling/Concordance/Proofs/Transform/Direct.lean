import Concordance.Proofs.Transform.Tree
import Concordance.Stylesheet.Fallback
import Concordance.Mapping.Crosswalk

/-!
# What a crosswalk makes of a document

The crosswalk carried out by itself, without a stylesheet: which records it takes, what becomes of
each of them, and what becomes of the tags inside it.
-/

namespace Concordance

open Namespace (rdfUri skosUri)
open Transform (Tree normalizeSpace)

namespace Transform

/-- Attributes set one after another: of those of one name the last is left. -/
def lastOnly : List (ExpandedName × String) → List (ExpandedName × String)
  | [] => []
  | a :: rest => if rest.any (·.1 == a.1) then lastOnly rest else a :: lastOnly rest

/-- The name of the first nested concept that has one. -/
def Tree.nestedConcept? (tag : Tree) : Option String :=
  (tag.childrenNamed ⟨skosUri, "Concept"⟩).findSome? (·.attribute? ⟨rdfUri, "about"⟩)

end Transform

namespace Rule

/-- The attributes that a rule copies from a tag, in the order in which stylesheets list them. -/
def copied (rule : Rule) (tag : Tree) : List (ExpandedName × String) :=
  rule.canonicalAttributes.filterMap fun c =>
    (tag.attribute? c.source.expanded).map fun value => (c.target.expanded, value)

/-- The attribute that a rule takes from a nested concept, unless the rule copies `rdf:resource`
and the tag has it. -/
def borrowed (rule : Rule) (tag : Tree) : Option (ExpandedName × String) :=
  if rule.fallback.isEmitted ∧
      (rule.resourceAttributes = [] ∨ tag.attribute? ⟨rdfUri, "resource"⟩ = none) then
    tag.nestedConcept?.map fun about => (⟨rdfUri, "resource"⟩, about)
  else none

/-- The text that a rule copies from a tag: its texts that are not blank, with white space
normalized, joined by single spaces. -/
def copiedText (rule : Rule) (tag : Tree) : List Tree :=
  if rule.keepsText then
    match (tag.texts.map normalizeSpace).filter (· != "") with
    | [] => []
    | texts => [.text (" ".intercalate texts)]
  else []

/-- What a child rule makes of a tag. -/
def convert (rule : Rule) (tag : Tree) : Tree :=
  .element rule.tag.target.expanded
    (Transform.lastOnly (rule.copied tag ++ (rule.borrowed tag).toList)) (rule.copiedText tag)

end Rule

namespace Crosswalk

/-- What a crosswalk makes of a record: its attributes, and for each child rule the tags of its
kind. -/
def convertRecord (crosswalk : Crosswalk) (record : Tree) : Tree :=
  .element crosswalk.parent.tag.target.expanded
    (Transform.lastOnly (crosswalk.parent.copied record))
    (crosswalk.children.flatMap fun rule =>
      (record.childrenNamed rule.tag.source.expanded).map rule.convert)

/-- What a crosswalk makes of the records in a container whose identifier is the given one. -/
def convert (crosswalk : Crosswalk) (documentId : Element) (targetId : String)
    (container : Tree) : List Tree :=
  ((container.childrenNamed crosswalk.parent.tag.source.expanded).filter fun record =>
    record.attribute? documentId.expanded == some targetId).map crosswalk.convertRecord

end Crosswalk

end Concordance
