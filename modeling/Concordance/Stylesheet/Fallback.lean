import Concordance.Mapping.Rule

/-!
# The fallback to nested concepts

A relationship between concepts is written in two ways: with the related concept named by the
attribute `rdf:resource` of the relationship tag, or with a `skos:Concept` nested inside the tag,
which its own `rdf:about` names.  Where a rule takes one relationship tag to another, the
stylesheet falls back to the nested concept, unless the rule itself fills `rdf:resource` from some
other attribute.
-/

namespace Concordance

def relationshipNames : List String :=
  ["related", "broader", "broaderTransitive", "narrower", "narrowerTransitive", "semanticRelation"]

/-- Whether the element is a tag that relates two concepts. -/
def Element.isRelationship (element : Element) : Bool :=
  element.space.uri == Namespace.skosUri && relationshipNames.contains element.localName

/-- Whether the element is the attribute that names the related concept. -/
def Element.isResource (element : Element) : Bool :=
  element.space.uri == Namespace.rdfUri && element.localName == "resource"

/-- What becomes of the fallback in one rule: it has no place there, it gives way to a
correspondence of the rule, or it is emitted, guarded if the rule copies `rdf:resource` itself. -/
inductive Fallback where
  | notApplicable
  | deferred (explicit : Correspondence)
  | emitted (guarded : Bool)
  deriving DecidableEq

def Fallback.isEmitted : Fallback → Bool
  | .emitted _ => true
  | _ => false

namespace Rule

/-- The correspondences that fill `rdf:resource`, in the order in which stylesheets list them. -/
def resourceAttributes (rule : Rule) : List Correspondence :=
  rule.canonicalAttributes.filter (·.target.isResource)

/-- What becomes of the fallback in the rule. -/
def fallback (rule : Rule) : Fallback :=
  if rule.tag.source.isRelationship && rule.tag.target.isRelationship then
    match rule.resourceAttributes.find? (fun c => !c.source.isResource) with
    | some explicit => .deferred explicit
    | none => .emitted (!rule.resourceAttributes.isEmpty)
  else .notApplicable

end Rule

end Concordance
