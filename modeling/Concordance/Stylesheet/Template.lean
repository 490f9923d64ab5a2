import Concordance.Stylesheet.Declarations
import Concordance.Xml.Markup

/-!
# The stylesheet of a crosswalk

The stylesheet has one template, for the record container.  Inside it each record of the parent
tag whose identifier is the one asked for becomes an element of the target vocabulary.  There, each
attribute correspondence copies an attribute, and each child rule goes through the child tags of
its kind and makes an element of each, with its attributes, the fallback to a nested concept, and
its text.
-/

namespace Concordance

open Xml (Markup)

/-- A stylesheet in the making: the crosswalk with its record identifier, the declared namespaces,
and the written name of the record container. -/
structure Template where
  crosswalk : Crosswalk
  documentId : Element
  declared : Declarations
  container : String

namespace Template

/-- A name of the stylesheet language as the stylesheet writes it. -/
def xsl (template : Template) (localName : String) : String :=
  template.declared.qualified Namespace.xsl localName

/-- The copy of one attribute, under its target name. -/
def attributeBlock (template : Template) (c : Correspondence) : List Markup :=
  let source := "@" ++ c.source.qualifiedName
  [.comment (" Attribute mapping: " ++ c.shown ++ " "),
    .element (template.xsl "if") [("test", source)] [
      .element (template.xsl "attribute") [("name", c.target.qualifiedName)] [
        .empty (template.xsl "value-of") [("select", source)]]]]

/-- The copies of the attributes of a rule. -/
def attributeBlocks (template : Template) (rule : Rule) : List Markup :=
  rule.canonicalAttributes.flatMap template.attributeBlock

/-- The copy of the name of a nested concept; when guarded, only for a tag without one of its
own. -/
def fallbackBlock (template : Template) (guarded : Bool) : List Markup :=
  let resource := template.declared.qualified Namespace.rdf "resource"
  let about := template.declared.qualified Namespace.rdf "about"
  let concept := template.declared.qualified Namespace.skos "Concept"
  let selector := "./" ++ concept ++ "[@" ++ about ++ "]"
  let test := if guarded then "not (@" ++ resource ++ ") and " ++ selector else selector
  [.comment " Certain skos relations may be defined in a skos:Concept sub-tag. ",
    .element (template.xsl "if") [("test", test)] [
      .element (template.xsl "attribute") [("name", resource)] [
        .empty (template.xsl "value-of") [("select", "(" ++ selector ++ ")[1]/@" ++ about)]]]]

/-- The copy of the text of a tag: its text nodes that are not blank, with white space normalised,
joined by single spaces. -/
def textBlock (template : Template) : List Markup :=
  [.comment " Text content mapping (only content with non-space characters) ",
    .element (template.xsl "for-each") [("select", "text()[normalize-space()]")] [
      .element (template.xsl "if") [("test", "position() > 1")] [
        .element (template.xsl "text") [] [.text " "]],
      .empty (template.xsl "value-of") [("select", "normalize-space(.)")]]]

/-- What a child rule makes of the tags of its kind. -/
def childBlock (template : Template) (rule : Rule) : List Markup :=
  let fallback :=
    match rule.fallback with
    | .emitted guarded => template.fallbackBlock guarded
    | _ => []
  let text := if rule.keepsText then template.textBlock else []
  [.comment (" Tag mapping: " ++ rule.tag.shown ++ " "),
    .element (template.xsl "for-each") [("select", "./" ++ rule.tag.source.qualifiedName)] [
      .element rule.tag.target.qualifiedName []
        (template.attributeBlocks rule ++ fallback ++ text)]]

/-- What the parent rule makes of the record that is asked for. -/
def parentBlock (template : Template) : List Markup :=
  let rule := template.crosswalk.parent
  [.comment (" Parent mapping: " ++ rule.tag.shown ++ " "),
    .element (template.xsl "for-each") [("select", "./" ++ rule.tag.source.qualifiedName)] [
      .element (template.xsl "if")
          [("test", "@" ++ template.documentId.qualifiedName ++ "=$targetId")] [
        .element rule.tag.target.qualifiedName []
          (template.attributeBlocks rule ++
            template.crosswalk.children.flatMap template.childBlock)]]]

def root (template : Template) : Markup :=
  .element (template.xsl "stylesheet")
    (("version", "1.0") ::
      template.declared.toList.map fun space => ("xmlns:" ++ space.label, space.uri)) [
    .empty (template.xsl "param") [("name", "targetId"), ("select", "")],
    .empty (template.xsl "output") [("indent", "yes"), ("encoding", "UTF-8")],
    .element (template.xsl "template") [("match", "/" ++ template.container)]
      template.parentBlock]

end Template

namespace Crosswalk

/-- The template of a crosswalk, once its names are known to fit its declarations. -/
def template (crosswalk : Crosswalk) (container : Option Element) :
    Except StylesheetError Template := do
  match crosswalk.documentId with
  | none => .error (.unidentified crosswalk.parent.tag.shown)
  | some documentId =>
    let declared := crosswalk.declarations container
    declared.check (crosswalk.elements ++ container.toList)
    let name :=
      match container with
      | some element => element.qualifiedName
      | none => declared.qualified Namespace.rdf "RDF"
    pure ⟨crosswalk, documentId, declared, name⟩

/-- The stylesheet of a crosswalk.  Nothing is written for one that has none. -/
def stylesheet (crosswalk : Crosswalk) (container : Option Element) :
    Except StylesheetError String :=
  (crosswalk.template container).map fun template => template.root.document

end Crosswalk

end Concordance
