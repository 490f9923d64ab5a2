import Concordance.Proofs.Stylesheet.Acceptance
import Concordance.Proofs.Xml.Tidy

/-!
# What a stylesheet says when it is read

The tree that is read from a stylesheet, set out from the crosswalk alone.  Only the names of the
stylesheet language, of RDF and of SKOS take their prefixes from the declarations; all other names
are written as the crosswalk writes them.  White space of the layout apart, reading the bytes of a
stylesheet gives this tree.
-/

namespace Concordance

open Namespace (xslUri rdfUri skosUri)
open Xml (Markup Node Attributes IsName IsTag commentBody)

/-! ## The outline of a stylesheet -/

namespace Outline

/-- An element of the stylesheet language. -/
def xsl (declared : Declarations) (localName : String) (attributes : Attributes)
    (content : List Node) : Node :=
  .element (declared.nameOf ⟨xslUri, localName⟩) attributes content

/-- A comment, made fit to be one. -/
def remark (text : String) : Node :=
  .comment (commentBody text)

/-- An attribute that takes the selected value if the test holds. -/
def filled (declared : Declarations) (test name select : String) : Node :=
  xsl declared "if" [("test", test)] [
    xsl declared "attribute" [("name", name)] [xsl declared "value-of" [("select", select)] []]]

/-- The copies of the attributes of a rule, in the order in which stylesheets list them. -/
def copies (declared : Declarations) (rule : Rule) : List Node :=
  rule.canonicalAttributes.flatMap fun c =>
    [remark (" Attribute mapping: " ++ c.shown ++ " "),
      filled declared ("@" ++ c.source.qualifiedName) c.target.qualifiedName
        ("@" ++ c.source.qualifiedName)]

/-- The path of the nested concepts that are named. -/
def concepts (declared : Declarations) : String :=
  "./" ++ declared.nameOf ⟨skosUri, "Concept"⟩ ++ "[@" ++ declared.nameOf ⟨rdfUri, "about"⟩ ++ "]"

/-- The fallback to a nested concept, where the rule has one. -/
def fallback (declared : Declarations) (rule : Rule) : List Node :=
  if rule.fallback.isEmitted then
    let resource := declared.nameOf ⟨rdfUri, "resource"⟩
    let guard := if rule.resourceAttributes = [] then "" else "not (@" ++ resource ++ ") and "
    [remark " Certain skos relations may be defined in a skos:Concept sub-tag. ",
      filled declared (guard ++ concepts declared) resource
        ("(" ++ concepts declared ++ ")[1]/@" ++ declared.nameOf ⟨rdfUri, "about"⟩)]
  else []

/-- The copy of the text of a tag, where the rule keeps it. -/
def texts (declared : Declarations) (rule : Rule) : List Node :=
  if rule.keepsText then
    [remark " Text content mapping (only content with non-space characters) ",
      xsl declared "for-each" [("select", "text()[normalize-space()]")] [
        xsl declared "if" [("test", "position() > 1")] [xsl declared "text" [] [.text " "]],
        xsl declared "value-of" [("select", "normalize-space(.)")] []]]
  else []

/-- What a child rule makes of the tags of its kind. -/
def child (declared : Declarations) (rule : Rule) : List Node :=
  [remark (" Tag mapping: " ++ rule.tag.shown ++ " "),
    xsl declared "for-each" [("select", "./" ++ rule.tag.source.qualifiedName)] [
      .element rule.tag.target.qualifiedName []
        (copies declared rule ++ fallback declared rule ++ texts declared rule)]]

end Outline

/-- The tree of the stylesheet of a crosswalk whose records have the given identifier. -/
def Crosswalk.outline (crosswalk : Crosswalk) (container : Option Element)
    (documentId : Element) : Node :=
  let declared := crosswalk.declarations container
  let record := crosswalk.parent.tag
  let containerName :=
    container.elim (declared.nameOf ⟨rdfUri, "RDF"⟩) Element.qualifiedName
  Outline.xsl declared "stylesheet"
    (("version", "1.0") ::
      declared.toList.map fun space => ("xmlns:" ++ space.label, space.uri)) [
    Outline.xsl declared "param" [("name", "targetId"), ("select", "")] [],
    Outline.xsl declared "output" [("indent", "yes"), ("encoding", "UTF-8")] [],
    Outline.xsl declared "template" [("match", "/" ++ containerName)] [
      Outline.remark (" Parent mapping: " ++ record.shown ++ " "),
      Outline.xsl declared "for-each" [("select", "./" ++ record.source.qualifiedName)] [
        Outline.xsl declared "if" [("test", "@" ++ documentId.qualifiedName ++ "=$targetId")] [
          .element record.target.qualifiedName []
            (Outline.copies declared crosswalk.parent ++
              crosswalk.children.flatMap (Outline.child declared))]]]]

namespace Template

variable {template : Template}

/-! ## Stylesheets can be read back -/

theorem isName_xsl (template : Template) {localName : String} (h : isNCName localName = true) :
    IsName (template.xsl localName) :=
  template.declared.isName_qualified Namespace.xsl h

theorem isTag_xsl (template : Template) {localName key : String}
    (h : isNCName localName = true) (hkey : isNCName key = true) (value : String) :
    IsTag (template.xsl localName) [(key, value)] :=
  Xml.isTag_singleton (template.isName_xsl h) (isName_of_isNCName hkey) value

theorem standing_filled (template : Template) (test name select : String) :
    (Markup.element (template.xsl "if") [("test", test)] [
      .element (template.xsl "attribute") [("name", name)] [
        .empty (template.xsl "value-of") [("select", select)]]]).Standing := by
  refine Markup.standing_element (isTag_xsl template (by decide) (by decide) test) ?_
  refine List.forall_mem_singleton.2 (Markup.standing_element ?_ ?_)
  · exact isTag_xsl template (by decide) (by decide) name
  · refine List.forall_mem_singleton.2 (Markup.standing_empty ?_)
    exact isTag_xsl template (by decide) (by decide) select

theorem standing_attributeBlocks (template : Template) (rule : Rule) :
    ∀ item ∈ template.attributeBlocks rule, item.Standing := by
  intro item hitem
  obtain ⟨c, -, hitem⟩ := List.mem_flatMap.1 hitem
  rw [attributeBlock, List.mem_pair] at hitem
  rcases hitem with rfl | rfl
  · exact Markup.standing_comment _
  · exact standing_filled template _ _ _

theorem standing_fallbackBlock (template : Template) (guarded : Bool) :
    ∀ item ∈ template.fallbackBlock guarded, item.Standing := by
  intro item hitem
  rw [fallbackBlock, List.mem_pair] at hitem
  rcases hitem with rfl | rfl
  · exact Markup.standing_comment _
  · exact standing_filled template _ _ _

theorem standing_textBlock (template : Template) :
    ∀ item ∈ template.textBlock, item.Standing := by
  intro item hitem
  rw [textBlock, List.mem_pair] at hitem
  rcases hitem with rfl | rfl
  · exact Markup.standing_comment _
  · refine Markup.standing_element (isTag_xsl template (by decide) (by decide) _) ?_
    intro item hitem
    rcases List.mem_pair.1 hitem with rfl | rfl
    · refine Markup.standing_element (isTag_xsl template (by decide) (by decide) _) ?_
      refine List.forall_mem_singleton.2 (Markup.standing_element_text ?_ (by decide))
      exact Xml.isTag_nil (isName_xsl template (by decide))
    · exact Markup.standing_empty (isTag_xsl template (by decide) (by decide) _)

theorem standing_childBlock (template : Template) (rule : Rule) :
    ∀ item ∈ template.childBlock rule, item.Standing := by
  intro item hitem
  rw [childBlock, List.mem_pair] at hitem
  rcases hitem with rfl | rfl
  · exact Markup.standing_comment _
  · refine Markup.standing_element (isTag_xsl template (by decide) (by decide) _) ?_
    refine List.forall_mem_singleton.2 (Markup.standing_element ?_ ?_)
    · exact Xml.isTag_nil rule.tag.target.isName_qualifiedName
    · intro item hitem
      rcases List.mem_append.1 hitem with hitem | hitem
      · rcases List.mem_append.1 hitem with hitem | hitem
        · exact standing_attributeBlocks template rule item hitem
        · split at hitem
          next guarded _ => exact standing_fallbackBlock template guarded item hitem
          next => cases hitem
      · split at hitem
        · exact standing_textBlock template item hitem
        · cases hitem

theorem standing_parentBlock (template : Template) :
    ∀ item ∈ template.parentBlock, item.Standing := by
  intro item hitem
  rw [parentBlock, List.mem_pair] at hitem
  rcases hitem with rfl | rfl
  · exact Markup.standing_comment _
  · refine Markup.standing_element (isTag_xsl template (by decide) (by decide) _) ?_
    refine List.forall_mem_singleton.2 (Markup.standing_element ?_ ?_)
    · exact isTag_xsl template (by decide) (by decide) _
    · refine List.forall_mem_singleton.2 (Markup.standing_element ?_ ?_)
      · exact Xml.isTag_nil template.crosswalk.parent.tag.target.isName_qualifiedName
      · intro item hitem
        rcases List.mem_append.1 hitem with hitem | hitem
        · exact standing_attributeBlocks template _ item hitem
        · obtain ⟨rule, -, hitem⟩ := List.mem_flatMap.1 hitem
          exact standing_childBlock template rule item hitem

theorem isTag_root {template : Template}
    (hlabels : template.declared.toList.Pairwise fun a b => a.label ≠ b.label) :
    IsTag (template.xsl "stylesheet") (("version", "1.0") ::
      template.declared.toList.map fun space => ("xmlns:" ++ space.label, space.uri)) := by
  refine ⟨isName_xsl template (by decide), ?_, ?_⟩
  · refine List.forall_mem_cons.2 ⟨isName_of_isNCName (by decide), ?_⟩
    intro a ha
    obtain ⟨space, -, rfl⟩ := List.mem_map.1 ha
    exact isName_append_colon (by decide : isNCName "xmlns" = true) space.label_isName
  · rw [List.map_cons, List.map_map, List.nodup_cons]
    constructor
    · -- the two names differ in their first character
      intro hversion
      obtain ⟨space, -, hspace⟩ := List.mem_map.1 hversion
      have hhead := congrArg (fun name => name.toList.head?) hspace
      simp at hhead
    · rw [List.Nodup, List.pairwise_map]
      refine hlabels.imp fun {a b} hne heq => hne ?_
      exact (String.append_right_inj _).1 heq

theorem readable_root {template : Template}
    (hlabels : template.declared.toList.Pairwise fun a b => a.label ≠ b.label) :
    template.root.Readable := by
  refine (Markup.standing_element (isTag_root hlabels) ?_).1
  intro item hitem
  simp only [List.mem_cons, List.not_mem_nil, or_false] at hitem
  rcases hitem with rfl | rfl | rfl
  · refine Markup.standing_empty (Xml.isTag_pair (isName_xsl template (by decide)) ?_ ?_ ?_ _ _)
    · exact isName_of_isNCName (by decide)
    · exact isName_of_isNCName (by decide)
    · decide
  · refine Markup.standing_empty (Xml.isTag_pair (isName_xsl template (by decide)) ?_ ?_ ?_ _ _)
    · exact isName_of_isNCName (by decide)
    · exact isName_of_isNCName (by decide)
    · decide
  · refine Markup.standing_element (isTag_xsl template (by decide) (by decide) _) ?_
    exact standing_parentBlock template

/-! ## The tree of a stylesheet -/

theorem xsl_eq (hxsl : (template.declared.byUri? xslUri).isSome) (localName : String) :
    template.xsl localName = template.declared.nameOf ⟨xslUri, localName⟩ :=
  Declarations.qualified_eq_nameOf hxsl localName

theorem tidiedAll_filled (hxsl : (template.declared.byUri? xslUri).isSome)
    (remark test name select : String) :
    Markup.tidiedAll [.comment remark,
      .element (template.xsl "if") [("test", test)] [
        .element (template.xsl "attribute") [("name", name)] [
          .empty (template.xsl "value-of") [("select", select)]]]] =
      [Outline.remark remark, Outline.filled template.declared test name select] := by
  rw [xsl_eq hxsl, xsl_eq hxsl, xsl_eq hxsl]
  rfl

theorem tidiedAll_attributeBlocks (hxsl : (template.declared.byUri? xslUri).isSome)
    (rule : Rule) :
    Markup.tidiedAll (template.attributeBlocks rule) = Outline.copies template.declared rule := by
  rw [attributeBlocks, Markup.tidiedAll_flatMap, Outline.copies]
  congr 1
  funext c
  exact tidiedAll_filled hxsl _ _ _ _

theorem tidiedAll_fallbackBlock (hxsl : (template.declared.byUri? xslUri).isSome)
    (hrdf : (template.declared.byUri? rdfUri).isSome)
    (hskos : (template.declared.byUri? skosUri).isSome) {rule : Rule} {guarded : Bool}
    (hfallback : rule.fallback = .emitted guarded) :
    Markup.tidiedAll (template.fallbackBlock guarded) =
      Outline.fallback template.declared rule := by
  have hguarded := Rule.guarded_eq hfallback
  have hname (localName : String) :
      template.declared.qualified Namespace.rdf localName =
        template.declared.nameOf ⟨rdfUri, localName⟩ :=
    Declarations.qualified_eq_nameOf hrdf localName
  have hconcept : template.declared.qualified Namespace.skos "Concept" =
      template.declared.nameOf ⟨skosUri, "Concept"⟩ :=
    Declarations.qualified_eq_nameOf hskos "Concept"
  rw [fallbackBlock, tidiedAll_filled hxsl, Outline.fallback, hfallback, hname, hname, hconcept]
  simp only [Fallback.isEmitted, if_true, Outline.concepts, hguarded]
  cases rule.resourceAttributes with
  | nil => simp
  | cons first rest => simp

theorem tidiedAll_textBlock (hxsl : (template.declared.byUri? xslUri).isSome) {rule : Rule}
    (htext : rule.keepsText = true) :
    Markup.tidiedAll template.textBlock = Outline.texts template.declared rule := by
  rw [Outline.texts, if_pos htext, textBlock]
  simp only [xsl_eq hxsl]
  rfl

theorem tidiedAll_childBlock {crosswalk : Crosswalk} {container : Option Element}
    (hdeclared : template.declared = crosswalk.declarations container) {rule : Rule}
    (hrule : rule ∈ crosswalk.children) :
    Markup.tidiedAll (template.childBlock rule) = Outline.child template.declared rule := by
  have hxsl : (template.declared.byUri? xslUri).isSome := by
    rw [hdeclared]
    exact crosswalk.byUri?_xslUri_isSome container
  have hemitted : ∀ guarded, rule.fallback = .emitted guarded →
      Markup.tidiedAll (template.fallbackBlock guarded) =
        Outline.fallback template.declared rule := by
    intro guarded h
    refine tidiedAll_fallbackBlock hxsl ?_ ?_ h
    · rw [hdeclared]
      exact Crosswalk.byUri?_rdfUri_isSome (Or.inr (Crosswalk.fallsBack_of_mem hrule h))
    · rw [hdeclared]
      exact Crosswalk.byUri?_skosUri_isSome hrule h
  have hnone : (∀ guarded, rule.fallback ≠ .emitted guarded) →
      Outline.fallback template.declared rule = [] := by
    intro h
    rw [Outline.fallback, if_neg (Fallback.not_isEmitted h)]
  have htext : Markup.tidiedAll (if rule.keepsText then template.textBlock else []) =
      Outline.texts template.declared rule := by
    by_cases h : rule.keepsText = true
    · rw [if_pos h, tidiedAll_textBlock hxsl h]
    · rw [if_neg h, Outline.texts, if_neg h]
      rfl
  rw [childBlock, Outline.child, xsl_eq hxsl]
  simp only [Markup.tidiedAll, Markup.tidied, Markup.tidiedAll_append, htext,
    tidiedAll_attributeBlocks hxsl]
  split
  next guarded h =>
    rw [hemitted guarded h]
    rfl
  next h =>
    rw [hnone h]
    rfl

end Template

namespace Crosswalk

theorem containerName_eq (crosswalk : Crosswalk) (container : Option Element) :
    crosswalk.containerName container =
      container.elim ((crosswalk.declarations container).nameOf ⟨rdfUri, "RDF"⟩)
        Element.qualifiedName := by
  cases container with
  | none => exact Declarations.qualified_eq_nameOf (byUri?_rdfUri_isSome (Or.inl rfl)) "RDF"
  | some element => rfl

/-- The tree of the template is the outline: every prefix that the outline looks up is declared. -/
theorem tidied_root (crosswalk : Crosswalk) (container : Option Element) (documentId : Element) :
    (crosswalk.checkedTemplate container documentId).root.tidied =
      crosswalk.outline container documentId := by
  -- lookups are rewritten in a template that cannot unfold
  generalize htemplate : crosswalk.checkedTemplate container documentId = template
  have hdeclared : template.declared = crosswalk.declarations container := by rw [← htemplate]; rfl
  have hcrosswalk : template.crosswalk = crosswalk := by rw [← htemplate]; rfl
  have hdocumentId : template.documentId = documentId := by rw [← htemplate]; rfl
  have hxsl : (template.declared.byUri? xslUri).isSome := by
    rw [hdeclared]
    exact crosswalk.byUri?_xslUri_isSome container
  have hcontainer : template.container =
      container.elim (template.declared.nameOf ⟨rdfUri, "RDF"⟩) Element.qualifiedName := by
    rw [hdeclared, ← htemplate]
    exact crosswalk.containerName_eq container
  have hchildren : Markup.tidiedAll (crosswalk.children.flatMap template.childBlock) =
      crosswalk.children.flatMap (Outline.child template.declared) := by
    rw [Markup.tidiedAll_flatMap]
    refine List.flatMap_congr fun rule hrule => ?_
    exact Template.tidiedAll_childBlock hdeclared hrule
  rw [Template.root, Template.parentBlock, outline, hcrosswalk, hdocumentId, hcontainer,
    ← hdeclared]
  simp only [Markup.tidied, Markup.tidiedAll, Markup.tidiedAll_append, Template.xsl_eq hxsl,
    Template.tidiedAll_attributeBlocks hxsl, hchildren]
  rfl

/-- What is known of a stylesheet: its crosswalk identifies its records and passed the checks, and
its bytes are read as a tree that is the outline but for white space of the layout. -/
structure ReadsAs (crosswalk : Crosswalk) (container : Option Element) (documentId : Element)
    (text : String) (root : Node) : Prop where
  documentId_eq : crosswalk.documentId = some documentId
  check_eq : (crosswalk.declarations container).check
    (crosswalk.elements ++ container.toList) = .ok ()
  ofBytes?_eq : Xml.ofBytes? text.toUTF8 = some root
  root_eq : root = (crosswalk.checkedTemplate container documentId).root.node 0
  tidy_eq : root.tidy = crosswalk.outline container documentId

theorem exists_readsAs {crosswalk : Crosswalk} {container : Option Element} {text : String}
    (h : crosswalk.stylesheet container = .ok text) :
    ∃ documentId root, crosswalk.ReadsAs container documentId text root := by
  rw [stylesheet, map_eq_ok_iff] at h
  obtain ⟨template, htemplate, rfl⟩ := h
  obtain ⟨documentId, hid, hcheck, rfl⟩ := template_eq_ok_iff.1 htemplate
  have hlabels := ((Declarations.check_eq_ok_iff _ _).1 hcheck).1.2
  have hreadable : (crosswalk.checkedTemplate container documentId).root.Readable :=
    Template.readable_root hlabels
  have htidy : ((crosswalk.checkedTemplate container documentId).root.node 0).tidy =
      crosswalk.outline container documentId := by
    rw [Markup.tidy_node, tidied_root]
  exact ⟨documentId, _, hid, hcheck, Xml.Markup.ofBytes?_toUTF8_document hreadable, rfl, htidy⟩

/-- A crosswalk of concepts with their relations. -/
def concepts : Crosswalk where
  parent := {
    tag := ⟨⟨Namespace.skos, "Concept", by decide⟩, ⟨Namespace.rdf, "Description", by decide⟩⟩
    attributes :=
      Ascending.empty.insertNew
        ⟨⟨Namespace.rdf, "about", by decide⟩, ⟨Namespace.rdf, "about", by decide⟩⟩
    keepsText := false }
  children := [{
    tag := ⟨⟨Namespace.skos, "related", by decide⟩, ⟨Namespace.skos, "broader", by decide⟩⟩
    attributes := .empty
    keepsText := true }]
  documentId := some ⟨Namespace.rdf, "about", by decide⟩

theorem exists_stylesheet_concepts : ∃ text, concepts.stylesheet none = .ok text := by
  have hcheck : (concepts.declarations none).check (concepts.elements ++ []) = .ok () := by
    refine (check_declarations_eq_ok_iff concepts none).2 ⟨?_, ?_, ?_, ?_⟩
    · decide
    · decide
    · decide
    · decide
  have htemplate := template_eq_ok_iff.2 ⟨_, rfl, hcheck, rfl⟩
  exact ⟨_, map_eq_ok_iff.2 ⟨_, htemplate, rfl⟩⟩

/-- Reading the bytes of a stylesheet gives its outline, and nothing else but white space of the
layout. -/
theorem stylesheet_reads_as_outline {crosswalk : Crosswalk} {container : Option Element}
    {text : String} (h : crosswalk.stylesheet container = .ok text) :
    ∃ documentId root, crosswalk.documentId = some documentId ∧
      Xml.ofBytes? text.toUTF8 = some root ∧
        root.tidy = crosswalk.outline container documentId := by
  obtain ⟨documentId, root, hreads⟩ := exists_readsAs h
  exact ⟨documentId, root, hreads.documentId_eq, hreads.ofBytes?_eq, hreads.tidy_eq⟩

theorem concepts_reads_as_outline :
    ∃ text, concepts.stylesheet none = .ok text ∧
      ∃ documentId root, concepts.documentId = some documentId ∧
        Xml.ofBytes? text.toUTF8 = some root ∧
          root.tidy = concepts.outline none documentId := by
  obtain ⟨text, h⟩ := exists_stylesheet_concepts
  exact ⟨text, h, stylesheet_reads_as_outline h⟩

end Crosswalk

end Concordance
