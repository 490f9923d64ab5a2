import Concordance.Proofs.Stylesheet.Binding
import Concordance.Proofs.Stylesheet.Steady

/-!
# Which stylesheets conform to XML

Names are checked against letter classes of Unicode and URIs only for being blank, which is less
than what XML asks for.  So whether a stylesheet has legal characters only, whether its names are
names of XML, whether it leaves the reserved URIs alone, and whether its URIs are read as they were
meant are four questions, and the answer to each lies in the declared namespaces and the target
names of the crosswalk.
-/

namespace Concordance

open Namespace (xmlUri xslUri rdfUri skosUri)
open Xml (Attributes Markup Node Steady isBreak readValue)
open Xml.Grammar (isChar isQName)

/-! ## Names in the outline -/

theorem colon_notMem_of_isNCName {name : String} (h : isNCName name = true) :
    ':' ∉ name.toList := by
  intro hmem
  have hpart := isNamePart_of_mem h hmem
  revert hpart
  decide

namespace Declarations

variable {declared : Declarations}

/-- Every declared prefix is a name of XML. -/
def LabelsConform (declared : Declarations) : Prop :=
  ∀ space ∈ declared.toList, Xml.Grammar.isNCName space.label = true

theorem isNCName_prefixOf (hlabels : declared.LabelsConform) {name : ExpandedName}
    (hbound : declared.Bound name) :
    Xml.Grammar.isNCName (declared.prefixOf name.uri) = true := by
  by_cases hxml : name.uri = xmlUri
  · rw [prefixOf, if_pos hxml]
    decide
  · obtain ⟨space, hspace⟩ := Option.isSome_iff_exists.1 (hbound hxml)
    rw [prefixOf_eq hxml hspace]
    exact hlabels space (byUri?_eq_some_iff.1 hspace).1

/-- Where the declared prefixes are names of XML, a written name is one if its local name is. -/
theorem isQName_of_stands (hlabels : declared.LabelsConform) {written : String}
    {name : ExpandedName} (h : declared.Stands written name)
    (hlocal : Xml.Grammar.isNCName name.localName = true) : isQName written = true := by
  have hcolon := colon_notMem_of_isNCName h.isNCName_prefixOf
  rw [h.written_eq, Xml.Grammar.isQName_append_colon hcolon, hlocal,
    isNCName_prefixOf hlabels h.bound]
  rfl

theorem isQName_xmlns (space : Namespace) :
    isQName ("xmlns:" ++ space.label) = Xml.Grammar.isNCName space.label := by
  have hcolon : ':' ∉ "xmlns".toList := by decide
  have hxmlns : Xml.Grammar.isNCName "xmlns" = true := by decide
  have hsplit : isQName ("xmlns" ++ ":" ++ space.label) = _ :=
    Xml.Grammar.isQName_append_colon hcolon
  rw [hxmlns, Bool.true_and] at hsplit
  exact hsplit

end Declarations

/-! ## Named items -/

namespace Outline

/-- Items in which elements and attributes have names of XML. -/
def Named (items : List Node) : Prop :=
  ∀ written ∈ Node.tagNamesAll items, isQName written = true

theorem named_nil : Named [] :=
  List.forall_mem_nil _

theorem named_append_iff {first second : List Node} :
    Named (first ++ second) ↔ Named first ∧ Named second := by
  rw [Named, Node.tagNamesAll_append, List.forall_mem_append]
  rfl

theorem named_flatMap_iff {α : Type} {f : α → List Node} {items : List α} :
    Named (items.flatMap f) ↔ ∀ a ∈ items, Named (f a) := by
  rw [Named, Node.tagNamesAll_flatMap, List.forall_mem_flatMap]
  rfl

theorem named_remark_iff {text : String} {rest : List Node} :
    Named (remark text :: rest) ↔ Named rest :=
  Iff.rfl

theorem named_element_iff {name : String} {attributes : Attributes} {content rest : List Node} :
    Named (.element name attributes content :: rest) ↔
      isQName name = true ∧ (∀ a ∈ attributes, isQName a.1 = true) ∧
        Named content ∧ Named rest := by
  rw [Named, Node.tagNamesAll, Node.tagNames, List.forall_mem_append, List.forall_mem_cons,
    List.forall_mem_append, List.forall_mem_map, and_assoc, and_assoc]
  rfl

end Outline

namespace Crosswalk

open Outline (Named named_nil named_append_iff named_flatMap_iff named_remark_iff named_element_iff)

variable {crosswalk : Crosswalk} {container : Option Element}

/-- A local name of the stylesheet language, for the crosswalk and for XML. -/
def IsWord (localName : String) : Prop :=
  isNCName localName = true ∧ Xml.Grammar.isNCName localName = true

instance (localName : String) : Decidable (IsWord localName) :=
  inferInstanceAs (Decidable (_ ∧ _))

section Labels

variable (hlabels : (crosswalk.declarations container).LabelsConform)

include hlabels

theorem isQName_xsl {localName : String} (h : IsWord localName) :
    isQName ((crosswalk.declarations container).nameOf ⟨xslUri, localName⟩) = true :=
  Declarations.isQName_of_stands hlabels (stands_xsl crosswalk container h.1) h.2

theorem named_xsl_iff {localName : String} {attributes : Attributes} {content rest : List Node}
    (hname : IsWord localName) (hkeys : ∀ a ∈ attributes, isQName a.1 = true) :
    Named (Outline.xsl (crosswalk.declarations container) localName attributes content :: rest) ↔
      Named content ∧ Named rest := by
  rw [Outline.xsl, named_element_iff]
  have hxsl := isQName_xsl hlabels hname
  constructor
  · rintro ⟨-, -, hnamed⟩
    exact hnamed
  · intro hnamed
    exact ⟨hxsl, hkeys, hnamed⟩

theorem named_keyed_iff {localName key value : String} {content rest : List Node}
    (hname : IsWord localName) (hkey : isQName key = true) :
    Named (Outline.xsl (crosswalk.declarations container) localName [(key, value)] content ::
      rest) ↔ Named content ∧ Named rest :=
  named_xsl_iff hlabels hname (List.forall_mem_singleton.2 hkey)

theorem named_filled (test name select : String) :
    Named [Outline.filled (crosswalk.declarations container) test name select] := by
  rw [Outline.filled]
  apply (named_keyed_iff hlabels (by decide) (by decide)).2
  refine ⟨(named_keyed_iff hlabels (by decide) (by decide)).2 ⟨?_, named_nil⟩, named_nil⟩
  exact (named_keyed_iff hlabels (by decide) (by decide)).2 ⟨named_nil, named_nil⟩

theorem named_copies (rule : Rule) :
    Named (Outline.copies (crosswalk.declarations container) rule) := by
  rw [Outline.copies, named_flatMap_iff]
  intro c _
  exact named_remark_iff.2 (named_filled hlabels _ _ _)

theorem named_fallback (rule : Rule) :
    Named (Outline.fallback (crosswalk.declarations container) rule) := by
  rw [Outline.fallback]
  split
  · exact named_remark_iff.2 (named_filled hlabels _ _ _)
  · exact named_nil

theorem named_texts (rule : Rule) :
    Named (Outline.texts (crosswalk.declarations container) rule) := by
  rw [Outline.texts]
  split
  · have htext : Named [Outline.xsl (crosswalk.declarations container) "text" [] [.text " "]] :=
      (named_xsl_iff hlabels (by decide) (List.forall_mem_nil _)).2 ⟨named_nil, named_nil⟩
    apply named_remark_iff.2
    apply (named_keyed_iff hlabels (by decide) (by decide)).2
    refine ⟨(named_keyed_iff hlabels (by decide) (by decide)).2 ⟨htext, ?_⟩, named_nil⟩
    exact (named_keyed_iff hlabels (by decide) (by decide)).2 ⟨named_nil, named_nil⟩
  · exact named_nil

/-- What a child rule makes has names of XML if the target of the rule has one. -/
theorem named_child_iff (rule : Rule) :
    Named (Outline.child (crosswalk.declarations container) rule) ↔
      isQName rule.tag.target.qualifiedName = true := by
  rw [Outline.child, named_remark_iff, named_keyed_iff hlabels (by decide) (by decide),
    named_element_iff, named_append_iff, named_append_iff]
  constructor
  · rintro ⟨⟨htarget, -⟩, -⟩
    exact htarget
  · intro htarget
    have hcontent := And.intro (named_copies hlabels rule) (named_fallback hlabels rule)
    exact ⟨⟨htarget, List.forall_mem_nil _, ⟨hcontent, named_texts hlabels rule⟩, named_nil⟩,
      named_nil⟩

/-- An element is written with a name of XML exactly when its local name is one. -/
theorem isQName_qualifiedName_iff
    (hcheck : (crosswalk.declarations container).check
      (crosswalk.elements ++ container.toList) = .ok ())
    {element : Element} (hmem : element ∈ crosswalk.elements ++ container.toList) :
    isQName element.qualifiedName = true ↔ Xml.Grammar.isNCName element.localName = true := by
  constructor
  · intro h
    have hcolon := colon_notMem_of_isNCName element.space.label_isName
    rw [Element.qualifiedName, Xml.Grammar.isQName_append_colon hcolon] at h
    exact (Bool.and_eq_true_iff.1 h).2
  · intro hlocal
    exact Declarations.isQName_of_stands hlabels (stands_of_mem hcheck hmem) hlocal

/-- What the root holds has names of XML if the targets of the rules have them. -/
theorem named_content_iff (documentId : Element) (pattern : String) :
    let declared := crosswalk.declarations container
    let record := crosswalk.parent.tag
    Named [
        Outline.xsl declared "param" [("name", "targetId"), ("select", "")] [],
        Outline.xsl declared "output" [("indent", "yes"), ("encoding", "UTF-8")] [],
        Outline.xsl declared "template" [("match", pattern)] [
          Outline.remark (" Parent mapping: " ++ record.shown ++ " "),
          Outline.xsl declared "for-each" [("select", "./" ++ record.source.qualifiedName)] [
            Outline.xsl declared "if" [("test", "@" ++ documentId.qualifiedName ++ "=$targetId")] [
              .element record.target.qualifiedName []
                (Outline.copies declared crosswalk.parent ++
                  crosswalk.children.flatMap (Outline.child declared))]]]] ↔
      ∀ rule ∈ crosswalk.parent :: crosswalk.children,
        isQName rule.tag.target.qualifiedName = true := by
  intro declared record
  have hrecord : Named [Node.element record.target.qualifiedName []
      (Outline.copies declared crosswalk.parent ++
        crosswalk.children.flatMap (Outline.child declared))] ↔
      ∀ rule ∈ crosswalk.parent :: crosswalk.children,
        isQName rule.tag.target.qualifiedName = true := by
    rw [named_element_iff, named_append_iff, named_flatMap_iff, List.forall_mem_cons]
    constructor
    · rintro ⟨hparent, -, ⟨-, hchildren⟩, -⟩
      refine ⟨hparent, fun rule hrule => ?_⟩
      exact (named_child_iff hlabels rule).1 (hchildren rule hrule)
    · rintro ⟨hparent, hchildren⟩
      have hcopies := named_copies hlabels crosswalk.parent
      refine ⟨hparent, List.forall_mem_nil _, ⟨hcopies, fun rule hrule => ?_⟩, named_nil⟩
      exact (named_child_iff hlabels rule).2 (hchildren rule hrule)
  rw [named_xsl_iff hlabels (by decide) (by decide), named_xsl_iff hlabels (by decide) (by decide),
    named_keyed_iff hlabels (by decide) (by decide), named_remark_iff,
    named_keyed_iff hlabels (by decide) (by decide),
    named_keyed_iff hlabels (by decide) (by decide), hrecord]
  simp only [named_nil, true_and, and_true]

end Labels

/-- The names of a stylesheet are names of XML exactly when its prefixes and the names of its
targets are; the other elements of the crosswalk only stand in values. -/
theorem named_outline_iff (documentId : Element)
    (hcheck : (crosswalk.declarations container).check
      (crosswalk.elements ++ container.toList) = .ok ()) :
    Named [crosswalk.outline container documentId] ↔
      (crosswalk.declarations container).LabelsConform ∧
        ∀ rule ∈ crosswalk.parent :: crosswalk.children,
          Xml.Grammar.isNCName rule.tag.target.localName = true := by
  have htargets (hlabels : (crosswalk.declarations container).LabelsConform) :
      (∀ rule ∈ crosswalk.parent :: crosswalk.children,
        isQName rule.tag.target.qualifiedName = true) ↔
      ∀ rule ∈ crosswalk.parent :: crosswalk.children,
        Xml.Grammar.isNCName rule.tag.target.localName = true := by
    refine forall₂_congr fun rule hrule => ?_
    have hmem : rule.tag.target ∈ crosswalk.elements ++ container.toList :=
      mem_append_of_mem_rule hrule rule.target_mem_elements
    exact isQName_qualifiedName_iff hlabels hcheck hmem
  have hversion : isQName "version" = true := by decide
  rw [outline, Outline.xsl, named_element_iff, List.forall_mem_cons, List.forall_mem_map]
  simp only [Declarations.isQName_xmlns]
  constructor
  · rintro ⟨-, ⟨-, hlabels⟩, hcontent, -⟩
    exact ⟨hlabels, (htargets hlabels).1 ((named_content_iff hlabels documentId _).1 hcontent)⟩
  · rintro ⟨hlabels, hlocals⟩
    refine ⟨isQName_xsl hlabels (by decide), ⟨hversion, hlabels⟩, ?_, named_nil⟩
    apply (named_content_iff hlabels documentId _).2
    exact (htargets hlabels).2 hlocals

end Crosswalk

/-! ## The conforming reading of a stylesheet -/

namespace Template

/-- The attributes of the root, which hold the declarations. -/
def rootAttributes (template : Template) : Attributes :=
  ("version", "1.0") ::
    template.declared.toList.map fun space => ("xmlns:" ++ space.label, space.uri)

/-- The content of the root. -/
def rootContent (template : Template) : List Markup :=
  [.empty (template.xsl "param") [("name", "targetId"), ("select", "")],
    .empty (template.xsl "output") [("indent", "yes"), ("encoding", "UTF-8")],
    .element (template.xsl "template") [("match", "/" ++ template.container)]
      template.parentBlock]

theorem root_eq (template : Template) :
    template.root =
      .element (template.xsl "stylesheet") template.rootAttributes template.rootContent := rfl

theorem steady_of_mem_rootAttributes (template : Template) :
    ∀ a ∈ template.rootAttributes, Steady a.1 := by
  refine List.forall_mem_cons.2 ⟨by decide, ?_⟩
  intro a ha
  obtain ⟨space, -, rfl⟩ := List.mem_map.1 ha
  exact Xml.steady_append.2 ⟨by decide, steady_of_isNCName space.label_isName⟩

theorem isSteadyAll_rootContent {template : Template} (h : Steady template.container) :
    Markup.IsSteadyAll template.rootContent := by
  have hparam : ∀ a ∈ [("name", "targetId"), ("select", "")], Steady a.1 ∧ Steady a.2 := by decide
  have houtput : ∀ a ∈ [("indent", "yes"), ("encoding", "UTF-8")], Steady a.1 ∧ Steady a.2 := by
    decide
  have hmatch : Steady ("/" ++ template.container) := Xml.steady_append.2 ⟨by decide, h⟩
  refine ⟨⟨template.steady_xsl (by decide), hparam⟩, ⟨template.steady_xsl (by decide), houtput⟩,
    ?_, trivial⟩
  exact template.isSteady_xsl (by decide) (by decide) hmatch template.isSteadyAll_parentBlock

theorem isChar_of_mem_rootAttributes_iff (template : Template) :
    (∀ a ∈ template.rootAttributes, ∀ c ∈ a.2.toList, isChar c = true) ↔
      ∀ space ∈ template.declared.toList, ∀ c ∈ space.uri.toList, isChar c = true := by
  have hversion : ∀ c ∈ "1.0".toList, isChar c = true := List.all_eq_true.1 rfl
  rw [rootAttributes, List.forall_mem_cons, List.forall_mem_map]
  exact and_iff_right hversion

end Template

theorem Xml.binding?_map (f : String → String) (a : String × String) :
    binding? (a.1, f a.2) = (binding? a).map fun bound => (bound.1, f bound.2) := by
  simp only [binding?]
  split
  next => rfl
  next => rfl

/-- The bindings of the root, as its values are read. -/
theorem Template.filterMap_binding?_rootAttributes (template : Template) :
    (template.rootAttributes.map fun a => (a.1, readValue a.2)).filterMap Xml.binding? =
      template.declared.toList.map fun space => (space.label, readValue space.uri) := by
  have hbindings := template.declared.filterMap_binding?
  rw [List.filterMap_map]
  simp only [Function.comp_def, Xml.binding?_map]
  rw [← List.map_filterMap, rootAttributes, hbindings, Declarations.bindings, List.map_map]
  rfl

namespace Declarations

variable {declared : Declarations}

/-- The URI that is kept for the attributes that declare namespaces. -/
def xmlnsUri : String := "http://www.w3.org/2000/xmlns/"

theorem readValue_eq_bindings_iff (declared : Declarations) :
    (declared.toList.map fun space => (space.label, readValue space.uri)) = declared.bindings ↔
      ∀ space ∈ declared.toList, ∀ c ∈ space.uri.toList, isBreak c = false := by
  rw [bindings, List.map_inj_left]
  refine forall₂_congr fun space _ => ?_
  rw [Prod.mk.injEq, Xml.readValue_eq_self_iff]
  exact and_iff_right rfl

/-- Only the reserved URIs themselves are read as reserved URIs. -/
theorem eq_of_readValue_reserved {uri : String} :
    (readValue uri = xmlUri → uri = xmlUri) ∧ (readValue uri = xmlnsUri → uri = xmlnsUri) :=
  ⟨fun h => Xml.eq_of_readValue_eq h (by decide), fun h => Xml.eq_of_readValue_eq h (by decide)⟩

/-- Under declarations without a reserved prefix and without the URI of XML, only the URI of
declarations can be bound against the rules. -/
theorem reserved_iff (hdeclared : declared.OneToOne)
    (hxml : ∀ space ∈ declared.toList, space.uri ≠ xmlUri) :
    (∀ bound ∈ declared.toList.map fun space => (space.label, readValue space.uri),
        bound.2 = xmlUri ∨ bound.2 = xmlnsUri → bound.1 = "xml" ∨ bound.1 = "xmlns") ↔
      ∀ space ∈ declared.toList, space.uri ≠ xmlnsUri := by
  have hsteady : readValue xmlnsUri = xmlnsUri := by decide
  rw [List.forall_mem_map]
  refine forall₂_congr fun space hspace => ?_
  have hfree := hdeclared.not_reserved space hspace
  constructor
  · intro h huri
    refine hfree (h (Or.inr ?_))
    rw [huri, hsteady]
  · rintro hne (hread | hread)
    · exact absurd (eq_of_readValue_reserved.1 hread) (hxml space hspace)
    · exact absurd (eq_of_readValue_reserved.2 hread) hne

end Declarations

namespace Crosswalk

variable {crosswalk : Crosswalk} {container : Option Element}

/-- Which of the rules of XML a stylesheet keeps when it is read, each told by the crosswalk. -/
structure ConformsWhere (crosswalk : Crosswalk) (container : Option Element) (text : String)
    (root : Node) : Prop where
  characters_iff : (∀ c ∈ text.toList, isChar c = true) ↔
    ∀ space ∈ (crosswalk.declarations container).toList,
      ∀ c ∈ space.uri.toList, isChar c = true
  names_iff : (∀ written ∈ root.tagNames, isQName written = true) ↔
    (crosswalk.declarations container).LabelsConform ∧
      ∀ rule ∈ crosswalk.parent :: crosswalk.children,
        Xml.Grammar.isNCName rule.tag.target.localName = true
  reserved_iff : (∀ bound ∈ root.bindings,
      bound.2 = xmlUri ∨ bound.2 = Declarations.xmlnsUri → bound.1 = "xml" ∨ bound.1 = "xmlns") ↔
    ∀ space ∈ (crosswalk.declarations container).toList, space.uri ≠ Declarations.xmlnsUri
  bindings_iff : root.bindings = (crosswalk.declarations container).bindings ↔
    ∀ space ∈ (crosswalk.declarations container).toList,
      ∀ c ∈ space.uri.toList, isBreak c = false

theorem steady_containerName (crosswalk : Crosswalk) (container : Option Element) :
    Steady (crosswalk.containerName container) := by
  cases container with
  | none => exact Declarations.steady_qualified _ _ (by decide)
  | some element => exact element.steady_qualifiedName

theorem exists_conformsWhere (documentId : Element)
    (hcheck : (crosswalk.declarations container).check
      (crosswalk.elements ++ container.toList) = .ok ()) :
    ∃ root,
      Xml.conforming?
          (crosswalk.checkedTemplate container documentId).root.document.toUTF8 = some root ∧
        crosswalk.ConformsWhere container
          (crosswalk.checkedTemplate container documentId).root.document root := by
  have houtline := crosswalk.tidied_root container documentId
  have hcontainer := crosswalk.steady_containerName container
  have hdeclared := oneToOne_of_check hcheck
  -- lookups are rewritten in a template that cannot unfold
  generalize htemplate : crosswalk.checkedTemplate container documentId = template at houtline ⊢
  have hspaces : template.declared = crosswalk.declarations container := by rw [← htemplate]; rfl
  have hsteady : Steady template.container := by rw [← htemplate]; exact hcontainer
  have hreadable : template.root.Readable := by
    apply Template.readable_root
    rw [hspaces]
    exact hdeclared.label_ne
  have hname : Steady (template.xsl "stylesheet") := template.steady_xsl (by decide)
  have hkeys := template.steady_of_mem_rootAttributes
  have hcontent := Template.isSteadyAll_rootContent hsteady
  rw [template.root_eq] at hreadable houtline ⊢
  refine ⟨_, Markup.conforming?_toUTF8_document hreadable hname hkeys hcontent, ?_⟩
  constructor
  case characters_iff =>
    rw [Markup.isChar_document_iff hname hkeys hcontent,
      template.isChar_of_mem_rootAttributes_iff, hspaces]
  case names_iff =>
    have hnames : (Node.element (template.xsl "stylesheet")
        (template.rootAttributes.map fun a => (a.1, readValue a.2))
        (Node.normalizedAll (Markup.nodes 0 true template.rootContent))).tagNames =
          (crosswalk.outline container documentId).tagNames := by
      rw [← houtline, ← Markup.tidy_node _ 0, Node.tagNames_tidy, Markup.node, Node.tagNames,
        Node.tagNames, Node.tagNamesAll_normalizedAll, List.map_map]
      rfl
    have hnamed := named_outline_iff documentId hcheck
    rw [Outline.Named, Node.tagNamesAll, Node.tagNamesAll, List.append_nil] at hnamed
    rw [hnames]
    exact hnamed
  case reserved_iff =>
    rw [Node.bindings, template.filterMap_binding?_rootAttributes, hspaces]
    exact Declarations.reserved_iff hdeclared fun space hspace => uri_ne_xmlUri_of_mem hspace
  case bindings_iff =>
    rw [Node.bindings, template.filterMap_binding?_rootAttributes, hspaces]
    exact Declarations.readValue_eq_bindings_iff _

/-- What a stylesheet keeps of the rules of XML lies in its declared namespaces and in the names of
the targets: legal characters, names, reserved URIs, and what its prefixes are read to stand
for. -/
theorem stylesheet_conforms_where {text : String} (h : crosswalk.stylesheet container = .ok text) :
    ∃ root, Xml.conforming? text.toUTF8 = some root ∧
      crosswalk.ConformsWhere container text root := by
  rw [stylesheet, map_eq_ok_iff] at h
  obtain ⟨template, htemplate, rfl⟩ := h
  obtain ⟨documentId, -, hcheck, rfl⟩ := template_eq_ok_iff.1 htemplate
  exact exists_conformsWhere documentId hcheck

theorem toList_declarations_concepts :
    (concepts.declarations none).toList = [Namespace.rdf, Namespace.xsl, Namespace.skos] := by
  decide +kernel

/-- The crosswalk of concepts has nothing that XML refuses. -/
theorem concepts_conforms :
    ∃ text, concepts.stylesheet none = .ok text ∧
      ∃ root, Xml.conforming? text.toUTF8 = some root ∧
        (∀ c ∈ text.toList, isChar c = true) ∧
        (∀ written ∈ root.tagNames, isQName written = true) ∧
        (∀ bound ∈ root.bindings,
          bound.2 = xmlUri ∨ bound.2 = Declarations.xmlnsUri →
            bound.1 = "xml" ∨ bound.1 = "xmlns") ∧
        root.bindings = (concepts.declarations none).bindings := by
  obtain ⟨text, h⟩ := exists_stylesheet_concepts
  obtain ⟨root, hroot, hconforms⟩ := stylesheet_conforms_where h
  obtain ⟨hcharacters, hnames, hreserved, hbindings⟩ := hconforms
  rw [Declarations.LabelsConform] at hnames
  rw [toList_declarations_concepts] at hcharacters hnames hreserved hbindings
  have hlegal : ∀ space ∈ [Namespace.rdf, Namespace.xsl, Namespace.skos],
      space.uri.toList.all isChar = true := by decide
  have hread : ∀ space ∈ [Namespace.rdf, Namespace.xsl, Namespace.skos],
      readValue space.uri = space.uri := by decide
  refine ⟨text, h, root, hroot, ?_, ?_, ?_, ?_⟩
  · exact hcharacters.2 fun space hspace => List.all_eq_true.1 (hlegal space hspace)
  · exact hnames.2 (by decide)
  · exact hreserved.2 (by decide)
  · exact hbindings.2 fun space hspace => Xml.readValue_eq_self_iff.1 (hread space hspace)

/-- The crosswalk that makes one element of each description and nothing in it. -/
def ofTarget (target : Element) : Crosswalk where
  parent := {
    tag := ⟨concepts.parent.tag.target, target⟩
    attributes := .empty
    keepsText := false }
  children := []
  documentId := concepts.documentId

theorem space_mem_declarations_ofTarget (target : Element) (hxml : target.space.uri ≠ xmlUri)
    (hrdf : target.space.uri ≠ rdfUri) :
    target.space ∈ ((ofTarget target).declarations none).toList := by
  have hlast : lastSpace? (ofTarget target).elements target.space.uri = some target.space := by
    have hne : (Namespace.rdf.uri == target.space.uri) = false := beq_false_of_ne (Ne.symm hrdf)
    simp [lastSpace?, ofTarget, concepts, elements, Rule.elements, Correspondence.elements, hne,
      Ascending.empty]
  have hspace :
      ((ofTarget target).declarations none).byUri? target.space.uri = some target.space := by
    rw [byUri?_declarations, if_neg hxml, hlast]
    rfl
  exact (Declarations.byUri?_eq_some_iff.1 hspace).1

/-- The stylesheet of the crosswalk of a target, and the tree that is read from it. -/
structure Yields (target : Element) (text : String) (root : Node) : Prop where
  stylesheet_eq : (ofTarget target).stylesheet none = .ok text
  conforming?_eq : Xml.conforming? text.toUTF8 = some root

theorem exists_yields (target : Element)
    (h : ((ofTarget target).stylesheet none).isOk = true) :
    ∃ text root, Yields target text root ∧ (ofTarget target).ConformsWhere none text root := by
  obtain ⟨text, hstylesheet⟩ := exists_eq_ok_of_isOk h
  have htext := hstylesheet
  rw [stylesheet, map_eq_ok_iff] at htext
  obtain ⟨template, htemplate, rfl⟩ := htext
  obtain ⟨documentId, -, hcheck, rfl⟩ := template_eq_ok_iff.1 htemplate
  obtain ⟨root, hroot, hconforms⟩ := exists_conformsWhere documentId hcheck
  exact ⟨_, root, ⟨hstylesheet, hroot⟩, hconforms⟩

/-- A target named by an ordinal sign, which is a letter of Unicode and in no name of XML. -/
def ordinal : Element :=
  ⟨⟨"ex", "http://example.org/", by decide, by decide⟩, "ª", by decide +kernel⟩

/-- A target in a namespace with a control character. -/
def controlled : Element :=
  ⟨⟨"ex", "http://example.org/\x01", by decide, by decide⟩, "Entry", by decide⟩

/-- A target in the namespace that is kept for declarations. -/
def declaring : Element :=
  ⟨⟨"ex", Declarations.xmlnsUri, by decide, by decide⟩, "Entry", by decide⟩

/-- A target in a namespace with a line end. -/
def broken : Element :=
  ⟨⟨"ex", "http://example.org/\n", by decide, by decide⟩, "Entry", by decide⟩

/-- Each of the rules is broken by the stylesheet of some crosswalk. -/
theorem targets_not_conforming :
    (∃ text root, Yields ordinal text root ∧
      ¬∀ written ∈ root.tagNames, isQName written = true) ∧
    (∃ text root, Yields controlled text root ∧ ¬∀ c ∈ text.toList, isChar c = true) ∧
    (∃ text root, Yields declaring text root ∧
      ¬∀ bound ∈ root.bindings, bound.2 = xmlUri ∨ bound.2 = Declarations.xmlnsUri →
        bound.1 = "xml" ∨ bound.1 = "xmlns") ∧
    (∃ text root, Yields broken text root ∧
      root.bindings ≠ ((ofTarget broken).declarations none).bindings) := by
  refine ⟨?_, ?_, ?_, ?_⟩
  · obtain ⟨text, root, hyields, hconforms⟩ := exists_yields ordinal (by decide +kernel)
    refine ⟨text, root, hyields, fun h => ?_⟩
    have hfalse := (hconforms.names_iff.1 h).2 _ List.mem_cons_self
    exact absurd hfalse (by decide)
  · obtain ⟨text, root, hyields, hconforms⟩ := exists_yields controlled (by decide +kernel)
    refine ⟨text, root, hyields, fun h => ?_⟩
    have hmem := space_mem_declarations_ofTarget controlled (by decide) (by decide)
    have hfalse := hconforms.characters_iff.1 h controlled.space hmem '\x01' (by decide)
    exact absurd hfalse (by decide)
  · obtain ⟨text, root, hyields, hconforms⟩ := exists_yields declaring (by decide +kernel)
    refine ⟨text, root, hyields, fun h => ?_⟩
    have hmem := space_mem_declarations_ofTarget declaring (by decide) (by decide)
    exact hconforms.reserved_iff.1 h declaring.space hmem rfl
  · obtain ⟨text, root, hyields, hconforms⟩ := exists_yields broken (by decide +kernel)
    refine ⟨text, root, hyields, fun h => ?_⟩
    have hmem := space_mem_declarations_ofTarget broken (by decide) (by decide)
    have hfalse := hconforms.bindings_iff.1 h broken.space hmem '\n' (by decide)
    exact absurd hfalse (by decide)

end Crosswalk

end Concordance
