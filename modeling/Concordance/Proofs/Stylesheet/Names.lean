import Concordance.Proofs.Stylesheet.Expressions

/-!
# The names that stylesheets use

The names of a stylesheet in the order of the document, set out from the crosswalk alone: those of
the crosswalk and of the languages that it draws on.  Reading the names of the outline gives exactly
these, as they are written under the declarations.
-/

namespace Concordance

open Namespace (xslUri rdfUri skosUri)
open Xpath (Token tokens?)

/-! ## The names that are meant -/

namespace Meant

/-- A name of the stylesheet language. -/
def xsl (localName : String) : ExpandedName :=
  ⟨xslUri, localName⟩

/-- The names of an attribute that is filled: a test, the name and a value. -/
def filled (test : List ExpandedName) (name : ExpandedName) (select : List ExpandedName) :
    List ExpandedName :=
  xsl "if" :: test ++ xsl "attribute" :: name :: xsl "value-of" :: select

/-- The names of the copies of the attributes of a rule. -/
def copies (rule : Rule) : List ExpandedName :=
  rule.canonicalAttributes.flatMap fun c =>
    filled [c.source.expanded] c.target.expanded [c.source.expanded]

/-- The names of the fallback to a nested concept, where the rule has one. -/
def fallback (rule : Rule) : List ExpandedName :=
  if rule.fallback.isEmitted then
    filled
      ((if rule.resourceAttributes = [] then [] else [⟨rdfUri, "resource"⟩]) ++
        [⟨skosUri, "Concept"⟩, ⟨rdfUri, "about"⟩])
      ⟨rdfUri, "resource"⟩ [⟨skosUri, "Concept"⟩, ⟨rdfUri, "about"⟩, ⟨rdfUri, "about"⟩]
  else []

/-- The names of the copy of the text of a tag, where the rule keeps it. -/
def texts (rule : Rule) : List ExpandedName :=
  if rule.keepsText then [xsl "for-each", xsl "if", xsl "text", xsl "value-of"] else []

/-- The names of what a child rule makes of its tags. -/
def child (rule : Rule) : List ExpandedName :=
  xsl "for-each" :: rule.tag.source.expanded :: rule.tag.target.expanded ::
    (copies rule ++ fallback rule ++ texts rule)

end Meant

/-- The names that the stylesheet of a crosswalk is meant to use, in the order of the document. -/
def Crosswalk.meant (crosswalk : Crosswalk) (container : Option Element) (documentId : Element) :
    List ExpandedName :=
  [Meant.xsl "stylesheet", Meant.xsl "param", Meant.xsl "output", Meant.xsl "template",
    container.elim ⟨rdfUri, "RDF"⟩ Element.expanded, Meant.xsl "for-each",
    crosswalk.parent.tag.source.expanded, Meant.xsl "if", documentId.expanded,
    crosswalk.parent.tag.target.expanded] ++
      Meant.copies crosswalk.parent ++ crosswalk.children.flatMap Meant.child

/-! ## Reading the names of the outline -/

namespace Declarations

variable {declared : Declarations}

/-- The names that were read are the given ones, as they are written under the declarations. -/
def Says (declared : Declarations) (read : Option (List (String × String)))
    (names : List ExpandedName) : Prop :=
  read = some (names.map declared.pair)

theorem says_joined {first second : Option (List (String × String))}
    {names others : List ExpandedName} (hfirst : declared.Says first names)
    (hsecond : declared.Says second others) :
    declared.Says (Xml.joined first second) (names ++ others) := by
  rw [Says] at *
  rw [hfirst, hsecond, List.map_append]
  rfl

theorem says_nil : declared.Says (Xml.Node.namesAll? []) [] := by
  rw [Says, Xml.Node.namesAll?]
  rfl

theorem says_cons {item : Xml.Node} {rest : List Xml.Node} {names others : List ExpandedName}
    (hitem : declared.Says item.names? names)
    (hrest : declared.Says (Xml.Node.namesAll? rest) others) :
    declared.Says (Xml.Node.namesAll? (item :: rest)) (names ++ others) := by
  rw [Xml.Node.namesAll?]
  exact says_joined hitem hrest

theorem says_singleton {item : Xml.Node} {names : List ExpandedName}
    (hitem : declared.Says item.names? names) :
    declared.Says (Xml.Node.namesAll? [item]) names := by
  have h := says_cons hitem says_nil
  rw [List.append_nil] at h
  exact h

theorem says_remark (remark : String) {item : Xml.Node} {names : List ExpandedName}
    (hitem : declared.Says item.names? names) :
    declared.Says (Xml.Node.namesAll? [Outline.remark remark, item]) names := by
  have hremark : declared.Says (Outline.remark remark).names? [] := rfl
  exact says_cons hremark (says_singleton hitem)

theorem says_append {first second : List Xml.Node} {names others : List ExpandedName}
    (hfirst : declared.Says (Xml.Node.namesAll? first) names)
    (hsecond : declared.Says (Xml.Node.namesAll? second) others) :
    declared.Says (Xml.Node.namesAll? (first ++ second)) (names ++ others) := by
  rw [Xml.namesAll?_append]
  exact says_joined hfirst hsecond

theorem says_flatMap {α : Type} {f : α → List Xml.Node} {names : α → List ExpandedName}
    {items : List α}
    (h : ∀ item ∈ items, declared.Says (Xml.Node.namesAll? (f item)) (names item)) :
    declared.Says (Xml.Node.namesAll? (items.flatMap f)) (items.flatMap names) := by
  induction items with
  | nil => exact says_nil
  | cons item rest ih =>
    obtain ⟨hitem, hrest⟩ := List.forall_mem_cons.1 h
    rw [List.flatMap_cons, List.flatMap_cons]
    exact says_append hitem (ih hrest)

theorem says_attribute {key value : String} {names : List ExpandedName}
    (hkey : key ∈ Xml.nameKeys) (h : declared.Says (Xpath.names? value) names) :
    declared.Says (Xml.attributeNames? [(key, value)]) names := by
  have hnil : declared.Says (Xml.attributeNames? []) [] := rfl
  have hjoined := says_joined h hnil
  rw [List.append_nil] at hjoined
  rw [Xml.attributeNames?, if_pos hkey]
  exact hjoined

theorem says_names {expression : String} {tokens : List Token} {names : List ExpandedName}
    (htokens : tokens? expression.toList = some tokens)
    (hpairs : tokens.filterMap Token.pair? = names.map declared.pair) :
    declared.Says (Xpath.names? expression) names := by
  rw [Says, Xpath.names?, htokens, Option.map_some, hpairs]

/-- The names of an element: its own, those of its attributes, those of its content. -/
theorem says_element {written : String} {name : ExpandedName} {attributes : Xml.Attributes}
    {content : List Xml.Node} {names others : List ExpandedName}
    (hname : declared.Stands written name)
    (hattributes : declared.Says (Xml.attributeNames? attributes) names)
    (hcontent : declared.Says (Xml.Node.namesAll? content) others) :
    declared.Says (Xml.Node.names? (.element written attributes content))
      (name :: (names ++ others)) := by
  have htag : Xml.tagName? written = some (declared.pair name) := by
    rw [Xml.tagName?, tokens?_written hname]
    rfl
  have hself : declared.Says ((Xml.tagName? written).map ([·])) [name] := by
    rw [htag]
    rfl
  rw [Xml.Node.names?]
  exact says_joined hself (says_joined hattributes hcontent)

end Declarations

namespace Crosswalk

open Declarations

variable {crosswalk : Crosswalk} {container : Option Element}

theorem says_xsl {localName key value : String} {content : List Xml.Node}
    {names others : List ExpandedName} (hlocal : isNCName localName = true)
    (hkey : key ∈ Xml.nameKeys)
    (hvalue : (crosswalk.declarations container).Says (Xpath.names? value) names)
    (hcontent : (crosswalk.declarations container).Says (Xml.Node.namesAll? content) others) :
    (crosswalk.declarations container).Says
      (Outline.xsl (crosswalk.declarations container) localName [(key, value)] content).names?
      (Meant.xsl localName :: (names ++ others)) :=
  says_element (stands_xsl crosswalk container hlocal) (says_attribute hkey hvalue) hcontent

theorem says_filled {test name select : String} {target : ExpandedName}
    {tested selected : List ExpandedName}
    (htest : (crosswalk.declarations container).Says (Xpath.names? test) tested)
    (hname : (crosswalk.declarations container).Stands name target)
    (hselect : (crosswalk.declarations container).Says (Xpath.names? select) selected) :
    (crosswalk.declarations container).Says
      (Outline.filled (crosswalk.declarations container) test name select).names?
      (Meant.filled tested target selected) := by
  have hwritten : (crosswalk.declarations container).Says (Xpath.names? name) [target] :=
    says_names (tokens?_written hname) rfl
  rw [Meant.filled, ← List.append_nil selected]
  refine says_xsl (by decide) (by decide) htest (says_singleton ?_)
  refine says_xsl (by decide) (by decide) hwritten (says_singleton ?_)
  exact says_xsl (by decide) (by decide) hselect says_nil

theorem says_fallback {rule : Rule} (hrule : rule ∈ crosswalk.children) :
    (crosswalk.declarations container).Says
      (Xml.Node.namesAll? (Outline.fallback (crosswalk.declarations container) rule))
      (Meant.fallback rule) := by
  rw [Outline.fallback, Meant.fallback]
  cases hcase : rule.fallback with
  | notApplicable => exact says_nil
  | deferred explicit => exact says_nil
  | emitted guarded =>
    have hneeds : container = none ∨ crosswalk.fallsBack :=
      Or.inr (fallsBack_of_mem hrule hcase)
    have hconcept : (crosswalk.declarations container).Stands _ ⟨skosUri, "Concept"⟩ :=
      stands_skos hrule hcase (by decide)
    have habout : (crosswalk.declarations container).Stands _ ⟨rdfUri, "about"⟩ :=
      stands_rdf hneeds (by decide)
    have hresource : (crosswalk.declarations container).Stands _ ⟨rdfUri, "resource"⟩ :=
      stands_rdf hneeds (by decide)
    refine says_remark _ (says_filled ?_ hresource ?_)
    · rw [Outline.concepts]
      by_cases hnone : rule.resourceAttributes = []
      · rw [if_pos hnone, if_pos hnone, String.empty_append]
        exact says_names (tokens?_concepts hconcept habout) rfl
      · rw [if_neg hnone, if_neg hnone]
        exact says_names (tokens?_guarded hconcept habout hresource) rfl
    · exact says_names (tokens?_firstAbout hconcept habout) rfl

theorem says_texts (crosswalk : Crosswalk) (container : Option Element) (rule : Rule) :
    (crosswalk.declarations container).Says
      (Xml.Node.namesAll? (Outline.texts (crosswalk.declarations container) rule))
      (Meant.texts rule) := by
  rw [Outline.texts, Meant.texts]
  split
  · have hnodes : (crosswalk.declarations container).Says
        (Xpath.names? "text()[normalize-space()]") [] :=
      says_names tokens?_textNodes rfl
    have hfirst : (crosswalk.declarations container).Says (Xpath.names? "position() > 1") [] :=
      says_names tokens?_notFirst rfl
    have hvalue : (crosswalk.declarations container).Says
        (Xpath.names? "normalize-space(.)") [] :=
      says_names tokens?_normalized rfl
    have htag : (crosswalk.declarations container).Stands _ (Meant.xsl "text") :=
      stands_xsl crosswalk container (by decide)
    have hnone : (crosswalk.declarations container).Says (Xml.attributeNames? []) [] := rfl
    have hspace : (crosswalk.declarations container).Says
        (Xml.Node.namesAll? [.text " "]) [] := rfl
    have hif : (crosswalk.declarations container).Says
        (Outline.xsl _ "if" [("test", "position() > 1")] [
          Outline.xsl _ "text" [] [.text " "]]).names? [Meant.xsl "if", Meant.xsl "text"] :=
      says_xsl (by decide) (by decide) hfirst (says_singleton (says_element htag hnone hspace))
    have hcopy : (crosswalk.declarations container).Says
        (Outline.xsl _ "value-of" [("select", "normalize-space(.)")] []).names?
        [Meant.xsl "value-of"] :=
      says_xsl (by decide) (by decide) hvalue says_nil
    exact says_remark _ (says_xsl (by decide) (by decide) hnodes
      (says_cons hif (says_singleton hcopy)))
  · exact says_nil

theorem not_mem_nameKeys (label : String) : "xmlns:" ++ label ∉ Xml.nameKeys := by
  intro h
  -- none of the keys begins with the letter of a declaration
  have hhead : ("xmlns:" ++ label).toList.head? ∈
      Xml.nameKeys.map fun key => key.toList.head? :=
    List.mem_map.2 ⟨_, h, rfl⟩
  rw [String.toList_append, List.head?_append] at hhead
  change some 'x' ∈ _ at hhead
  revert hhead
  decide

theorem attributeNames?_declared (spaces : List Namespace) :
    Xml.attributeNames? (spaces.map fun space => ("xmlns:" ++ space.label, space.uri)) =
      some [] := by
  induction spaces with
  | nil => rfl
  | cons space rest ih =>
    rw [List.map_cons, Xml.attributeNames?, if_neg (not_mem_nameKeys space.label), ih]

/-! ## The names of a checked stylesheet -/

variable (hcheck : (crosswalk.declarations container).check
  (crosswalk.elements ++ container.toList) = .ok ())

include hcheck

theorem says_copies {rule : Rule} (hrule : rule ∈ crosswalk.parent :: crosswalk.children) :
    (crosswalk.declarations container).Says
      (Xml.Node.namesAll? (Outline.copies (crosswalk.declarations container) rule))
      (Meant.copies rule) := by
  refine says_flatMap fun c hc => says_remark _ ?_
  have hmem {element : Element} (h : element ∈ c.elements) :
      element ∈ crosswalk.elements ++ container.toList :=
    mem_append_of_mem_canonicalAttributes hrule hc h
  have hsource := stands_of_mem hcheck (hmem List.mem_cons_self)
  have htarget := stands_of_mem hcheck (hmem (List.mem_cons_of_mem _ List.mem_cons_self))
  have hvalue : (crosswalk.declarations container).Says
      (Xpath.names? ("@" ++ c.source.qualifiedName)) [c.source.expanded] :=
    says_names (tokens?_attribute hsource) rfl
  exact says_filled hvalue htarget hvalue

theorem says_child {rule : Rule} (hrule : rule ∈ crosswalk.children) :
    (crosswalk.declarations container).Says
      (Xml.Node.namesAll? (Outline.child (crosswalk.declarations container) rule))
      (Meant.child rule) := by
  have hrules := List.mem_cons_of_mem crosswalk.parent hrule
  have hsource := stands_of_mem hcheck (mem_append_of_mem_rule hrules rule.source_mem_elements)
  have htarget := stands_of_mem hcheck (mem_append_of_mem_rule hrules rule.target_mem_elements)
  have hselect : (crosswalk.declarations container).Says
      (Xpath.names? ("./" ++ rule.tag.source.qualifiedName)) [rule.tag.source.expanded] :=
    says_names (tokens?_children hsource) rfl
  have hcontent := says_append (says_append (says_copies hcheck hrules) (says_fallback hrule))
    (says_texts crosswalk container rule)
  have hnone : (crosswalk.declarations container).Says (Xml.attributeNames? []) [] := rfl
  have htag := says_element htarget hnone hcontent
  exact says_remark _ (says_xsl (by decide) (by decide) hselect (says_singleton htag))

theorem says_record {documentId : Element} (hid : crosswalk.documentId = some documentId) :
    (crosswalk.declarations container).Says
      (Xml.Node.names?
        (Outline.xsl (crosswalk.declarations container) "for-each"
          [("select", "./" ++ crosswalk.parent.tag.source.qualifiedName)] [
          Outline.xsl (crosswalk.declarations container) "if"
            [("test", "@" ++ documentId.qualifiedName ++ "=$targetId")] [
            .element crosswalk.parent.tag.target.qualifiedName []
              (Outline.copies (crosswalk.declarations container) crosswalk.parent ++
                crosswalk.children.flatMap
                  (Outline.child (crosswalk.declarations container)))]]))
      ([Meant.xsl "for-each", crosswalk.parent.tag.source.expanded, Meant.xsl "if",
        documentId.expanded, crosswalk.parent.tag.target.expanded] ++
          (Meant.copies crosswalk.parent ++ crosswalk.children.flatMap Meant.child)) := by
  have hrules : crosswalk.parent ∈ crosswalk.parent :: crosswalk.children := List.mem_cons_self
  have hsource := stands_of_mem hcheck
    (mem_append_of_mem_rule hrules crosswalk.parent.source_mem_elements)
  have htarget := stands_of_mem hcheck
    (mem_append_of_mem_rule hrules crosswalk.parent.target_mem_elements)
  have hidentifier := stands_of_mem hcheck
    (List.mem_append_left container.toList (mem_elements_of_documentId hid))
  have hselect : (crosswalk.declarations container).Says
      (Xpath.names? ("./" ++ crosswalk.parent.tag.source.qualifiedName))
      [crosswalk.parent.tag.source.expanded] :=
    says_names (tokens?_children hsource) rfl
  have htest : (crosswalk.declarations container).Says
      (Xpath.names? ("@" ++ documentId.qualifiedName ++ "=$targetId"))
      [documentId.expanded] :=
    says_names (tokens?_isTarget hidentifier) rfl
  have hnone : (crosswalk.declarations container).Says (Xml.attributeNames? []) [] := rfl
  have hchildren : (crosswalk.declarations container).Says
      (Xml.Node.namesAll?
        (crosswalk.children.flatMap (Outline.child (crosswalk.declarations container))))
      (crosswalk.children.flatMap Meant.child) :=
    says_flatMap fun rule hrule => says_child hcheck hrule
  have htag := says_element htarget hnone (says_append (says_copies hcheck hrules) hchildren)
  have hif := says_xsl (by decide : isNCName "if" = true) (by decide : "test" ∈ Xml.nameKeys)
    htest (says_singleton htag)
  have hloop := says_xsl (by decide : isNCName "for-each" = true)
    (by decide : "select" ∈ Xml.nameKeys) hselect (says_singleton hif)
  exact hloop

/-- The names of the outline are those that are meant. -/
theorem says_outline {documentId : Element} (hid : crosswalk.documentId = some documentId) :
    (crosswalk.declarations container).Says (crosswalk.outline container documentId).names?
      (crosswalk.meant container documentId) := by
  have hroot : (crosswalk.declarations container).Says
      (Xml.attributeNames? (("version", "1.0") ::
        (crosswalk.declarations container).toList.map fun space =>
          ("xmlns:" ++ space.label, space.uri))) [] := by
    rw [Says, Xml.attributeNames?, if_neg (by decide), attributeNames?_declared]
    rfl
  have hparameter : (crosswalk.declarations container).Says
      (Xml.attributeNames? [("name", "targetId"), ("select", "")]) [] := by
    have hnames : Xpath.names? "targetId" = some [] := by
      rw [Xpath.names?, tokens?_targetId]
      rfl
    have hempty : Xpath.names? "" = some [] := by
      rw [Xpath.names?, String.toList_empty, Xpath.tokens?_nil]
      rfl
    rw [Says, Xml.attributeNames?, if_pos (by decide), Xml.attributeNames?, if_pos (by decide),
      hnames, hempty]
    rfl
  have houtput : (crosswalk.declarations container).Says
      (Xml.attributeNames? [("indent", "yes"), ("encoding", "UTF-8")]) [] := by
    rw [Says, Xml.attributeNames?, if_neg (by decide), Xml.attributeNames?, if_neg (by decide)]
    rfl
  have hmatch : (crosswalk.declarations container).Says
      (Xpath.names? ("/" ++ container.elim
        ((crosswalk.declarations container).nameOf ⟨rdfUri, "RDF"⟩) Element.qualifiedName))
      [container.elim ⟨rdfUri, "RDF"⟩ Element.expanded] :=
    says_names (tokens?_root (stands_container hcheck)) rfl
  have hxsl {localName : String} (h : isNCName localName = true) :
      (crosswalk.declarations container).Stands _ (Meant.xsl localName) :=
    stands_xsl crosswalk container h
  have hrecord := says_remark (" Parent mapping: " ++ crosswalk.parent.tag.shown ++ " ")
    (says_record hcheck hid)
  have htemplate := says_xsl (by decide : isNCName "template" = true)
    (by decide : "match" ∈ Xml.nameKeys) hmatch hrecord
  have hcontent := says_cons (says_element (hxsl (by decide : isNCName "param" = true))
    hparameter says_nil) (says_cons (says_element (hxsl (by decide : isNCName "output" = true))
      houtput says_nil) (says_singleton htemplate))
  have houtline := says_element (hxsl (by decide : isNCName "stylesheet" = true)) hroot hcontent
  exact houtline

end Crosswalk

end Concordance
