import Concordance.Proofs.Stylesheet.Declared
import Concordance.Proofs.Xml.Pieces
import Concordance.Stylesheet.Template

/-!
# Written names

A name of the stylesheet language, of RDF or of SKOS is written with the prefix that is declared for
its URI.  Where such a name is needed its URI is declared, so that no prefix is made up; and all
names that stylesheets write are names for the reader of markup.
-/

namespace Concordance

open Namespace (xmlUri xslUri rdfUri skosUri)

/-! ## Lookup by URI -/

namespace Declarations

variable {declared : Declarations}

/-- The prefix that is declared for a URI. -/
def label (declared : Declarations) (uri : String) : String :=
  (declared.byUri? uri).elim "" Namespace.label

/-- An expanded name, written with the declared prefix. -/
def nameOf (declared : Declarations) (name : ExpandedName) : String :=
  declared.label name.uri ++ ":" ++ name.localName

theorem qualified_eq_nameOf {space : Namespace} (h : (declared.byUri? space.uri).isSome)
    (localName : String) :
    declared.qualified space localName = declared.nameOf ⟨space.uri, localName⟩ := by
  obtain ⟨bound, hbound⟩ := Option.isSome_iff_exists.1 h
  rw [qualified, nameOf, label, hbound]
  rfl

end Declarations

/-! ## The elements of a crosswalk -/

theorem Fallback.not_isEmitted {fallback : Fallback}
    (h : ∀ guarded, fallback ≠ .emitted guarded) : ¬fallback.isEmitted = true := by
  cases fallback with
  | notApplicable => simp [isEmitted]
  | deferred explicit => simp [isEmitted]
  | emitted guarded => exact absurd rfl (h guarded)

namespace Rule

theorem source_mem_elements (rule : Rule) : rule.tag.source ∈ rule.elements :=
  List.mem_append_left _ List.mem_cons_self

theorem target_mem_elements (rule : Rule) : rule.tag.target ∈ rule.elements :=
  List.mem_append_left _ (List.mem_cons_of_mem _ List.mem_cons_self)

theorem mem_canonicalAttributes {rule : Rule} {c : Correspondence} :
    c ∈ rule.canonicalAttributes ↔ c ∈ rule.attributes.toList :=
  List.mem_mergeSort

theorem mem_elements_of_mem_attributes {rule : Rule} {c : Correspondence}
    (hc : c ∈ rule.attributes.toList) {element : Element} (h : element ∈ c.elements) :
    element ∈ rule.elements :=
  List.mem_append_right _ (List.mem_flatMap.2 ⟨c, hc, h⟩)

/-- An emitted fallback is guarded if the rule fills `rdf:resource` itself. -/
theorem guarded_eq {rule : Rule} {guarded : Bool} (h : rule.fallback = .emitted guarded) :
    guarded = !rule.resourceAttributes.isEmpty := by
  rw [Rule.fallback] at h
  split at h
  next =>
    split at h
    next => cases h
    next => exact (Fallback.emitted.inj h).symm
  next => cases h

end Rule

/-! ## What is declared whenever it is needed -/

namespace Crosswalk

variable {crosswalk : Crosswalk} {container : Option Element}

theorem byUri?_isSome_of_mem {element : Element}
    (h : element ∈ crosswalk.elements ++ container.toList) (hxml : element.space.uri ≠ xmlUri) :
    ((crosswalk.declarations container).byUri? element.space.uri).isSome := by
  rw [byUri?_declarations, if_neg hxml]
  rcases List.mem_append.1 h with h | h
  · have hlast : lastSpace? crosswalk.elements element.space.uri ≠ none := by
      intro hnone
      exact lastSpace?_eq_none_iff.1 hnone element h rfl
    simp [Option.isSome_iff_ne_none, hlast]
  · rw [Option.mem_toList] at h
    simp [containerSpace, Option.mem_def.1 h]

theorem byUri?_xslUri_isSome (crosswalk : Crosswalk) (container : Option Element) :
    ((crosswalk.declarations container).byUri? xslUri).isSome := by
  have hxml : xslUri ≠ xmlUri := by decide
  rw [byUri?_declarations, if_neg hxml, if_pos rfl]
  simp

theorem byUri?_rdfUri_isSome (h : container = none ∨ crosswalk.fallsBack) :
    ((crosswalk.declarations container).byUri? rdfUri).isSome := by
  have hxml : rdfUri ≠ xmlUri := by decide
  rw [byUri?_declarations, if_neg hxml]
  rcases h with rfl | hfalls
  · have hroot : (containerSpace none).uri = rdfUri := rfl
    simp [hroot]
  · simp [hfalls]

theorem fallsBack_of_mem {rule : Rule} {guarded : Bool} (hrule : rule ∈ crosswalk.children)
    (hfallback : rule.fallback = .emitted guarded) : crosswalk.fallsBack := by
  rw [fallsBack, List.any_eq_true]
  exact ⟨rule, hrule, by rw [hfallback]; rfl⟩

theorem mem_elements_of_mem_rule {rule : Rule}
    (hrule : rule ∈ crosswalk.parent :: crosswalk.children) {element : Element}
    (h : element ∈ rule.elements) : element ∈ crosswalk.elements := by
  refine List.mem_append_left _ (List.mem_append.2 ?_)
  rcases List.mem_cons.1 hrule with rfl | hrule
  · exact Or.inl h
  · exact Or.inr (List.mem_flatMap.2 ⟨rule, hrule, h⟩)

theorem mem_append_of_mem_rule {rule : Rule}
    (hrule : rule ∈ crosswalk.parent :: crosswalk.children) {element : Element}
    (h : element ∈ rule.elements) : element ∈ crosswalk.elements ++ container.toList :=
  List.mem_append_left _ (mem_elements_of_mem_rule hrule h)

theorem mem_append_of_mem_canonicalAttributes {rule : Rule}
    (hrule : rule ∈ crosswalk.parent :: crosswalk.children) {c : Correspondence}
    (hc : c ∈ rule.canonicalAttributes) {element : Element} (h : element ∈ c.elements) :
    element ∈ crosswalk.elements ++ container.toList :=
  mem_append_of_mem_rule hrule
    (Rule.mem_elements_of_mem_attributes (Rule.mem_canonicalAttributes.1 hc) h)

theorem mem_elements_of_documentId {documentId : Element}
    (h : crosswalk.documentId = some documentId) : documentId ∈ crosswalk.elements := by
  refine List.mem_append_right _ ?_
  rw [h]
  exact List.mem_singleton.2 rfl

/-- A rule that falls back relates concepts, so the namespace of SKOS is one of the crosswalk. -/
theorem byUri?_skosUri_isSome {rule : Rule} {guarded : Bool} (hrule : rule ∈ crosswalk.children)
    (hfallback : rule.fallback = .emitted guarded) :
    ((crosswalk.declarations container).byUri? skosUri).isSome := by
  have hrelates : rule.tag.source.isRelationship = true := by
    rw [Rule.fallback] at hfallback
    split at hfallback
    next h => exact (Bool.and_eq_true_iff.1 h).1
    next => cases hfallback
  have huri : rule.tag.source.space.uri = skosUri := by
    rw [Element.isRelationship, Bool.and_eq_true, beq_iff_eq] at hrelates
    exact hrelates.1
  have hxml : rule.tag.source.space.uri ≠ xmlUri := by
    rw [huri]
    decide
  have hmem := mem_elements_of_mem_rule (List.mem_cons_of_mem _ hrule) rule.source_mem_elements
  rw [← huri]
  exact byUri?_isSome_of_mem (List.mem_append_left _ hmem) hxml

end Crosswalk

/-! ## Names of markup -/

open Xml (IsName isNameChar)

theorem isNameChar_of_isNamePart {c : Char} (h : isNamePart c = true) : isNameChar c = true := by
  -- no character that ends a name for the reader is part of one
  have hnone : ∀ d ∈ [' ', '\t', '\n', '\r', '<', '>', '/', '=', '"', '\'', '&', '?', '!'],
      isNamePart d = false := by
    simp only [List.forall_mem_cons, List.not_mem_nil, false_imp_iff, implies_true]
    decide
  have hfree : c ∉ [' ', '\t', '\n', '\r', '<', '>', '/', '=', '"', '\'', '&', '?', '!'] := by
    intro hc
    rw [hnone c hc] at h
    cases h
  simpa [isNameChar, Xml.isSpace, and_assoc] using hfree

theorem isNamePart_of_mem {text : String} (h : isNCName text = true) {c : Char}
    (hc : c ∈ text.toList) : isNamePart c = true := by
  rw [isNCName] at h
  split at h
  next => cases h
  next first rest htext =>
    rw [htext] at hc
    obtain ⟨hfirst, hrest⟩ := Bool.and_eq_true_iff.1 h
    rcases List.mem_cons.1 hc with rfl | hc
    · rw [isNameStart] at hfirst
      rw [isNamePart, Text.isAlphanumeric]
      grind
    · exact List.all_eq_true.1 hrest c hc

theorem ne_empty_of_isNCName {text : String} (h : isNCName text = true) : text ≠ "" := by
  rintro rfl
  cases h

theorem isName_of_isNCName {name : String} (h : isNCName name = true) : IsName name := by
  refine ⟨?_, fun c hc => isNameChar_of_isNamePart (isNamePart_of_mem h hc)⟩
  exact fun hnil => ne_empty_of_isNCName h (String.toList_eq_nil_iff.1 hnil)

theorem isName_append_colon {label localName : String} (hlabel : isNCName label = true)
    (hlocal : isNCName localName = true) : IsName (label ++ ":" ++ localName) := by
  have hchars := (isName_of_isNCName hlabel).isNameChar_of_mem
  have hchars' := (isName_of_isNCName hlocal).isNameChar_of_mem
  refine ⟨by simp, fun c hc => ?_⟩
  rw [String.toList_append, String.toList_append, List.mem_append, List.mem_append] at hc
  rcases hc with (hc | hc) | hc
  · exact hchars c hc
  · rw [List.mem_singleton.1 hc]
    decide
  · exact hchars' c hc

theorem Element.isName_qualifiedName (element : Element) : IsName element.qualifiedName :=
  isName_append_colon element.space.label_isName element.localName_isName

theorem Declarations.isName_qualified (declared : Declarations) (space : Namespace)
    {localName : String} (h : isNCName localName = true) :
    IsName (declared.qualified space localName) :=
  isName_append_colon (Namespace.label_isName _) h

end Concordance
