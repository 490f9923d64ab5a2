import Concordance.Proofs.Stylesheet.Outline
import Concordance.Proofs.Xml.Names

/-!
# Prefixes and what they are bound to

In a stylesheet that passed its checks every name is written with a prefix that leads back to its
own URI, whether the prefix was looked up in the declarations or is that of an element of the
crosswalk.
-/

namespace Concordance

open Namespace (xmlUri xslUri rdfUri skosUri)

/-! ## Names under declarations -/

namespace Declarations

variable {declared : Declarations}

/-- The prefixes that declarations bind, each with its URI. -/
def bindings (declared : Declarations) : List (String × String) :=
  declared.toList.map fun space => (space.label, space.uri)

theorem filterMap_binding? (declared : Declarations) :
    (("version", "1.0") ::
        declared.toList.map fun space => ("xmlns:" ++ space.label, space.uri)).filterMap
      Xml.binding? = declared.bindings := by
  have hversion : Xml.binding? ("version", "1.0") = none := rfl
  rw [List.filterMap_cons_none hversion, bindings]
  induction declared.toList with
  | nil => rfl
  | cons space rest ih =>
    rw [List.map_cons, List.filterMap_cons_some (Xml.binding?_append space.label space.uri), ih,
      List.map_cons]

/-- The prefix that names of a URI are written with. -/
def prefixOf (declared : Declarations) (uri : String) : String :=
  if uri = xmlUri then "xml" else declared.label uri

/-- The prefix and the local name of an expanded name. -/
def pair (declared : Declarations) (name : ExpandedName) : String × String :=
  (declared.prefixOf name.uri, name.localName)

/-- The namespace of a name is declared, unless it is that of XML. -/
def Bound (declared : Declarations) (name : ExpandedName) : Prop :=
  name.uri ≠ xmlUri → (declared.byUri? name.uri).isSome

/-- A written name stands for an expanded name: it is made of the prefix of the URI, which is
declared or that of XML, and of the local name. -/
structure Stands (declared : Declarations) (written : String) (name : ExpandedName) : Prop where
  isNCName_prefixOf : isNCName (declared.prefixOf name.uri) = true
  isNCName_localName : isNCName name.localName = true
  written_eq : written = declared.prefixOf name.uri ++ ":" ++ name.localName
  bound : declared.Bound name

theorem prefixOf_eq {uri : String} {space : Namespace} (hne : uri ≠ xmlUri)
    (h : declared.byUri? uri = some space) : declared.prefixOf uri = space.label := by
  rw [prefixOf, if_neg hne, label, h]
  rfl

theorem stands_nameOf {name : ExpandedName} (hne : name.uri ≠ xmlUri)
    (hbound : (declared.byUri? name.uri).isSome) (hlocal : isNCName name.localName = true) :
    declared.Stands (declared.nameOf name) name := by
  obtain ⟨space, hspace⟩ := Option.isSome_iff_exists.1 hbound
  refine ⟨?_, hlocal, ?_, fun _ => hbound⟩
  · rw [prefixOf_eq hne hspace]
    exact space.label_isName
  · rw [nameOf, prefixOf, if_neg hne]

theorem stands_qualifiedName {element : Element} (hfits : declared.Fits element)
    (hbound : declared.Bound element.expanded) :
    declared.Stands element.qualifiedName element.expanded := by
  have hlabel : declared.prefixOf element.expanded.uri = element.space.label := by
    by_cases hxml : element.space.uri = xmlUri
    · rw [prefixOf, Element.expanded, if_pos hxml, hfits.xml_label hxml]
    · obtain ⟨space, hspace⟩ := Option.isSome_iff_exists.1 (hbound hxml)
      rw [Element.expanded, prefixOf_eq hxml hspace, hfits.label_eq hxml space hspace]
  refine ⟨?_, element.localName_isName, ?_, hbound⟩
  · rw [hlabel]
    exact element.space.label_isName
  · rw [hlabel]
    rfl

/-- A written name in an expression, in front of something that cannot carry it on. -/
theorem tokens?_of_stands {written : String} {name : ExpandedName}
    (h : declared.Stands written name) {rest : List Char} (hrest : Xpath.EndsName rest) :
    Xpath.tokens? (written.toList ++ rest) =
      (Xpath.tokens? rest).map
        (.name (some (declared.prefixOf name.uri)) name.localName :: ·) := by
  rw [h.written_eq]
  exact Xpath.tokens?_qualified h.isNCName_prefixOf h.isNCName_localName hrest

/-- Declarations that bind no prefix twice and none that XML reserves. -/
structure OneToOne (declared : Declarations) : Prop where
  not_reserved : ∀ space ∈ declared.toList, ¬Reserved space.label
  label_ne : declared.toList.Pairwise fun a b => a.label ≠ b.label

theorem find?_bindings (hdeclared : declared.OneToOne) {space : Namespace}
    (hmem : space ∈ declared.toList) :
    declared.bindings.find? (·.1 == space.label) = some (space.label, space.uri) := by
  have hinj := List.inj_on_of_nodup_map (List.pairwise_map.2 hdeclared.label_ne)
  rw [bindings, List.find?_map, Option.map_eq_some_iff]
  cases hfind : declared.toList.find? ((·.1 == space.label) ∘ fun s => (s.label, s.uri)) with
  | none =>
    have hnone := List.find?_eq_none.1 hfind space hmem
    simp at hnone
  | some other =>
    have hlabel : other.label = space.label := by simpa using List.find?_some hfind
    have hother := hinj (List.mem_of_find?_eq_some hfind) hmem hlabel
    exact ⟨other, rfl, by rw [hother]⟩

/-- The prefix of a name leads back to its URI. -/
theorem resolve?_pair (hdeclared : declared.OneToOne) {name : ExpandedName}
    (hbound : declared.Bound name) :
    Xml.resolve? declared.bindings (declared.pair name) = some name := by
  rw [Xml.resolve?, pair]
  by_cases hxml : name.uri = xmlUri
  · rw [prefixOf, if_pos hxml, if_pos rfl, ← hxml]
  · obtain ⟨space, hspace⟩ := Option.isSome_iff_exists.1 (hbound hxml)
    obtain ⟨hmem, huri⟩ := byUri?_eq_some_iff.1 hspace
    have hlabel : space.label ≠ "xml" := fun h => hdeclared.not_reserved space hmem (Or.inl h)
    rw [prefixOf_eq hxml hspace, if_neg hlabel, find?_bindings hdeclared hmem, Option.map_some,
      huri]

end Declarations

/-! ## Names of a stylesheet -/

namespace Crosswalk

variable {crosswalk : Crosswalk} {container : Option Element}

theorem stands_xsl (crosswalk : Crosswalk) (container : Option Element) {localName : String}
    (h : isNCName localName = true) :
    (crosswalk.declarations container).Stands
      ((crosswalk.declarations container).nameOf ⟨xslUri, localName⟩) ⟨xslUri, localName⟩ :=
  have hne : xslUri ≠ xmlUri := by decide
  Declarations.stands_nameOf hne (byUri?_xslUri_isSome crosswalk container) h

theorem stands_rdf (hneeds : container = none ∨ crosswalk.fallsBack) {localName : String}
    (h : isNCName localName = true) :
    (crosswalk.declarations container).Stands
      ((crosswalk.declarations container).nameOf ⟨rdfUri, localName⟩) ⟨rdfUri, localName⟩ :=
  have hne : rdfUri ≠ xmlUri := by decide
  Declarations.stands_nameOf hne (byUri?_rdfUri_isSome hneeds) h

theorem stands_skos {rule : Rule} {guarded : Bool} (hrule : rule ∈ crosswalk.children)
    (hfallback : rule.fallback = .emitted guarded) {localName : String}
    (h : isNCName localName = true) :
    (crosswalk.declarations container).Stands
      ((crosswalk.declarations container).nameOf ⟨skosUri, localName⟩) ⟨skosUri, localName⟩ :=
  have hne : skosUri ≠ xmlUri := by decide
  Declarations.stands_nameOf hne (byUri?_skosUri_isSome hrule hfallback) h

variable (hcheck : (crosswalk.declarations container).check
  (crosswalk.elements ++ container.toList) = .ok ())

include hcheck

theorem oneToOne_of_check : (crosswalk.declarations container).OneToOne :=
  have h := ((Declarations.check_eq_ok_iff _ _).1 hcheck).1
  ⟨h.1, h.2⟩

theorem stands_of_mem {element : Element}
    (hmem : element ∈ crosswalk.elements ++ container.toList) :
    (crosswalk.declarations container).Stands element.qualifiedName element.expanded := by
  have hfits := ((Declarations.check_eq_ok_iff _ _).1 hcheck).2 element hmem
  exact Declarations.stands_qualifiedName hfits (byUri?_isSome_of_mem hmem)

theorem stands_container :
    (crosswalk.declarations container).Stands
      (container.elim ((crosswalk.declarations container).nameOf ⟨rdfUri, "RDF"⟩)
        Element.qualifiedName)
      (container.elim ⟨rdfUri, "RDF"⟩ Element.expanded) := by
  cases container with
  | none => exact stands_rdf (Or.inl rfl) (by decide)
  | some element => exact stands_of_mem hcheck (by simp)

end Crosswalk

end Concordance
