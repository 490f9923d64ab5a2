import Concordance.Proofs.Name.Registry
import Concordance.Stylesheet.Declarations

/-!
# What a stylesheet declares

The declarations of a crosswalk are described by the namespace found under each URI: the one of the
last element with that URI, else the one that a fallback or the stylesheet language needs, else the
one of the record container.
-/

namespace Concordance

open Namespace (xmlUri xslUri rdfUri)

namespace Declarations

variable {declared : Declarations}

theorem byUri?_eq_some_iff {uri : String} {space : Namespace} :
    declared.byUri? uri = some space ↔ space ∈ declared.toList ∧ space.uri = uri := by
  rw [byUri?, find?_eq_some_iff_mem (Namespace.isKey_uri uri) declared.ascending]
  simp

theorem byUri?_uri_of_mem {space : Namespace} (h : space ∈ declared.toList) :
    declared.byUri? space.uri = some space :=
  byUri?_eq_some_iff.2 ⟨h, rfl⟩

/-- Each URI is declared once. -/
theorem pairwise_uri_ne (declared : Declarations) :
    declared.toList.Pairwise fun a b => a.uri ≠ b.uri :=
  Ascending.pairwise_ne (f := Namespace.uri) declared

theorem byUri?_empty (uri : String) : byUri? .empty uri = none := rfl

theorem byUri?_insertOver (declared : Declarations) (space : Namespace) (uri : String) :
    byUri? (declared.insertOver space) uri =
      if space.uri = uri then some space else declared.byUri? uri := by
  simp [byUri?, Ascending.insertOver, find?_insertOver (Namespace.isKey_uri uri)]

theorem byUri?_insertNew (declared : Declarations) (space : Namespace) (uri : String) :
    byUri? (declared.insertNew space) uri =
      (declared.byUri? uri).or (if space.uri = uri then some space else none) := by
  simp [byUri?, Ascending.insertNew,
    find?_insertNew (Namespace.isKey_uri uri) space declared.ascending]

theorem byUri?_withoutXml (declared : Declarations) (uri : String) :
    declared.withoutXml.byUri? uri = if uri = xmlUri then none else declared.byUri? uri := by
  rw [byUri?, byUri?, withoutXml, Ascending.filter, List.find?_filter]
  split
  next h => simp [h]
  next h =>
    congr 1
    funext space
    by_cases hs : space.uri = uri <;> simp [hs, h]

end Declarations

namespace Crosswalk

/-- The namespace of the last of the elements that has the given URI. -/
def lastSpace? (elements : List Element) (uri : String) : Option Namespace :=
  (elements.reverse.find? (·.space.uri == uri)).map Element.space

theorem lastSpace?_eq_none_iff {elements : List Element} {uri : String} :
    lastSpace? elements uri = none ↔ ∀ element ∈ elements, element.space.uri ≠ uri := by
  simp [lastSpace?]

theorem exists_of_lastSpace?_eq_some {elements : List Element} {uri : String} {space : Namespace}
    (h : lastSpace? elements uri = some space) :
    ∃ element ∈ elements, element.space = space ∧ space.uri = uri := by
  rw [lastSpace?, Option.map_eq_some_iff] at h
  obtain ⟨element, hfind, rfl⟩ := h
  refine ⟨element, ?_, rfl, ?_⟩
  · simpa using List.mem_of_find?_eq_some hfind
  · simpa using List.find?_some hfind

/-- Of the elements put in one after another, the last of a URI gives the prefix. -/
theorem byUri?_foldl_insertOver (elements : List Element) (declared : Declarations)
    (uri : String) :
    Declarations.byUri?
        (elements.foldl (fun set element => set.insertOver element.space) declared) uri =
      (lastSpace? elements uri).or (declared.byUri? uri) := by
  induction elements generalizing declared with
  | nil => rfl
  | cons element rest ih =>
    rw [List.foldl_cons, ih, Declarations.byUri?_insertOver]
    simp only [lastSpace?, List.reverse_cons, List.find?_append]
    by_cases h : element.space.uri = uri
    · cases rest.reverse.find? (·.space.uri == uri) <;> simp [h]
    · simp [h]

/-- Whether some child rule falls back to a nested concept. -/
def fallsBack (crosswalk : Crosswalk) : Bool :=
  crosswalk.children.any (·.fallback.isEmitted)

theorem byUri?_namespaces (crosswalk : Crosswalk) (uri : String) :
    crosswalk.namespaces.byUri? uri =
      if uri = xmlUri then none
      else
        ((lastSpace? crosswalk.elements uri).or
          (if crosswalk.fallsBack ∧ uri = rdfUri then some Namespace.rdf else none)).or
            (if uri = xslUri then some Namespace.xsl else none) := by
  have hrdf : (Namespace.rdf.uri = uri) ↔ (uri = rdfUri) := eq_comm
  have hxsl : (Namespace.xsl.uri = uri) ↔ (uri = xslUri) := eq_comm
  rw [namespaces, Declarations.byUri?_withoutXml, Declarations.byUri?_insertNew]
  simp only [hxsl]
  congr 2
  by_cases h : crosswalk.fallsBack
  · have h' : crosswalk.children.any (·.fallback.isEmitted) = true := h
    rw [if_pos h', Declarations.byUri?_insertNew, byUri?_foldl_insertOver]
    simp [Declarations.byUri?_empty, hrdf, h]
  · have h' : ¬ crosswalk.children.any (·.fallback.isEmitted) = true := h
    rw [if_neg h', byUri?_foldl_insertOver]
    simp [Declarations.byUri?_empty, h]

theorem byUri?_declarations (crosswalk : Crosswalk) (container : Option Element) (uri : String) :
    (crosswalk.declarations container).byUri? uri =
      if uri = xmlUri then none
      else
        (((lastSpace? crosswalk.elements uri).or
          (if crosswalk.fallsBack ∧ uri = rdfUri then some Namespace.rdf else none)).or
            (if uri = xslUri then some Namespace.xsl else none)).or
              (if (containerSpace container).uri = uri then some (containerSpace container)
                else none) := by
  rw [declarations, Declarations.byUri?_withoutXml, Declarations.byUri?_insertNew,
    byUri?_namespaces]
  by_cases h : uri = xmlUri <;> simp [h]

/-- The namespace of XML is never declared. -/
theorem uri_ne_xmlUri_of_mem {crosswalk : Crosswalk} {container : Option Element}
    {space : Namespace} (h : space ∈ (crosswalk.declarations container).toList) :
    space.uri ≠ xmlUri := by
  have hspace := Declarations.byUri?_uri_of_mem h
  rw [byUri?_declarations] at hspace
  intro hxml
  rw [if_pos hxml] at hspace
  cases hspace

end Crosswalk

end Concordance
