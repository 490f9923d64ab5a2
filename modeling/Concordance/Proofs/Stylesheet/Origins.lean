import Concordance.Proofs.Stylesheet.Declared

/-!
# Where declarations come from

Which namespaces a crosswalk declares is said for every crosswalk, whether it has a stylesheet or
not.  Of the elements with one URI the last gives the prefix, in whatever order and however often
they come; a fallback brings in RDF and every stylesheet its own language, with their usual
prefixes, where no element has these URIs; and the record container adds its namespace where
nothing else has its URI.
-/

namespace Concordance

open Namespace (xmlUri xslUri rdfUri)

namespace Crosswalk

/-! ## Origins -/

/-- The element is the last one of the crosswalk with its URI. -/
def IsLast (crosswalk : Crosswalk) (element : Element) : Prop :=
  ∃ before after, crosswalk.elements = before ++ element :: after ∧
    ∀ other ∈ after, other.space.uri ≠ element.space.uri

/-- A namespace that the crosswalk needs by itself, with the prefix that it needs it under. -/
inductive Needs (crosswalk : Crosswalk) : Namespace → Prop where
  | element {element : Element} (hlast : crosswalk.IsLast element) : Needs crosswalk element.space
  | fallback
      (hfalls : ∃ rule ∈ crosswalk.children, rule.fallback.isEmitted = true)
      (hnone : ∀ element ∈ crosswalk.elements, element.space.uri ≠ rdfUri) :
      Needs crosswalk Namespace.rdf
  | language (hnone : ∀ element ∈ crosswalk.elements, element.space.uri ≠ xslUri) :
      Needs crosswalk Namespace.xsl

/-- The declared namespaces are those that the crosswalk needs and the one from outside, if any,
without that of XML. -/
structure DeclaredExactly (crosswalk : Crosswalk) (outside : Option Namespace)
    (declared : Declarations) : Prop where
  ascending : declared.toList.Pairwise fun a b => a.uri < b.uri
  uri_iff : ∀ uri, (∃ space ∈ declared.toList, space.uri = uri) ↔
    uri ≠ xmlUri ∧
      ((∃ element ∈ crosswalk.elements, element.space.uri = uri) ∨ uri = xslUri ∨
        (uri = rdfUri ∧ ∃ rule ∈ crosswalk.children, rule.fallback.isEmitted = true) ∨
          ∃ space ∈ outside, space.uri = uri)
  mem_iff : ∀ space, space ∈ declared.toList ↔
    space.uri ≠ xmlUri ∧
      (crosswalk.Needs space ∨
        (space ∈ outside ∧ ∀ other, crosswalk.Needs other → other.uri ≠ space.uri))

variable {crosswalk : Crosswalk}

theorem lastSpace?_eq_some_iff {uri : String} {space : Namespace} :
    lastSpace? crosswalk.elements uri = some space ↔
      ∃ element, crosswalk.IsLast element ∧ element.space = space ∧ space.uri = uri := by
  rw [lastSpace?, Option.map_eq_some_iff]
  refine exists_congr fun element => ?_
  -- what comes before the element in the reversed list comes after it in the list
  rw [List.find?_eq_some_iff_append]
  constructor
  · rintro ⟨⟨huri, after, before, hreverse, hafter⟩, rfl⟩
    have huri : element.space.uri = uri := by simpa using huri
    refine ⟨⟨before.reverse, after.reverse, ?_, fun other hother => ?_⟩, rfl, huri⟩
    · have helements := congrArg List.reverse hreverse
      simpa using helements
    · have hne := hafter other (List.mem_reverse.1 hother)
      rw [huri]
      simpa using hne
  · rintro ⟨⟨before, after, helements, hafter⟩, rfl, rfl⟩
    refine ⟨⟨by simp, after.reverse, before.reverse, ?_, fun other hother => ?_⟩, rfl⟩
    · rw [helements]
      simp
    · simpa using hafter other (List.mem_reverse.1 hother)

theorem fallsBack_iff :
    crosswalk.fallsBack = true ↔ ∃ rule ∈ crosswalk.children, rule.fallback.isEmitted = true :=
  List.any_eq_true

/-- The namespace that the crosswalk needs under a URI. -/
def needed? (crosswalk : Crosswalk) (uri : String) : Option Namespace :=
  ((lastSpace? crosswalk.elements uri).or
    (if crosswalk.fallsBack ∧ uri = rdfUri then some Namespace.rdf else none)).or
      (if uri = xslUri then some Namespace.xsl else none)

theorem needed?_eq_some_iff {uri : String} {space : Namespace} :
    crosswalk.needed? uri = some space ↔ crosswalk.Needs space ∧ space.uri = uri := by
  have hrdf : rdfUri ≠ xslUri := by decide
  rw [needed?]
  constructor
  · intro h
    rcases Option.or_eq_some_iff.1 h with h | ⟨hneither, hxsl⟩
    · rcases Option.or_eq_some_iff.1 h with hlast | ⟨hnone, hfallback⟩
      · obtain ⟨element, helement, rfl, huri⟩ := lastSpace?_eq_some_iff.1 hlast
        exact ⟨.element helement, huri⟩
      · split at hfallback
        next hfalls =>
          obtain ⟨hfalls, rfl⟩ := hfalls
          cases hfallback
          exact ⟨.fallback (fallsBack_iff.1 hfalls) (lastSpace?_eq_none_iff.1 hnone), rfl⟩
        next => cases hfallback
    · split at hxsl
      next huri =>
        subst huri
        cases hxsl
        have hnone := (Option.or_eq_none_iff.1 hneither).1
        exact ⟨.language (lastSpace?_eq_none_iff.1 hnone), rfl⟩
      next => cases hxsl
  · rintro ⟨hneeds, rfl⟩
    cases hneeds with
    | @element element hlast =>
      rw [lastSpace?_eq_some_iff.2 ⟨element, hlast, rfl, rfl⟩]
      rfl
    | fallback hfalls hnone =>
      have hlast : lastSpace? crosswalk.elements Namespace.rdf.uri = none :=
        lastSpace?_eq_none_iff.2 hnone
      rw [hlast, if_pos ⟨fallsBack_iff.2 hfalls, rfl⟩]
      rfl
    | language hnone =>
      have hlast : lastSpace? crosswalk.elements Namespace.xsl.uri = none :=
        lastSpace?_eq_none_iff.2 hnone
      have hother : ¬(crosswalk.fallsBack ∧ Namespace.xsl.uri = rdfUri) :=
        fun h => hrdf h.2.symm
      rw [hlast, if_neg hother]
      rfl

theorem IsLast.mem_elements {element : Element} (h : crosswalk.IsLast element) :
    element ∈ crosswalk.elements := by
  obtain ⟨before, after, helements, -⟩ := h
  rw [helements]
  exact List.mem_append_right before List.mem_cons_self

/-- A URI is needed if an element has it, for the stylesheet language, or for a fallback. -/
theorem exists_needs_iff {uri : String} :
    (∃ space, crosswalk.Needs space ∧ space.uri = uri) ↔
      (∃ element ∈ crosswalk.elements, element.space.uri = uri) ∨ uri = xslUri ∨
        (uri = rdfUri ∧ ∃ rule ∈ crosswalk.children, rule.fallback.isEmitted = true) := by
  constructor
  · rintro ⟨space, hneeds, rfl⟩
    cases hneeds with
    | @element element hlast => exact .inl ⟨element, hlast.mem_elements, rfl⟩
    | fallback hfalls => exact .inr (.inr ⟨rfl, hfalls⟩)
    | language => exact .inr (.inl rfl)
  · intro h
    cases hlast : lastSpace? crosswalk.elements uri with
    | some space =>
      obtain ⟨element, helement, rfl, huri⟩ := lastSpace?_eq_some_iff.1 hlast
      exact ⟨element.space, .element helement, huri⟩
    | none =>
      have hnone := lastSpace?_eq_none_iff.1 hlast
      rcases h with ⟨element, hmem, huri⟩ | rfl | ⟨rfl, hfalls⟩
      · exact absurd huri (hnone element hmem)
      · exact ⟨Namespace.xsl, .language hnone, rfl⟩
      · exact ⟨Namespace.rdf, .fallback hfalls hnone, rfl⟩

/-! ## Exactness -/

/-- Declarations are exact if under every URI but that of XML stands what the crosswalk needs, else
what comes from outside. -/
theorem declaredExactly_of_byUri? {outside : Option Namespace} {declared : Declarations}
    (h : ∀ uri, declared.byUri? uri =
      if uri = xmlUri then none
      else (crosswalk.needed? uri).or (outside.filter (·.uri = uri))) :
    crosswalk.DeclaredExactly outside declared := by
  have hmem : ∀ space, space ∈ declared.toList ↔ space.uri ≠ xmlUri ∧
      (crosswalk.Needs space ∨
        (space ∈ outside ∧ ∀ other, crosswalk.Needs other → other.uri ≠ space.uri)) := by
    intro space
    have hbyUri : space ∈ declared.toList ↔ declared.byUri? space.uri = some space := by
      simp [Declarations.byUri?_eq_some_iff]
    have hnone : crosswalk.needed? space.uri = none ↔
        ∀ other, crosswalk.Needs other → other.uri ≠ space.uri := by
      rw [Option.eq_none_iff_forall_ne_some]
      simp [needed?_eq_some_iff]
    rw [hbyUri, h]
    by_cases hxml : space.uri = xmlUri
    · simp [hxml]
    · simp only [hxml, if_false, Option.or_eq_some_iff, needed?_eq_some_iff, hnone,
        Option.filter_eq_some_iff]
      simp [hxml, and_comm]
  refine ⟨?_, fun uri => ?_, hmem⟩
  · exact declared.ascending.imp fun hlt => compareOfLessAndEq_eq_lt.1 hlt
  · rw [← or_assoc, ← or_assoc, or_assoc (b := uri = xslUri), ← exists_needs_iff]
    constructor
    · rintro ⟨space, hspace, rfl⟩
      obtain ⟨hxml, hneeds | ⟨houtside, -⟩⟩ := (hmem space).1 hspace
      · exact ⟨hxml, .inl ⟨space, hneeds, rfl⟩⟩
      · exact ⟨hxml, .inr ⟨space, houtside, rfl⟩⟩
    · rintro ⟨hxml, h⟩
      by_cases hneeds : ∃ space, crosswalk.Needs space ∧ space.uri = uri
      · obtain ⟨space, hspace, rfl⟩ := hneeds
        exact ⟨space, (hmem space).2 ⟨hxml, .inl hspace⟩, rfl⟩
      · obtain ⟨space, houtside, rfl⟩ := h.resolve_left hneeds
        have hnone : ∀ other, crosswalk.Needs other → other.uri ≠ space.uri :=
          fun other hother huri => hneeds ⟨other, hother, huri⟩
        exact ⟨space, (hmem space).2 ⟨hxml, .inr ⟨houtside, hnone⟩⟩, rfl⟩

theorem mem_elements_iff {element : Element} :
    element ∈ crosswalk.elements ↔
      (∃ rule ∈ crosswalk.parent :: crosswalk.children,
        element ∈ rule.tag.elements ∨ ∃ c ∈ rule.attributes.toList, element ∈ c.elements) ∨
        crosswalk.documentId = some element := by
  simp [elements, Rule.elements, or_assoc]

/-- What is declared is exact, with a record container and without: every URI of an element, of the
stylesheet language, of RDF for a fallback and of the container is declared once, that of XML never,
and each with the prefix of its last element, else with the usual one, else with that of the
container. -/
theorem declarations_exact (crosswalk : Crosswalk) (container : Option Element) :
    (∀ element, element ∈ crosswalk.elements ↔
      (∃ rule ∈ crosswalk.parent :: crosswalk.children,
        element ∈ rule.tag.elements ∨ ∃ c ∈ rule.attributes.toList, element ∈ c.elements) ∨
        crosswalk.documentId = some element) ∧
      crosswalk.DeclaredExactly none crosswalk.namespaces ∧
        crosswalk.DeclaredExactly (some (container.elim Namespace.rdf Element.space))
          (crosswalk.declarations container) := by
  refine ⟨fun element => mem_elements_iff, declaredExactly_of_byUri? fun uri => ?_,
    declaredExactly_of_byUri? fun uri => ?_⟩
  · rw [byUri?_namespaces, ← needed?]
    simp
  · have hspace : container.elim Namespace.rdf Element.space = containerSpace container := by
      cases container <;> rfl
    rw [byUri?_declarations, ← needed?, hspace]
    simp [Option.filter_some]

end Crosswalk

end Concordance
