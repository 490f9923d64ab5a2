import Concordance.Proofs.Stylesheet.Acceptance
import Concordance.Proofs.Stylesheet.TakenApart

/-!
# Adding a rule to a crosswalk

A rule needs nothing new if every namespace of its elements is declared already, under the prefix
that the rule writes it with, and if RDF is declared, whose names a fallback is written with.
Adding such a rule to a crosswalk that has a stylesheet leaves the declarations as they are and
gives a crosswalk that has a stylesheet again.

There is one exception.  The usual prefix of RDF comes before that of the record container, so the
first fallback of a crosswalk that names nothing else of RDF takes RDF away from a container that
writes it with another prefix.
-/

namespace Concordance

open Namespace (xmlUri xslUri rdfUri)

/-! ## Fallbacks of rules that say the same -/

namespace Rule

/-- A fallback is emitted where one relationship becomes another and no other attribute is copied to
the one that names the related concept. -/
theorem isEmitted_iff {rule : Rule} :
    rule.fallback.isEmitted = true ↔
      (rule.tag.source.isRelationship = true ∧ rule.tag.target.isRelationship = true) ∧
        ∀ c ∈ rule.attributes.toList, c.target.isResource = true → c.source.isResource = true := by
  have hfind : rule.resourceAttributes.find? (fun c => !c.source.isResource) = none ↔
      ∀ c ∈ rule.attributes.toList, c.target.isResource = true → c.source.isResource = true := by
    simp [resourceAttributes, mem_canonicalAttributes]
  rw [← hfind, ← Bool.and_eq_true, fallback]
  by_cases htag : (rule.tag.source.isRelationship && rule.tag.target.isRelationship) = true
  · rw [if_pos htag]
    cases rule.resourceAttributes.find? fun c => !c.source.isResource with
    | none => simp [htag, Fallback.isEmitted]
    | some explicit => simp [Fallback.isEmitted]
  · rw [if_neg htag]
    simp [htag, Fallback.isEmitted]

/-- Prefixes take no part in whether a fallback is emitted. -/
theorem isEmitted_of_expanded {a b : Rule} (h : a.expanded = b.expanded)
    (hemitted : a.fallback.isEmitted = true) : b.fallback.isEmitted = true := by
  obtain ⟨htag, hrest⟩ := Prod.mk.inj h
  obtain ⟨hattributes, -⟩ := Prod.mk.inj hrest
  obtain ⟨hsource, htarget⟩ := Prod.mk.inj htag
  have relationship {x y : Element} (hxy : x.expanded = y.expanded)
      (hx : x.isRelationship = true) : y.isRelationship = true := by
    rw [Element.expanded, Element.expanded, ExpandedName.mk.injEq] at hxy
    rw [Element.isRelationship, ← hxy.1, ← hxy.2]
    exact hx
  have resource {x y : Element} (hxy : x.expanded = y.expanded) (hx : x.isResource = true) :
      y.isResource = true := by
    rw [Element.expanded, Element.expanded, ExpandedName.mk.injEq] at hxy
    rw [Element.isResource, ← hxy.1, ← hxy.2]
    exact hx
  rw [isEmitted_iff] at hemitted ⊢
  refine ⟨⟨relationship hsource hemitted.1.1, relationship htarget hemitted.1.2⟩, ?_⟩
  intro c hc hresource
  have hmem : c.expanded ∈ a.attributes.toList.map Correspondence.expanded := by
    rw [hattributes]
    exact List.mem_map_of_mem hc
  obtain ⟨d, hd, hdc⟩ := List.mem_map.1 hmem
  obtain ⟨hds, hdt⟩ := Prod.mk.inj hdc
  exact resource hds (hemitted.2 d hd (resource hdt.symm hresource))

/-- Every namespace that the rule needs is declared, that of RDF included, and under the prefix that
the rule writes it with; the namespace of XML only has its own prefix. -/
structure NeedsNothingNew (rule : Rule) (declared : Declarations) : Prop where
  rdf_declared : (declared.byUri? rdfUri).isSome = true
  space_mem : ∀ element ∈ rule.elements,
    (element.space.uri = xmlUri ∧ element.space.label = "xml") ∨ element.space ∈ declared.toList

end Rule

namespace Crosswalk

variable {crosswalk : Crosswalk} {container : Option Element} {rule : Rule}

/-! ## A crosswalk with one rule more -/

/-- The crosswalk with a rule behind its child rules. -/
def appended (crosswalk : Crosswalk) (rule : Rule) : Crosswalk :=
  { crosswalk with children := crosswalk.children ++ [rule] }

/-- A rule is added unless a child rule says the same. -/
theorem withChild_cases (crosswalk : Crosswalk) (rule : Rule) :
    ((∃ other ∈ crosswalk.children, other.expanded = rule.expanded) ∧
        crosswalk.withChild rule = crosswalk) ∨
      crosswalk.withChild rule = crosswalk.appended rule := by
  rw [withChild]
  by_cases h : crosswalk.children.any (fun other => other.expanded == rule.expanded) = true
  · rw [if_pos h]
    exact Or.inl ⟨by simpa using h, rfl⟩
  · rw [if_neg h]
    exact Or.inr rfl

theorem mem_elements_appended_iff {element : Element} :
    element ∈ (crosswalk.appended rule).elements ↔
      element ∈ crosswalk.elements ∨ element ∈ rule.elements := by
  simp only [elements, appended, List.flatMap_append, List.flatMap_cons, List.flatMap_nil,
    List.append_nil, List.mem_append]
  tauto

theorem fallsBack_appended_iff :
    (crosswalk.appended rule).fallsBack = true ↔
      crosswalk.fallsBack = true ∨ rule.fallback.isEmitted = true := by
  simp [fallsBack, appended]

/-- What passed the checks is declared as it is written. -/
theorem byUri?_eq_space
    (hcheck : (crosswalk.declarations container).check
      (crosswalk.elements ++ container.toList) = .ok ())
    {element : Element} (hmem : element ∈ crosswalk.elements ++ container.toList)
    (hxml : element.space.uri ≠ xmlUri) :
    (crosswalk.declarations container).byUri? element.space.uri = some element.space := by
  obtain ⟨bound, hbound⟩ := Option.isSome_iff_exists.1 (byUri?_isSome_of_mem hmem hxml)
  have hfits := ((Declarations.check_eq_ok_iff _ _).1 hcheck).2 element hmem
  have huri := (Declarations.byUri?_eq_some_iff.1 hbound).2
  rw [hbound, Namespace.eq_of_label_of_uri (hfits.label_eq hxml bound hbound) huri]

/-- The rule is the first to need names of RDF, while nothing but the record container declares RDF,
under a prefix of its own. -/
structure Displaced (crosswalk : Crosswalk) (container : Option Element) (rule : Rule) : Prop where
  isEmitted : rule.fallback.isEmitted = true
  uri_ne : ∀ element ∈ crosswalk.elements ++ rule.elements, element.space.uri ≠ rdfUri
  rdf_not_declared : Namespace.rdf ∉ (crosswalk.declarations container).toList

section Appended

variable
  (hcheck : (crosswalk.declarations container).check
    (crosswalk.elements ++ container.toList) = .ok ())
  (hneeds : rule.NeedsNothingNew (crosswalk.declarations container))

include hcheck hneeds

theorem byUri?_eq_space_appended {element : Element}
    (hmem : element ∈ (crosswalk.appended rule).elements) (hxml : element.space.uri ≠ xmlUri) :
    (crosswalk.declarations container).byUri? element.space.uri = some element.space := by
  rcases mem_elements_appended_iff.1 hmem with hmem | hmem
  · exact byUri?_eq_space hcheck (List.mem_append_left _ hmem) hxml
  · rcases hneeds.space_mem element hmem with ⟨hspace, -⟩ | hspace
    · exact absurd hspace hxml
    · exact Declarations.byUri?_uri_of_mem hspace

/-- Under every URI the same is declared as before. -/
theorem declarations_appended (hkept : ¬crosswalk.Displaced container rule) :
    (crosswalk.appended rule).declarations container = crosswalk.declarations container := by
  refine Declarations.eq_of_byUri?_eq fun uri => ?_
  by_cases hxml : uri = xmlUri
  · rw [byUri?_declarations, byUri?_declarations, if_pos hxml, if_pos hxml]
  cases hlast : lastSpace? (crosswalk.appended rule).elements uri with
  | some space =>
    -- the last element with the URI is of the crosswalk or of the rule, and agrees either way
    obtain ⟨element, hmem, hspace, huri⟩ := exists_of_lastSpace?_eq_some hlast
    have hdeclared := byUri?_eq_space_appended hcheck hneeds hmem (by rw [hspace, huri]; exact hxml)
    rw [hspace, huri] at hdeclared
    rw [hdeclared, byUri?_declarations, if_neg hxml, hlast]
    simp
  | none =>
    have hnone := lastSpace?_eq_none_iff.1 hlast
    have hnone' : lastSpace? crosswalk.elements uri = none :=
      lastSpace?_eq_none_iff.2 fun element hmem =>
        hnone element (mem_elements_appended_iff.2 (Or.inl hmem))
    by_cases hneeded : uri = rdfUri ∧ rule.fallback.isEmitted = true
    · obtain ⟨rfl, hemitted⟩ := hneeded
      -- no element names RDF, so it is declared with its usual prefix before and after
      have hmem : Namespace.rdf ∈ (crosswalk.declarations container).toList := by
        by_contra hrdf
        refine hkept ⟨hemitted, fun element hmem => ?_, hrdf⟩
        exact hnone element (mem_elements_appended_iff.2 (List.mem_append.1 hmem))
      have hfalls : (crosswalk.appended rule).fallsBack = true :=
        fallsBack_appended_iff.2 (Or.inr hemitted)
      rw [byUri?_rdfUri hnone (Or.inr hfalls)]
      exact (Declarations.byUri?_uri_of_mem hmem).symm
    · have hsame : ((crosswalk.appended rule).fallsBack = true ∧ uri = rdfUri) ↔
          (crosswalk.fallsBack = true ∧ uri = rdfUri) := by
        rw [fallsBack_appended_iff]
        tauto
      rw [byUri?_declarations, byUri?_declarations, if_neg hxml, if_neg hxml, hlast, hnone']
      simp only [hsame]

theorem check_appended (hkept : ¬crosswalk.Displaced container rule) :
    ((crosswalk.appended rule).declarations container).check
      ((crosswalk.appended rule).elements ++ container.toList) = .ok () := by
  obtain ⟨hlabels, hfits⟩ := (Declarations.check_eq_ok_iff _ _).1 hcheck
  rw [declarations_appended hcheck hneeds hkept]
  refine (Declarations.check_eq_ok_iff _ _).2 ⟨hlabels, fun element hmem => ?_⟩
  rw [List.mem_append, mem_elements_appended_iff, or_assoc] at hmem
  rcases hmem with hmem | hmem | hmem
  · exact hfits element (List.mem_append_left _ hmem)
  · rcases hneeds.space_mem element hmem with ⟨hxml, hlabel⟩ | hspace
    · exact ⟨fun _ => hlabel, fun hne => absurd hxml hne⟩
    · refine ⟨fun hxml => absurd hxml (uri_ne_xmlUri_of_mem hspace), fun _ bound hbound => ?_⟩
      rw [Declarations.byUri?_uri_of_mem hspace] at hbound
      rw [Option.some.inj hbound]
  · exact hfits element (List.mem_append_right _ hmem)

/-- Where RDF is taken away from the record container, the container does not pass the checks. -/
theorem check_appended_ne_ok (h : crosswalk.Displaced container rule) :
    ((crosswalk.appended rule).declarations container).check
      ((crosswalk.appended rule).elements ++ container.toList) ≠ .ok () := by
  intro hcheck'
  obtain ⟨bound, hbound⟩ := Option.isSome_iff_exists.1 hneeds.rdf_declared
  have hne : ∀ element ∈ crosswalk.elements, element.space.uri ≠ rdfUri :=
    fun element hmem => h.uri_ne element (List.mem_append_left _ hmem)
  have hnot : ¬(container = none ∨ crosswalk.fallsBack) := by
    intro hrdf
    have hdeclared := byUri?_rdfUri hne hrdf
    exact h.rdf_not_declared (Declarations.byUri?_eq_some_iff.1 hdeclared).1
  rw [not_or] at hnot
  obtain ⟨element, rfl⟩ := Option.ne_none_iff_exists'.1 hnot.1
  have hspace : element.space.uri = rdfUri := by
    -- nothing else is left to declare RDF
    have hxml : rdfUri ≠ xmlUri := by decide
    have hxsl : rdfUri ≠ xslUri := by decide
    rw [byUri?_declarations, if_neg hxml, lastSpace?_eq_none_iff.2 hne] at hbound
    by_contra huri
    simp [hnot.2, hxsl, containerSpace, huri] at hbound
  have hxml : element.space.uri ≠ xmlUri := by
    rw [hspace]
    decide
  have hfalls : (crosswalk.appended rule).fallsBack = true :=
    fallsBack_appended_iff.2 (Or.inr h.isEmitted)
  have hnone : ∀ other ∈ (crosswalk.appended rule).elements, other.space.uri ≠ rdfUri :=
    fun other hmem => h.uri_ne other (List.mem_append.2 (mem_elements_appended_iff.1 hmem))
  have hafter := byUri?_eq_space hcheck' (List.mem_append_right _ (by simp)) hxml
  have hbefore := byUri?_eq_space hcheck (List.mem_append_right _ (by simp)) hxml
  rw [hspace, byUri?_rdfUri hnone (Or.inr hfalls)] at hafter
  rw [← Option.some.inj hafter] at hbefore
  exact h.rdf_not_declared (Declarations.byUri?_eq_some_iff.1 hbefore).1

end Appended

/-! ## Stylesheets -/

theorem exists_stylesheet_iff :
    (∃ text, crosswalk.stylesheet container = .ok text) ↔ crosswalk.documentId ≠ none ∧
      (crosswalk.declarations container).check (crosswalk.elements ++ container.toList) =
        .ok () := by
  simp only [stylesheet, map_eq_ok_iff]
  constructor
  · rintro ⟨-, template, htemplate, -⟩
    obtain ⟨documentId, hid, hcheck, -⟩ := template_eq_ok_iff.1 htemplate
    exact ⟨by simp [hid], hcheck⟩
  · rintro ⟨hid, hcheck⟩
    obtain ⟨documentId, hid⟩ := Option.ne_none_iff_exists'.1 hid
    exact ⟨_, _, template_eq_ok_iff.2 ⟨documentId, hid, hcheck, rfl⟩, rfl⟩

/-- A rule that needs nothing new keeps the declarations of a crosswalk and its having a stylesheet,
unless it takes RDF away from the record container; then there is no stylesheet any more. -/
theorem withChild_keeps_stylesheet
    (haccepted : ∃ text, crosswalk.stylesheet container = .ok text)
    (hneeds : rule.NeedsNothingNew (crosswalk.declarations container)) :
    (¬crosswalk.Displaced container rule →
      (∃ text, (crosswalk.withChild rule).stylesheet container = .ok text) ∧
        (crosswalk.withChild rule).declarations container = crosswalk.declarations container) ∧
      (crosswalk.Displaced container rule →
        ¬∃ text, (crosswalk.withChild rule).stylesheet container = .ok text) := by
  obtain ⟨hid, hcheck⟩ := exists_stylesheet_iff.1 haccepted
  rcases withChild_cases crosswalk rule with ⟨⟨other, hother, hsame⟩, heq⟩ | heq
  · rw [heq]
    refine ⟨fun _ => ⟨haccepted, rfl⟩, fun h => ?_⟩
    -- the rule that says the same has a fallback already, which declares RDF as usual
    have hfalls : crosswalk.fallsBack = true :=
      List.any_eq_true.2 ⟨other, hother, Rule.isEmitted_of_expanded hsame.symm h.isEmitted⟩
    have hdeclared : (crosswalk.declarations container).byUri? rdfUri = some Namespace.rdf :=
      byUri?_rdfUri (fun element hmem => h.uri_ne element (List.mem_append_left _ hmem))
        (Or.inr hfalls)
    exact absurd (Declarations.byUri?_eq_some_iff.1 hdeclared).1 h.rdf_not_declared
  · rw [heq]
    constructor
    · intro hkept
      exact ⟨exists_stylesheet_iff.2 ⟨hid, check_appended hcheck hneeds hkept⟩,
        declarations_appended hcheck hneeds hkept⟩
    · intro h hstylesheet
      exact check_appended_ne_ok hcheck hneeds h (exists_stylesheet_iff.1 hstylesheet).2

/-- A crosswalk of concepts that names nothing of RDF. -/
def notations : Crosswalk where
  parent := .ofTag
    ⟨⟨Namespace.skos, "Concept", .refl true⟩, ⟨Namespace.skos, "Concept", .refl true⟩⟩
  children := []
  documentId := some ⟨Namespace.skos, "notation", .refl true⟩

/-- The rule that relates concepts to broader ones. -/
def broader : Rule :=
  .ofTag ⟨⟨Namespace.skos, "broader", .refl true⟩, ⟨Namespace.skos, "broader", .refl true⟩⟩

/-- A record container of RDF, whose namespace may have another prefix than the usual one. -/
def recordsOf (space : Namespace) : Element :=
  ⟨space, "RDF", .refl true⟩

/-- The namespace of RDF with another prefix. -/
def foo : Namespace := ⟨"foo", rdfUri, .refl true, Namespace.rdf.uri_notBlank⟩

theorem exists_stylesheet_notations (space : Namespace) (h : space = Namespace.rdf ∨ space = foo) :
    ∃ text, notations.stylesheet (some (recordsOf space)) = .ok text := by
  refine exists_stylesheet_iff.2 ⟨by decide, ?_⟩
  rw [Option.toList_some]
  rcases h with rfl | rfl
  · refine (check_declarations_eq_ok_iff notations (some (recordsOf Namespace.rdf))).2 ?_
    decide
  · refine (check_declarations_eq_ok_iff notations (some (recordsOf foo))).2 ?_
    decide

theorem broader_needsNothingNew (space : Namespace) (h : space = Namespace.rdf ∨ space = foo) :
    broader.NeedsNothingNew (notations.declarations (some (recordsOf space))) := by
  obtain ⟨-, hcheck⟩ := exists_stylesheet_iff.1 (exists_stylesheet_notations space h)
  have huri : space.uri = rdfUri := by
    rcases h with rfl | rfl
    · rfl
    · rfl
  have hskos := byUri?_eq_space hcheck (List.mem_append_left _ (List.mem_cons_self ..)) (by decide)
  have hrdf : (notations.declarations (some (recordsOf space))).byUri? rdfUri = some space := by
    have hxml : (recordsOf space).space.uri ≠ xmlUri := by
      rw [recordsOf, huri]
      decide
    rw [← huri]
    exact byUri?_eq_space hcheck (List.mem_append_right _ (by simp)) hxml
  constructor
  · rw [hrdf]
    rfl
  · intro element hmem
    have hspace : element.space = Namespace.skos := by
      revert element
      decide
    rw [hspace]
    exact Or.inr (Declarations.byUri?_eq_some_iff.1 hskos).1

theorem withChild_broader_keeps_stylesheet :
    (∃ text, notations.stylesheet (some (recordsOf Namespace.rdf)) = .ok text) ∧
      broader.NeedsNothingNew (notations.declarations (some (recordsOf Namespace.rdf))) ∧
        (∃ text, (notations.withChild broader).stylesheet (some (recordsOf Namespace.rdf)) =
          .ok text) ∧
          (notations.withChild broader).declarations (some (recordsOf Namespace.rdf)) =
            notations.declarations (some (recordsOf Namespace.rdf)) := by
  have haccepted := exists_stylesheet_notations Namespace.rdf (Or.inl rfl)
  have hneeds := broader_needsNothingNew Namespace.rdf (Or.inl rfl)
  have hkept : ¬notations.Displaced (some (recordsOf Namespace.rdf)) broader := by
    intro h
    refine h.rdf_not_declared ?_
    obtain ⟨-, hcheck⟩ := exists_stylesheet_iff.1 haccepted
    have hmem : recordsOf Namespace.rdf ∈
        notations.elements ++ (some (recordsOf Namespace.rdf)).toList :=
      List.mem_append_right _ (by simp)
    have hrdf := byUri?_eq_space hcheck hmem (by decide)
    exact (Declarations.byUri?_eq_some_iff.1 hrdf).1
  exact ⟨haccepted, hneeds, (withChild_keeps_stylesheet haccepted hneeds).1 hkept⟩

/-- A container that writes RDF with its own prefix does not fit the stylesheet any more once a rule
relates concepts. -/
theorem withChild_broader_displaces_container :
    (∃ text, notations.stylesheet (some (recordsOf foo)) = .ok text) ∧
      broader.NeedsNothingNew (notations.declarations (some (recordsOf foo))) ∧
        ¬∃ text, (notations.withChild broader).stylesheet (some (recordsOf foo)) = .ok text := by
  have haccepted := exists_stylesheet_notations foo (Or.inr rfl)
  have hneeds := broader_needsNothingNew foo (Or.inr rfl)
  refine ⟨haccepted, hneeds, fun hstylesheet => ?_⟩
  obtain ⟨-, hcheck⟩ := exists_stylesheet_iff.1 hstylesheet
  have hadded : notations.withChild broader = notations.appended broader := rfl
  rw [hadded] at hcheck
  have hemitted : broader.fallback.isEmitted = true :=
    Rule.isEmitted_iff.2 ⟨⟨by decide, by decide⟩, by decide⟩
  have hrdf : ((notations.appended broader).declarations (some (recordsOf foo))).byUri? rdfUri =
      some Namespace.rdf :=
    byUri?_rdfUri (by decide) (Or.inr (fallsBack_appended_iff.2 (Or.inr hemitted)))
  have hmem : recordsOf foo ∈
      (notations.appended broader).elements ++ (some (recordsOf foo)).toList :=
    List.mem_append_right _ (by simp)
  have hfoo := byUri?_eq_space hcheck hmem (by decide)
  have hlabel := congrArg (Option.map Namespace.label) (hrdf.symm.trans hfoo)
  revert hlabel
  decide

end Crosswalk

end Concordance
