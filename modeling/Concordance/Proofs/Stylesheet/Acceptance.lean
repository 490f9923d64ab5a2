import Concordance.Proofs.Outcome
import Concordance.Proofs.Stylesheet.Written
import Mathlib.Data.List.Nodup

/-!
# Which crosswalks have a stylesheet

A stylesheet binds prefixes to URIs on its root.  The bindings that a crosswalk asks for are those
of its elements and of the record container, with the usual ones of RDF and of the stylesheet
language where no element of the crosswalk says otherwise.  A crosswalk has a stylesheet exactly
when it identifies its records and these bindings are one to one and leave alone what XML reserves.

The declarations keep one namespace for each URI, so a second prefix of a URI does not show in
them; the checks of the elements are what brings it to light.
-/

namespace Concordance

open Namespace (xmlUri xslUri rdfUri)

/-! ## The two checks -/

namespace Declarations

/-- Whether XML keeps a prefix for itself. -/
def Reserved (label : String) : Prop :=
  label = "xml" ∨ label = "xmlns"

theorem checkLabels_eq_ok_iff (seen spaces : List Namespace) :
    checkLabels seen spaces = .ok () ↔
      (∀ space ∈ spaces, ¬Reserved space.label) ∧
        (∀ space ∈ spaces, ∀ other ∈ seen, other.label ≠ space.label) ∧
          spaces.Pairwise fun a b => a.label ≠ b.label := by
  induction spaces generalizing seen with
  | nil => simp [checkLabels]
  | cons space rest ih =>
    rw [checkLabels]
    by_cases hreserved : space.label = "xml" ∨ space.label = "xmlns"
    · rw [if_pos hreserved]
      constructor
      · intro h
        cases h
      · rintro ⟨hfree, -⟩
        exact absurd hreserved (hfree space List.mem_cons_self)
    · rw [if_neg hreserved]
      cases hseen : seen.find? (·.label == space.label) with
      | some other =>
        have hmem := List.mem_of_find?_eq_some hseen
        have hlabel : other.label = space.label := by simpa using List.find?_some hseen
        constructor
        · intro h
          cases h
        · rintro ⟨-, hfresh, -⟩
          exact absurd hlabel (hfresh space List.mem_cons_self other hmem)
      | none =>
        have hfresh : ∀ other ∈ seen, other.label ≠ space.label := by simpa using hseen
        rw [ih]
        simp only [List.forall_mem_cons, List.pairwise_cons]
        constructor
        · rintro ⟨hrest, hseen', hpairwise⟩
          exact ⟨⟨hreserved, hrest⟩, ⟨hfresh, fun s hs => (hseen' s hs).2⟩,
            fun s hs => (hseen' s hs).1, hpairwise⟩
        · rintro ⟨⟨-, hrest⟩, ⟨-, hseen'⟩, hhead, hpairwise⟩
          exact ⟨hrest, fun s hs => ⟨hhead s hs, hseen' s hs⟩, hpairwise⟩

theorem setting?_of_checkLabels_eq_error {seen spaces : List Namespace} {error : StylesheetError}
    (h : checkLabels seen spaces = .error error) : error.setting? = some "namespaces" := by
  induction spaces generalizing seen with
  | nil => cases h
  | cons space rest ih =>
    rw [checkLabels] at h
    split at h
    · cases h
      rfl
    · split at h
      · cases h
        rfl
      · exact ih h

/-- An element fits declarations if it has the prefix of XML in the namespace of XML, and the
declared prefix in a declared one. -/
structure Fits (declared : Declarations) (element : Element) : Prop where
  xml_label : element.space.uri = xmlUri → element.space.label = "xml"
  label_eq : element.space.uri ≠ xmlUri → ∀ bound,
    declared.byUri? element.space.uri = some bound → bound.label = element.space.label

theorem checkElement_eq_ok_iff (declared : Declarations) (element : Element) :
    declared.checkElement element = .ok () ↔ declared.Fits element := by
  rw [checkElement]
  constructor
  · intro h
    split at h
    next hxml =>
      split at h
      next hlabel => exact ⟨fun _ => hlabel, fun hne => absurd hxml hne⟩
      next => cases h
    next hxml =>
      refine ⟨fun he => absurd he hxml, fun _ bound hbound => ?_⟩
      simp only [hbound] at h
      split at h
      next hlabel => exact hlabel
      next => cases h
  · intro h
    split
    next hxml => rw [if_pos (h.xml_label hxml)]
    next hxml =>
      split
      next bound hbound => rw [if_pos (h.label_eq hxml bound hbound)]
      next => rfl

theorem setting?_of_checkElement_eq_error {declared : Declarations} {element : Element}
    {error : StylesheetError} (h : declared.checkElement element = .error error) :
    error.setting? = some "namespaces" := by
  rw [checkElement] at h
  split at h
  · split at h
    · cases h
    · cases h
      rfl
  · split at h
    · split at h
      · cases h
      · cases h
        rfl
    · cases h

theorem check_eq_ok_iff (declared : Declarations) (elements : List Element) :
    declared.check elements = .ok () ↔
      ((∀ space ∈ declared.toList, ¬Reserved space.label) ∧
        declared.toList.Pairwise fun a b => a.label ≠ b.label) ∧
          ∀ element ∈ elements, declared.Fits element := by
  rw [check, check_bind_eq_ok_iff, checkLabels_eq_ok_iff, forM_eq_ok_iff]
  simp only [checkElement_eq_ok_iff, List.not_mem_nil, false_imp_iff, implies_true, true_and]

/-- Every failure of the checks is about the namespaces. -/
theorem setting?_of_check_eq_error {declared : Declarations} {elements : List Element}
    {error : StylesheetError} (h : declared.check elements = .error error) :
    error.setting? = some "namespaces" := by
  rw [check, bind_eq_error_iff] at h
  rcases h with h | ⟨-, -, h⟩
  · exact setting?_of_checkLabels_eq_error h
  · obtain ⟨element, -, h⟩ := exists_of_forM_eq_error h
    exact setting?_of_checkElement_eq_error h

end Declarations

/-! ## The bindings of a crosswalk -/

namespace Crosswalk

/-- The prefixes with URIs that the stylesheet has to bind, whether or not they agree. -/
def bindings (crosswalk : Crosswalk) (container : Option Element) : List Namespace :=
  ((crosswalk.elements ++ container.toList).map Element.space).filter (·.uri ≠ xmlUri) ++
    (if (∀ element ∈ crosswalk.elements, element.space.uri ≠ rdfUri) ∧
        (container = none ∨ crosswalk.fallsBack) then [Namespace.rdf] else []) ++
      (if ∀ element ∈ crosswalk.elements, element.space.uri ≠ xslUri then [Namespace.xsl] else [])

theorem mem_bindings_iff {crosswalk : Crosswalk} {container : Option Element}
    {space : Namespace} :
    space ∈ crosswalk.bindings container ↔
      (space.uri ≠ xmlUri ∧
        ∃ element ∈ crosswalk.elements ++ container.toList, element.space = space) ∨
      (((∀ element ∈ crosswalk.elements, element.space.uri ≠ rdfUri) ∧
        (container = none ∨ crosswalk.fallsBack)) ∧ space = Namespace.rdf) ∨
      ((∀ element ∈ crosswalk.elements, element.space.uri ≠ xslUri) ∧
        space = Namespace.xsl) := by
  rw [bindings, List.mem_append, List.mem_append, List.mem_filter, List.mem_map, or_assoc]
  refine or_congr ?_ (or_congr ?_ ?_)
  · rw [decide_eq_true_eq, and_comm]
  · rw [List.mem_ite_nil_right, List.mem_singleton]
  · rw [List.mem_ite_nil_right, List.mem_singleton]

theorem mem_bindings_of_byUri?_eq_some {crosswalk : Crosswalk} {container : Option Element}
    {uri : String} {space : Namespace}
    (h : (crosswalk.declarations container).byUri? uri = some space) :
    space ∈ crosswalk.bindings container := by
  rw [byUri?_declarations] at h
  split at h
  next => cases h
  next hxml =>
    rw [mem_bindings_iff]
    simp only [Option.or_eq_some_iff, Option.or_eq_none_iff] at h
    -- it comes from an element, a fallback, the stylesheet language or the record container
    rcases h with ((hlast | ⟨hlast, hrdf⟩) | ⟨⟨hlast, hrdf⟩, hxsl⟩) | ⟨⟨⟨hlast, hrdf⟩, hxsl⟩, hroot⟩
    · obtain ⟨element, hmem, hspace, huri⟩ := exists_of_lastSpace?_eq_some hlast
      refine Or.inl ⟨huri ▸ hxml, element, ?_, hspace⟩
      exact List.mem_append_left _ hmem
    · split at hrdf
      next hfalls =>
        obtain ⟨hfalls, rfl⟩ := hfalls
        exact Or.inr (Or.inl ⟨⟨lastSpace?_eq_none_iff.1 hlast, Or.inr hfalls⟩,
          (Option.some.inj hrdf).symm⟩)
      next => cases hrdf
    · split at hxsl
      next huri =>
        subst huri
        exact Or.inr (Or.inr ⟨lastSpace?_eq_none_iff.1 hlast, (Option.some.inj hxsl).symm⟩)
      next => cases hxsl
    · split at hroot
      next huri =>
        have hspace := Option.some.inj hroot
        cases container with
        | none =>
          have huri : uri = rdfUri := huri.symm
          subst huri
          have hnone := lastSpace?_eq_none_iff.1 hlast
          exact Or.inr (Or.inl ⟨⟨hnone, Or.inl rfl⟩, hspace.symm⟩)
        | some element =>
          refine Or.inl ⟨?_, element, ?_, hspace⟩
          · rw [← hspace, huri]
            exact hxml
          · simp
      next => cases hroot

theorem byUri?_rdfUri {crosswalk : Crosswalk} {container : Option Element}
    (hnone : ∀ element ∈ crosswalk.elements, element.space.uri ≠ rdfUri)
    (hneeds : container = none ∨ crosswalk.fallsBack) :
    (crosswalk.declarations container).byUri? rdfUri = some Namespace.rdf := by
  have hxml : rdfUri ≠ xmlUri := by decide
  have hxsl : rdfUri ≠ xslUri := by decide
  rw [byUri?_declarations, if_neg hxml, lastSpace?_eq_none_iff.2 hnone, if_neg hxsl]
  rcases hneeds with rfl | hfalls
  · by_cases hfalls : crosswalk.fallsBack <;> simp [hfalls, containerSpace, Namespace.rdf]
  · simp [hfalls]

theorem byUri?_xslUri {crosswalk : Crosswalk} (container : Option Element)
    (hnone : ∀ element ∈ crosswalk.elements, element.space.uri ≠ xslUri) :
    (crosswalk.declarations container).byUri? xslUri = some Namespace.xsl := by
  have hxml : xslUri ≠ xmlUri := by decide
  have hrdf : ¬(crosswalk.fallsBack ∧ xslUri = rdfUri) := by
    rintro ⟨-, h⟩
    revert h
    decide
  rw [byUri?_declarations, if_neg hxml, lastSpace?_eq_none_iff.2 hnone, if_neg hrdf]
  simp

/-- Where the elements fit the declarations, every binding agrees with what is declared. -/
theorem byUri?_of_mem_bindings {crosswalk : Crosswalk} {container : Option Element}
    (hfits : ∀ element ∈ crosswalk.elements ++ container.toList,
      (crosswalk.declarations container).Fits element)
    {space : Namespace} (h : space ∈ crosswalk.bindings container) :
    ∃ bound, (crosswalk.declarations container).byUri? space.uri = some bound ∧
      bound.label = space.label := by
  rcases mem_bindings_iff.1 h with ⟨hxml, element, hmem, rfl⟩ | ⟨⟨hnone, hneeds⟩, rfl⟩ |
    ⟨hnone, rfl⟩
  · obtain ⟨bound, hbound⟩ := Option.isSome_iff_exists.1 (byUri?_isSome_of_mem hmem hxml)
    exact ⟨bound, hbound, (hfits element hmem).label_eq hxml bound hbound⟩
  · exact ⟨Namespace.rdf, byUri?_rdfUri hnone hneeds, rfl⟩
  · exact ⟨Namespace.xsl, byUri?_xslUri container hnone, rfl⟩

/-! ## Acceptance -/

/-- What a crosswalk with its record container needs to have a stylesheet. -/
structure Writable (crosswalk : Crosswalk) (container : Option Element) : Prop where
  identified : crosswalk.documentId ≠ none
  xml_label : ∀ element ∈ crosswalk.elements ++ container.toList,
    element.space.uri = xmlUri → element.space.label = "xml"
  label_eq : ∀ a ∈ crosswalk.bindings container, ∀ b ∈ crosswalk.bindings container,
    a.uri = b.uri → a.label = b.label
  uri_eq : ∀ a ∈ crosswalk.bindings container, ∀ b ∈ crosswalk.bindings container,
    a.label = b.label → a.uri = b.uri
  not_reserved : ∀ a ∈ crosswalk.bindings container, a.label ≠ "xml" ∧ a.label ≠ "xmlns"

theorem check_declarations_eq_ok_iff (crosswalk : Crosswalk) (container : Option Element) :
    (crosswalk.declarations container).check (crosswalk.elements ++ container.toList) = .ok () ↔
      (∀ element ∈ crosswalk.elements ++ container.toList,
        element.space.uri = xmlUri → element.space.label = "xml") ∧
      (∀ a ∈ crosswalk.bindings container, ∀ b ∈ crosswalk.bindings container,
        a.uri = b.uri → a.label = b.label) ∧
      (∀ a ∈ crosswalk.bindings container, ∀ b ∈ crosswalk.bindings container,
        a.label = b.label → a.uri = b.uri) ∧
      ∀ a ∈ crosswalk.bindings container, a.label ≠ "xml" ∧ a.label ≠ "xmlns" := by
  rw [Declarations.check_eq_ok_iff]
  constructor
  · rintro ⟨⟨hfree, hlabels⟩, hfits⟩
    have hinj := List.inj_on_of_nodup_map (List.pairwise_map.2 hlabels)
    refine ⟨fun element h => (hfits element h).xml_label, ?_, ?_, ?_⟩
    · -- both bindings agree with the one declaration of their URI
      intro a ha b hb huri
      obtain ⟨bound, hbound, hlabel⟩ := byUri?_of_mem_bindings hfits ha
      obtain ⟨other, hother, hlabel'⟩ := byUri?_of_mem_bindings hfits hb
      rw [huri, hother] at hbound
      rw [← hlabel, ← hlabel', Option.some.inj hbound]
    · -- a prefix that is declared once leaves one declaration for both bindings
      intro a ha b hb hlabel
      obtain ⟨bound, hbound, hbound'⟩ := byUri?_of_mem_bindings hfits ha
      obtain ⟨other, hother, hother'⟩ := byUri?_of_mem_bindings hfits hb
      obtain ⟨hmem, huri⟩ := Declarations.byUri?_eq_some_iff.1 hbound
      obtain ⟨hmem', huri'⟩ := Declarations.byUri?_eq_some_iff.1 hother
      have heq : bound = other := by
        apply hinj hmem hmem'
        rw [hbound', hother', hlabel]
      rw [← huri, ← huri', heq]
    · intro a ha
      obtain ⟨bound, hbound, hlabel⟩ := byUri?_of_mem_bindings hfits ha
      have := hfree bound (Declarations.byUri?_eq_some_iff.1 hbound).1
      rw [Declarations.Reserved, hlabel] at this
      exact not_or.1 this
  · rintro ⟨hxml, hlabel, huri, hfree⟩
    have hbindings : ∀ space ∈ (crosswalk.declarations container).toList,
        space ∈ crosswalk.bindings container :=
      fun space h => mem_bindings_of_byUri?_eq_some (Declarations.byUri?_uri_of_mem h)
    refine ⟨⟨?_, ?_⟩, ?_⟩
    · intro space h
      exact not_or.2 (hfree space (hbindings space h))
    · refine (crosswalk.declarations container).pairwise_uri_ne.imp_of_mem ?_
      intro a b ha hb hne hlabel
      exact hne (huri a (hbindings a ha) b (hbindings b hb) hlabel)
    · intro element hmem
      refine ⟨hxml element hmem, fun hne bound hbound => ?_⟩
      have hspace : element.space ∈ crosswalk.bindings container :=
        mem_bindings_iff.2 (Or.inl ⟨hne, element, hmem, rfl⟩)
      exact hlabel bound (mem_bindings_of_byUri?_eq_some hbound) element.space hspace
        (Declarations.byUri?_eq_some_iff.1 hbound).2

/-- The written name of the record container. -/
def containerName (crosswalk : Crosswalk) (container : Option Element) : String :=
  match container with
  | some element => element.qualifiedName
  | none => (crosswalk.declarations container).qualified Namespace.rdf "RDF"

/-- The template of a crosswalk that is checked, given the identifier of its records. -/
def checkedTemplate (crosswalk : Crosswalk) (container : Option Element) (documentId : Element) :
    Template :=
  ⟨crosswalk, documentId, crosswalk.declarations container, crosswalk.containerName container⟩

theorem template_eq_ok_iff {crosswalk : Crosswalk} {container : Option Element}
    {template : Template} :
    crosswalk.template container = .ok template ↔
      ∃ documentId, crosswalk.documentId = some documentId ∧
        (crosswalk.declarations container).check (crosswalk.elements ++ container.toList) =
          .ok () ∧
        template = crosswalk.checkedTemplate container documentId := by
  rw [Crosswalk.template]
  cases crosswalk.documentId with
  | none => simp
  | some documentId =>
    simp only [check_bind_eq_ok_iff, Option.some.injEq, exists_eq_left']
    refine and_congr_right fun _ => ?_
    simp only [pure, Except.pure, Except.ok.injEq, eq_comm (a := template)]
    rfl

theorem setting?_of_template_eq_error {crosswalk : Crosswalk} {container : Option Element}
    {error : StylesheetError} (h : crosswalk.template container = .error error) :
    error.setting? =
      some (if crosswalk.documentId = none then "document_id_mapping" else "namespaces") := by
  rw [Crosswalk.template] at h
  cases hid : crosswalk.documentId with
  | none =>
    rw [hid] at h
    cases h
    rfl
  | some documentId =>
    rw [hid] at h
    simp only [bind_eq_error_iff] at h
    rcases h with h | ⟨-, -, h⟩
    · exact Declarations.setting?_of_check_eq_error h
    · cases h

/-- A crosswalk has a stylesheet exactly when it identifies its records and its bindings are one to
one and not reserved; what is wrong otherwise is the identifier where there is none, and else the
namespaces. -/
theorem stylesheet_accepted_iff_writable (crosswalk : Crosswalk) (container : Option Element) :
    ((∃ text, crosswalk.stylesheet container = .ok text) ↔ crosswalk.Writable container) ∧
      ∀ error, crosswalk.stylesheet container = .error error →
        error.setting? =
          some (if crosswalk.documentId = none then "document_id_mapping" else "namespaces") := by
  simp only [stylesheet, map_eq_ok_iff, map_eq_error_iff]
  constructor
  · constructor
    · rintro ⟨-, template, htemplate, -⟩
      obtain ⟨documentId, hid, hcheck, -⟩ := template_eq_ok_iff.1 htemplate
      obtain ⟨hxml, hlabel, huri, hfree⟩ := (check_declarations_eq_ok_iff _ _).1 hcheck
      exact ⟨by simp [hid], hxml, hlabel, huri, hfree⟩
    · rintro ⟨hid, hxml, hlabel, huri, hfree⟩
      obtain ⟨documentId, hid⟩ := Option.ne_none_iff_exists'.1 hid
      have hcheck := (check_declarations_eq_ok_iff _ _).2 ⟨hxml, hlabel, huri, hfree⟩
      exact ⟨_, _, template_eq_ok_iff.2 ⟨documentId, hid, hcheck, rfl⟩, rfl⟩
  · intro error h
    exact setting?_of_template_eq_error h

end Crosswalk

end Concordance
