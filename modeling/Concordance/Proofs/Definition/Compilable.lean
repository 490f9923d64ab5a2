import Concordance.Proofs.Definition.Resolved
import Concordance.Proofs.Stylesheet.Acceptance

/-!
# What resolves has a stylesheet

As the registry of a definition binds one to one and holds the builtin namespaces, little is left
that can be wrong with the stylesheet once the definition resolves: the record identifier may be
missing, and a namespace may have the prefix `xmlns`, which a definition may bind but a document may
not.  Neither the namespaces that fallbacks and the stylesheet language bring in nor the one of the
record container can add another error.
-/

namespace Concordance

open Namespace (xmlUri xslUri rdfUri)

/-- Where no prefix comes twice, only a reserved one can be wrong. -/
theorem Declarations.eq_of_checkLabels_eq_error {seen spaces : List Namespace}
    {error : StylesheetError} (h : checkLabels seen spaces = .error error)
    (hseen : ∀ space ∈ spaces, ∀ other ∈ seen, other.label ≠ space.label)
    (hpairwise : spaces.Pairwise fun a b => a.label ≠ b.label) :
    ∃ space ∈ spaces, Reserved space.label ∧
      error = .reservedPrefix space.label space.uri := by
  induction spaces generalizing seen with
  | nil => cases h
  | cons space rest ih =>
    obtain ⟨hspace, hpairwise⟩ := List.pairwise_cons.1 hpairwise
    obtain ⟨hfresh, hseen⟩ := List.forall_mem_cons.1 hseen
    rw [checkLabels] at h
    split at h
    next hreserved =>
      cases h
      exact ⟨space, List.mem_cons_self, hreserved, rfl⟩
    next =>
      split at h
      next other hother =>
        have hlabel : other.label = space.label := by simpa using List.find?_some hother
        exact absurd hlabel (hfresh other (List.mem_of_find?_eq_some hother))
      next =>
        have hseen' : ∀ s ∈ rest, ∀ other ∈ space :: seen, other.label ≠ s.label := by
          intro s hs other hother
          rcases List.mem_cons.1 hother with rfl | hother
          · exact hspace s hs
          · exact hseen s hs other hother
        obtain ⟨reserved, hmem, hreserved⟩ := ih h hseen' hpairwise
        exact ⟨reserved, List.mem_cons_of_mem space hmem, hreserved⟩

namespace Definition

/-- Whether an element of the crosswalk or the record container lies in a namespace that the
definition binds to the prefix `xmlns`. -/
def UsesXmlns (definition : Definition) (resolved : Resolved) : Prop :=
  ∃ element ∈ resolved.crosswalk.elements ++ resolved.container.toList,
    ("xmlns", element.space.uri) ∈ definition.bindings.toList

namespace ResolvesTo

variable {definition : Definition} {resolved : Resolved} {children : List Rule}
  (h : definition.ResolvesTo resolved children)

include h

theorem builtin_mem {space : Namespace} (hmem : space ∈ Namespace.builtins) :
    space ∈ resolved.registry.toList :=
  h.mem_registry_iff.2 (Or.inl hmem)

/-- The prefix `xml` goes with the URI of XML, here as everywhere. -/
theorem label_eq_xml_iff {space : Namespace} (hmem : space ∈ resolved.registry.toList) :
    space.label = "xml" ↔ space.uri = xmlUri :=
  h.linked.oneToOne space hmem Namespace.xml (h.builtin_mem (by decide))

theorem mem_registry_of_mem_bindings {space : Namespace}
    (hmem : space ∈ resolved.crosswalk.bindings resolved.container) :
    space ∈ resolved.registry.toList ∧ space.uri ≠ xmlUri := by
  rcases Crosswalk.mem_bindings_iff.1 hmem with ⟨hxml, element, helement, rfl⟩ | ⟨-, rfl⟩ | ⟨-, rfl⟩
  · exact ⟨h.space_mem helement, hxml⟩
  · exact ⟨h.builtin_mem (by decide), by decide⟩
  · exact ⟨h.builtin_mem (by decide), by decide⟩

/-- The namespaces that the stylesheet binds to `xmlns` are those that the definition does. -/
theorem mem_bindings_xmlns_iff {uri : String} :
    (∃ space ∈ resolved.crosswalk.bindings resolved.container,
        space.label = "xmlns" ∧ space.uri = uri) ↔
      (∃ element ∈ resolved.crosswalk.elements ++ resolved.container.toList,
        element.space.uri = uri) ∧ ("xmlns", uri) ∈ definition.bindings.toList := by
  constructor
  · rintro ⟨space, hmem, hlabel, rfl⟩
    have hbound : ("xmlns", space.uri) ∈ definition.bindings.toList := by
      have hfree : ∀ space ∈ Namespace.builtins, space.label ≠ "xmlns" := by decide
      rcases h.mem_registry_iff.1 (h.mem_registry_of_mem_bindings hmem).1 with hbuiltin | hbound
      · exact absurd hlabel (hfree space hbuiltin)
      · rwa [hlabel] at hbound
    refine ⟨?_, hbound⟩
    rcases Crosswalk.mem_bindings_iff.1 hmem with ⟨-, element, helement, rfl⟩ | ⟨-, rfl⟩ | ⟨-, rfl⟩
    · exact ⟨element, helement, rfl⟩
    · exact absurd hlabel (by decide)
    · exact absurd hlabel (by decide)
  · rintro ⟨⟨element, hmem, rfl⟩, hbound⟩
    obtain ⟨space, hspace, hlabel, huri⟩ := h.exists_of_mem_bindings hbound
    have helement := h.space_mem hmem
    have hxmlns : element.space.label = "xmlns" := by
      rw [← hlabel]
      exact (h.linked.oneToOne element.space helement space hspace).2 huri.symm
    have hxml : element.space.uri ≠ xmlUri := by
      intro hxml
      have hlabel := (h.label_eq_xml_iff helement).2 hxml
      rw [hxmlns] at hlabel
      revert hlabel
      decide
    exact ⟨element.space, Crosswalk.mem_bindings_iff.2 (Or.inl ⟨hxml, element, hmem, rfl⟩),
      hxmlns, rfl⟩

theorem xml_label {element : Element}
    (hmem : element ∈ resolved.crosswalk.elements ++ resolved.container.toList)
    (hxml : element.space.uri = xmlUri) : element.space.label = "xml" :=
  (h.label_eq_xml_iff (h.space_mem hmem)).2 hxml

theorem label_eq_iff_of_mem_bindings {a b : Namespace}
    (ha : a ∈ resolved.crosswalk.bindings resolved.container)
    (hb : b ∈ resolved.crosswalk.bindings resolved.container) :
    a.label = b.label ↔ a.uri = b.uri :=
  h.linked.oneToOne a (h.mem_registry_of_mem_bindings ha).1 b
    (h.mem_registry_of_mem_bindings hb).1

theorem label_ne_xml {space : Namespace}
    (hmem : space ∈ resolved.crosswalk.bindings resolved.container) : space.label ≠ "xml" := by
  obtain ⟨hspace, hxml⟩ := h.mem_registry_of_mem_bindings hmem
  exact fun hlabel => hxml ((h.label_eq_xml_iff hspace).1 hlabel)

/-- The checks of the stylesheet find nothing but a use of the prefix `xmlns`. -/
theorem check_eq_ok_iff :
    (resolved.crosswalk.declarations resolved.container).check
        (resolved.crosswalk.elements ++ resolved.container.toList) = .ok () ↔
      ¬definition.UsesXmlns resolved := by
  rw [Crosswalk.check_declarations_eq_ok_iff]
  constructor
  · rintro ⟨-, -, -, hfree⟩ ⟨element, hmem, hbound⟩
    obtain ⟨space, hspace, hlabel, -⟩ := h.mem_bindings_xmlns_iff.2 ⟨⟨element, hmem, rfl⟩, hbound⟩
    exact (hfree space hspace).2 hlabel
  · intro hfree
    refine ⟨fun element hmem => h.xml_label hmem, ?_, ?_, ?_⟩
    · exact fun a ha b hb => (h.label_eq_iff_of_mem_bindings ha hb).2
    · exact fun a ha b hb => (h.label_eq_iff_of_mem_bindings ha hb).1
    · intro space hmem
      refine ⟨h.label_ne_xml hmem, fun hlabel => hfree ?_⟩
      obtain ⟨⟨element, hmem, huri⟩, hbound⟩ :=
        h.mem_bindings_xmlns_iff.1 ⟨space, hmem, hlabel, rfl⟩
      exact ⟨element, hmem, huri.symm ▸ hbound⟩

theorem eq_of_check_eq_error {error : StylesheetError}
    (herror : (resolved.crosswalk.declarations resolved.container).check
      (resolved.crosswalk.elements ++ resolved.container.toList) = .error error) :
    ∃ uri, ("xmlns", uri) ∈ definition.bindings.toList ∧
      error = .reservedPrefix "xmlns" uri := by
  have hdeclared : ∀ space ∈ (resolved.crosswalk.declarations resolved.container).toList,
      space ∈ resolved.crosswalk.bindings resolved.container := fun space hmem =>
    Crosswalk.mem_bindings_of_byUri?_eq_some (Declarations.byUri?_uri_of_mem hmem)
  rw [Declarations.check, bind_eq_error_iff] at herror
  rcases herror with herror | ⟨-, -, herror⟩
  · have hpairwise : (resolved.crosswalk.declarations resolved.container).toList.Pairwise
        fun a b => a.label ≠ b.label := by
      refine (Declarations.pairwise_uri_ne _).imp_of_mem fun {a b} ha hb hne hlabel => hne ?_
      exact (h.label_eq_iff_of_mem_bindings (hdeclared a ha) (hdeclared b hb)).1 hlabel
    obtain ⟨space, hmem, hreserved, rfl⟩ :=
      Declarations.eq_of_checkLabels_eq_error herror (by simp) hpairwise
    have hlabel : space.label = "xmlns" :=
      hreserved.resolve_left (h.label_ne_xml (hdeclared space hmem))
    obtain ⟨-, hbound⟩ :=
      h.mem_bindings_xmlns_iff.1 ⟨space, hdeclared space hmem, hlabel, rfl⟩
    exact ⟨space.uri, hbound, by rw [hlabel]⟩
  · -- every element has the prefix that is declared for its URI, so none of them is refused
    obtain ⟨element, hmem, herror⟩ := exists_of_forM_eq_error herror
    have hfits : (resolved.crosswalk.declarations resolved.container).Fits element := by
      refine ⟨h.xml_label hmem, fun hxml bound hbound => ?_⟩
      obtain ⟨hdeclaredBound, huri⟩ := Declarations.byUri?_eq_some_iff.1 hbound
      have hspace := Crosswalk.mem_bindings_iff.2 (Or.inl ⟨hxml, element, hmem, rfl⟩)
      exact (h.label_eq_iff_of_mem_bindings (hdeclared bound hdeclaredBound) hspace).2 huri
    rw [(Declarations.checkElement_eq_ok_iff _ element).2 hfits] at herror
    cases herror

theorem contains_of_mem {element : Element} (hmem : element ∈ resolved.crosswalk.elements) :
    resolved.registry.contains element.space = true := by
  have hspace := h.space_mem (List.mem_append_left resolved.container.toList hmem)
  rw [Registry.contains, Registry.mem_toList_iff.1 hspace]
  rfl

theorem validate_eq :
    resolved.crosswalk.validate resolved.registry =
      if definition.documentId.isSome then .ok () else .error .missingDocumentId := by
  have hnone : resolved.crosswalk.elements.find?
      (fun element => !resolved.registry.contains element.space) = none := by
    refine List.find?_eq_none.2 fun element hmem => ?_
    simp [h.contains_of_mem hmem]
  rw [Crosswalk.validate, hnone, ← h.documentId_isSome]
  cases resolved.crosswalk.documentId <;> rfl

end ResolvesTo

/-- A definition that resolves names registered namespaces only, and its stylesheet is written
unless the record identifier is missing or a namespace bound to `xmlns` is used; nothing else can be
wrong with it. -/
theorem resolved_is_compilable {definition : Definition} {resolved : Resolved}
    (h : definition.resolve = .ok resolved) :
    resolved.crosswalk.validate resolved.registry =
        (if definition.documentId.isSome then .ok () else .error .missingDocumentId) ∧
      ((∃ text, resolved.crosswalk.stylesheet resolved.container = .ok text) ↔
        definition.documentId.isSome ∧ ¬definition.UsesXmlns resolved) ∧
      ∀ error, resolved.crosswalk.stylesheet resolved.container = .error error →
        (definition.documentId = none ∧
          error = .unidentified resolved.crosswalk.parent.tag.shown) ∨
        (definition.documentId.isSome ∧ ∃ uri, ("xmlns", uri) ∈ definition.bindings.toList ∧
          error = .reservedPrefix "xmlns" uri) := by
  obtain ⟨children, h⟩ := exists_resolvesTo h
  have hid := h.documentId_isSome
  refine ⟨h.validate_eq, ?_, ?_⟩
  · rw [← h.check_eq_ok_iff]
    simp only [Crosswalk.stylesheet, map_eq_ok_iff, Crosswalk.template_eq_ok_iff]
    constructor
    · rintro ⟨-, -, ⟨documentId, hsome, hcheck, -⟩, -⟩
      rw [hsome] at hid
      exact ⟨hid.symm, hcheck⟩
    · rintro ⟨hsome, hcheck⟩
      obtain ⟨documentId, hfound⟩ := Option.isSome_iff_exists.1 (hid.trans hsome)
      exact ⟨_, _, ⟨documentId, hfound, hcheck, rfl⟩, rfl⟩
  · intro error herror
    rw [Crosswalk.stylesheet, map_eq_error_iff, Crosswalk.template] at herror
    cases hfound : resolved.crosswalk.documentId with
    | none =>
      rw [hfound] at herror hid
      cases herror
      exact Or.inl ⟨by simpa using hid.symm, rfl⟩
    | some documentId =>
      rw [hfound] at herror hid
      simp only [bind_eq_error_iff] at herror
      rcases herror with herror | ⟨-, -, herror⟩
      · exact Or.inr ⟨hid.symm, h.eq_of_check_eq_error herror⟩
      · cases herror

theorem terms_is_compilable :
    ∃ resolved, terms.resolve = .ok resolved ∧
      resolved.crosswalk.validate resolved.registry =
          (if terms.documentId.isSome then .ok () else .error .missingDocumentId) ∧
        ((∃ text, resolved.crosswalk.stylesheet resolved.container = .ok text) ↔
          terms.documentId.isSome ∧ ¬terms.UsesXmlns resolved) ∧
        ∀ error, resolved.crosswalk.stylesheet resolved.container = .error error →
          (terms.documentId = none ∧
            error = .unidentified resolved.crosswalk.parent.tag.shown) ∨
          (terms.documentId.isSome ∧ ∃ uri, ("xmlns", uri) ∈ terms.bindings.toList ∧
            error = .reservedPrefix "xmlns" uri) := by
  obtain ⟨resolved, h⟩ := exists_resolve_terms
  exact ⟨resolved, h, resolved_is_compilable h⟩

end Definition

end Concordance
