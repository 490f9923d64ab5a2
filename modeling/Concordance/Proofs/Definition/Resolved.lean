import Concordance.Definition.Resolve
import Concordance.Proofs.Mapping.Building
import Concordance.Proofs.Name.Registry
import Mathlib.Data.List.Basic

/-!
# What a definition resolves to

The registry of a definition holds the builtin namespaces with those that the definition binds, one
to one, and every element that the definition resolves to has a namespace of that registry, prefix
and all.
-/

namespace Concordance

/-! ## Names -/

theorem Element.eq_of_inSpace {space : Namespace} {localName : String} {element : Element}
    (h : inSpace space localName = .ok element) :
    element.space = space ∧ element.localName = localName := by
  rw [inSpace] at h
  split at h
  next => cases h
  next =>
    split at h
    next =>
      cases h
      exact ⟨rfl, rfl⟩
    next => cases h

theorem Namespace.eq_of_ofPair {label uri : String} {space : Namespace}
    (h : ofPair label uri = .ok space) : (space.label, space.uri) = (label, uri) := by
  rw [ofPair] at h
  split at h
  next => cases h
  next =>
    split at h
    next =>
      split at h
      next =>
        cases h
        rfl
      next => cases h
    next => cases h

namespace Registry

variable {registry : Registry}

theorem mem_of_byLabel? {label : String} {space : Namespace}
    (h : registry.byLabel? label = some space) : space ∈ registry.toList := by
  obtain ⟨uri, -, hspace⟩ := Option.bind_eq_some_iff.1 h
  exact mem_toList_of_byUri? hspace

/-- The element of a name has a namespace of the registry. -/
theorem mem_of_resolve {name place : String} {element : Element}
    (h : registry.resolve name place = .ok element) : element.space ∈ registry.toList := by
  rw [resolve] at h
  split at h
  next => cases h
  next label localName _ =>
    split at h
    next => cases h
    next space hspace =>
      rw [(Element.eq_of_inSpace (mapError_eq_ok_iff.1 h)).1]
      exact mem_of_byLabel? hspace

theorem mem_of_resolvePair {source target place : String} {c : Correspondence}
    (h : registry.resolvePair source target place = .ok c) {element : Element}
    (hmem : element ∈ c.elements) : element.space ∈ registry.toList := by
  rw [resolvePair] at h
  obtain ⟨first, hfirst, h⟩ := bind_eq_ok_iff.1 h
  obtain ⟨second, hsecond, h⟩ := bind_eq_ok_iff.1 h
  cases h
  rcases List.mem_pair.1 hmem with rfl | rfl
  · exact mem_of_resolve hfirst
  · exact mem_of_resolve hsecond

end Registry

/-! ## Rules -/

theorem RuleDefinition.mem_of_resolve {definition : RuleDefinition} {registry : Registry}
    {place : String} {rule : Rule} (h : definition.resolve registry place = .ok rule)
    {element : Element} (hmem : element ∈ rule.elements) : element.space ∈ registry.toList := by
  rw [RuleDefinition.resolve] at h
  obtain ⟨tag, htag, h⟩ := bind_eq_ok_iff.1 h
  obtain ⟨attributes, hattributes, h⟩ := bind_eq_ok_iff.1 h
  cases h
  rcases List.mem_append.1 hmem with hmem | hmem
  · rw [Rule.withText, Rule.tag_withAttributes] at hmem
    exact Registry.mem_of_resolvePair htag hmem
  · obtain ⟨c, hc, hmem⟩ := List.mem_flatMap.1 hmem
    rcases Rule.mem_of_mem_withAttributes hc with hc | hc
    · cases hc
    · obtain ⟨a, -, ha⟩ := exists_of_mem_mapM hattributes hc
      exact Registry.mem_of_resolvePair ha hmem

namespace Definition

/-! ## Definitions -/

theorem registryOf_eq_ok {bindings : List (String × String)} {registry : Registry}
    (h : registryOf bindings = .ok registry) :
    ∃ spaces : List Namespace, spaces.map (fun space => (space.label, space.uri)) = bindings ∧
      Registry.builtin.registerAll spaces = .ok registry := by
  rw [registryOf] at h
  generalize Registry.builtin = start at h
  induction bindings generalizing start with
  | nil =>
    cases h
    exact ⟨[], rfl, rfl⟩
  | cons binding rest ih =>
    rw [List.foldlM_cons] at h
    obtain ⟨next, hnext, h⟩ := bind_eq_ok_iff.1 h
    obtain ⟨space, hspace, hregister⟩ := bind_eq_ok_iff.1 hnext
    obtain ⟨spaces, hspaces, hrest⟩ := ih next h
    refine ⟨space :: spaces, ?_, ?_⟩
    · rw [List.map_cons, hspaces, Namespace.eq_of_ofPair (mapError_eq_ok_iff.1 hspace)]
    · have hcall := Registry.registered_eq_ok_iff.1 (mapError_eq_ok_iff.1 hregister)
      exact Registry.registerAll_cons_eq_ok_iff.2 ⟨next, hcall, hrest⟩

theorem linked_of_registryOf {bindings : List (String × String)} {registry : Registry}
    (h : registryOf bindings = .ok registry) : registry.Linked := by
  obtain ⟨spaces, -, hspaces⟩ := registryOf_eq_ok h
  exact Registry.linked_builtin.registerAll hspaces

theorem mem_toList_of_registryOf {bindings : List (String × String)} {registry : Registry}
    (h : registryOf bindings = .ok registry) {space : Namespace} :
    space ∈ registry.toList ↔
      space ∈ Namespace.builtins ∨ (space.label, space.uri) ∈ bindings := by
  obtain ⟨spaces, rfl, hspaces⟩ := registryOf_eq_ok h
  rw [Registry.mem_toList_registerAll hspaces, Registry.mem_toList_builtin,
    List.mem_map_of_injective Namespace.injective_pair]

theorem exists_space_of_registryOf {bindings : List (String × String)} {registry : Registry}
    (h : registryOf bindings = .ok registry) {binding : String × String}
    (hmem : binding ∈ bindings) :
    ∃ space ∈ registry.toList, (space.label, space.uri) = binding := by
  obtain ⟨spaces, rfl, hspaces⟩ := registryOf_eq_ok h
  obtain ⟨space, hspace, heq⟩ := List.mem_map.1 hmem
  exact ⟨space, (Registry.mem_toList_registerAll hspaces).2 (Or.inr hspace), heq⟩

theorem exists_of_mem_resolveChildren {registry : Registry} {definitions : List RuleDefinition}
    {index : Nat} {rules : List Rule}
    (h : resolveChildren registry index definitions = .ok rules) {rule : Rule}
    (hmem : rule ∈ rules) :
    ∃ definition ∈ definitions, ∃ place, definition.resolve registry place = .ok rule := by
  induction definitions generalizing index rules with
  | nil =>
    cases h
    cases hmem
  | cons first rest ih =>
    rw [resolveChildren] at h
    obtain ⟨child, hchild, h⟩ := bind_eq_ok_iff.1 h
    obtain ⟨others, hothers, h⟩ := bind_eq_ok_iff.1 h
    cases h
    rcases List.mem_cons.1 hmem with rfl | hmem
    · exact ⟨first, List.mem_cons_self, _, hchild⟩
    · obtain ⟨definition, hdefinition, hplace⟩ := ih hothers hmem
      exact ⟨definition, List.mem_cons_of_mem first hdefinition, hplace⟩

theorem resolveOptional_eq_ok_iff {registry : Registry} {name : Option String} {place : String}
    {element : Option Element} :
    resolveOptional registry name place = .ok element ↔
      (name = none ∧ element = none) ∨ ∃ written found, name = some written ∧
        registry.resolve written place = .ok found ∧ element = some found := by
  cases name with
  | none => simp [resolveOptional, eq_comm]
  | some written =>
    rw [resolveOptional, map_eq_ok_iff]
    constructor
    · rintro ⟨found, hfound, rfl⟩
      exact Or.inr ⟨written, found, rfl, hfound, rfl⟩
    · rintro (⟨hname, -⟩ | ⟨_, found, hname, hfound, rfl⟩)
      · cases hname
      · cases hname
        exact ⟨found, hfound, rfl⟩

/-- The steps by which a definition resolves. -/
structure ResolvesTo (definition : Definition) (resolved : Resolved) (children : List Rule) :
    Prop where
  registryOf_eq : registryOf definition.bindings.toList = .ok resolved.registry
  parent_eq : definition.parent.resolve resolved.registry "mapping.parent" =
    .ok resolved.crosswalk.parent
  resolveChildren_eq : resolveChildren resolved.registry 0 definition.children = .ok children
  children_eq : resolved.crosswalk.children =
    ((Crosswalk.ofParent resolved.crosswalk.parent).withChildren children).children
  documentId_eq : resolveOptional resolved.registry definition.documentId "mapping.document_id" =
    .ok resolved.crosswalk.documentId
  container_eq : resolveOptional resolved.registry definition.container "output.record_container" =
    .ok resolved.container

theorem exists_resolvesTo {definition : Definition} {resolved : Resolved}
    (h : definition.resolve = .ok resolved) :
    ∃ children, definition.ResolvesTo resolved children := by
  rw [resolve] at h
  obtain ⟨registry, hregistry, h⟩ := bind_eq_ok_iff.1 h
  obtain ⟨parent, hparent, h⟩ := bind_eq_ok_iff.1 h
  obtain ⟨children, hchildren, h⟩ := bind_eq_ok_iff.1 h
  obtain ⟨documentId, hid, h⟩ := bind_eq_ok_iff.1 h
  obtain ⟨container, hcontainer, h⟩ := bind_eq_ok_iff.1 h
  cases h
  have hsame := Crosswalk.parent_withChildren (Crosswalk.ofParent parent) children
  refine ⟨children, hregistry, ?_, hchildren, ?_, hid, hcontainer⟩
  · rw [hsame]
    exact hparent
  · rw [hsame]
    rfl

namespace ResolvesTo

variable {definition : Definition} {resolved : Resolved} {children : List Rule}
  (h : definition.ResolvesTo resolved children)

include h

theorem linked : resolved.registry.Linked :=
  linked_of_registryOf h.registryOf_eq

theorem mem_registry_iff {space : Namespace} :
    space ∈ resolved.registry.toList ↔
      space ∈ Namespace.builtins ∨ (space.label, space.uri) ∈ definition.bindings.toList :=
  mem_toList_of_registryOf h.registryOf_eq

theorem exists_of_mem_bindings {label uri : String}
    (hmem : (label, uri) ∈ definition.bindings.toList) :
    ∃ space ∈ resolved.registry.toList, space.label = label ∧ space.uri = uri := by
  obtain ⟨space, hspace, heq⟩ := exists_space_of_registryOf h.registryOf_eq hmem
  exact ⟨space, hspace, Prod.mk.inj heq⟩

/-- Every element has a namespace of the registry. -/
theorem space_mem {element : Element}
    (hmem : element ∈ resolved.crosswalk.elements ++ resolved.container.toList) :
    element.space ∈ resolved.registry.toList := by
  have hoptional : ∀ {name place} {found : Option Element},
      resolveOptional resolved.registry name place = .ok found → element ∈ found.toList →
        element.space ∈ resolved.registry.toList := by
    intro name place found hfound hmem
    rcases resolveOptional_eq_ok_iff.1 hfound with ⟨-, rfl⟩ | ⟨written, other, -, hother, rfl⟩
    · cases hmem
    · rw [List.mem_singleton.1 hmem]
      exact Registry.mem_of_resolve hother
  rcases List.mem_append.1 hmem with hmem | hmem
  · rcases List.mem_append.1 hmem with hmem | hmem
    · rcases List.mem_append.1 hmem with hmem | hmem
      · exact RuleDefinition.mem_of_resolve h.parent_eq hmem
      · obtain ⟨rule, hrule, hmem⟩ := List.mem_flatMap.1 hmem
        rw [h.children_eq] at hrule
        rcases Crosswalk.mem_of_mem_withChildren hrule with hrule | hrule
        · cases hrule
        · obtain ⟨_, -, place, hplace⟩ :=
            exists_of_mem_resolveChildren h.resolveChildren_eq hrule
          exact RuleDefinition.mem_of_resolve hplace hmem
    · exact hoptional h.documentId_eq hmem
  · exact hoptional h.container_eq hmem

theorem documentId_isSome :
    resolved.crosswalk.documentId.isSome = definition.documentId.isSome := by
  rcases resolveOptional_eq_ok_iff.1 h.documentId_eq with ⟨hname, hid⟩ | ⟨_, _, hname, -, hid⟩
  · rw [hname, hid]
    rfl
  · rw [hname, hid]
    rfl

end ResolvesTo

/-- A definition with namespaces of its own, of which it does not use the one of the prefix `xmlns`,
with an attribute of XML and with a rule that relates concepts. -/
def terms : Definition where
  bindings := ⟨[("ex", "http://example.org/terms#"), ("xmlns", "http://example.org/kept#")],
    by decide⟩
  documentId := some "dc:identifier"
  parent := ⟨"skos:Concept", "ex:Term", false, [⟨"xml:lang", "ex:lang"⟩]⟩
  children := [⟨" skos:broader ", "skos:related", true, []⟩]
  container := none

theorem exists_resolve_terms : ∃ resolved, terms.resolve = .ok resolved := by
  have hok : terms.resolve.isOk = true := by decide +kernel
  cases hresolve : terms.resolve with
  | ok resolved => exact ⟨resolved, rfl⟩
  | error error =>
    rw [hresolve] at hok
    cases hok

end Definition

end Concordance
