import Concordance.Proofs.Definition.Resolved
import Concordance.Proofs.Stylesheet.Written
import Mathlib.Data.List.Perm.Basic
import Mathlib.Data.Set.List

/-!
# Definitions of given crosswalks

A crosswalk whose elements come from a registry can be written down as a definition: the namespaces
are those of the registry that are not builtin, and the names are the written forms of the elements,
with the attributes of each rule in any order.  Such a definition resolves to the registry, the
crosswalk and the record container that it was written from, prefixes and all, and therefore has
their stylesheet.

Names come back because a written form has no white space and one colon only; sets of attributes and
lists of children because they hold nothing twice; and namespaces because a registry binds one to
one, so that none of them disagrees with another or with a builtin one.
-/

namespace Concordance

/-! ## Written names -/

/-- White space is not part of names. -/
theorem isNamePart_of_isSpace {c : Char} (h : Text.isSpace c = true) : isNamePart c = false := by
  have hnone : ∀ code ∈ [0x9, 0xA, 0xB, 0xC, 0xD, 0x20, 0x85, 0xA0, 0x1680, 0x2000, 0x2001, 0x2002,
      0x2003, 0x2004, 0x2005, 0x2006, 0x2007, 0x2008, 0x2009, 0x200A, 0x2028, 0x2029, 0x202F,
      0x205F, 0x3000], isNamePart (Char.ofNat code) = false := by
    decide +kernel
  have hcode := hnone c.toNat
  rw [Char.ofNat_toNat] at hcode
  apply hcode
  simp only [Text.isSpace, Bool.or_eq_true, Bool.and_eq_true, decide_eq_true_eq, beq_iff_eq] at h
  simp only [List.mem_cons, List.not_mem_nil, or_false]
  omega

theorem isSpace_of_isNamePart {c : Char} (h : isNamePart c = true) : Text.isSpace c = false := by
  by_contra hspace
  rw [isNamePart_of_isSpace (by simpa using hspace)] at h
  cases h

theorem Text.trim_eq {text : String} (h : ∀ c ∈ text.toList, isSpace c = false) :
    trim text = text := by
  have hkept {cs : List Char} (hcs : ∀ c ∈ cs, isSpace c = false) : cs.dropWhile isSpace = cs := by
    cases cs with
    | nil => rfl
    | cons c rest => rw [List.dropWhile_cons_of_neg (by simp [hcs c List.mem_cons_self])]
  have hback : ∀ c ∈ text.toList.reverse, isSpace c = false :=
    fun c hc => h c (List.mem_reverse.mp hc)
  rw [trim, trimEnd, hkept h, hkept hback, List.reverse_reverse, String.ofList_toList]

namespace Element

theorem isSpace_of_mem_qualifiedName (element : Element) :
    ∀ c ∈ element.qualifiedName.toList, Text.isSpace c = false := by
  intro c hc
  rw [qualifiedName, String.toList_append, String.toList_append, List.mem_append,
    List.mem_append] at hc
  rcases hc with (hc | hc) | hc
  · exact isSpace_of_isNamePart (isNamePart_of_mem element.space.label_isName hc)
  · rw [List.mem_singleton.mp hc]
    decide
  · exact isSpace_of_isNamePart (isNamePart_of_mem element.localName_isName hc)

/-- The first colon of a written form is the one behind the prefix. -/
theorem splitName?_qualifiedName (element : Element) :
    splitName? element.qualifiedName = some (element.space.label, element.localName) := by
  have hcolon : ∀ c ∈ element.space.label.toList, decide (c ≠ ':') = true := by
    intro c hc
    have hpart := isNamePart_of_mem element.space.label_isName hc
    apply decide_eq_true
    rintro rfl
    exact absurd hpart (by decide)
  have htext : element.qualifiedName.toList =
      element.space.label.toList ++ ':' :: element.localName.toList := by
    simp [qualifiedName]
  have hlabel : element.space.label.toList ≠ [] := fun hnil =>
    ne_empty_of_isNCName element.space.label_isName (String.toList_eq_nil_iff.mp hnil)
  have hlocal : element.localName.toList ≠ [] := fun hnil =>
    ne_empty_of_isNCName element.localName_isName (String.toList_eq_nil_iff.mp hnil)
  obtain ⟨first, rest, hrest⟩ := List.exists_cons_of_ne_nil hlocal
  have hbefore : element.qualifiedName.toList.takeWhile (fun c => decide (c ≠ ':')) =
      element.space.label.toList := by
    rw [htext, List.takeWhile_append_of_pos hcolon, List.takeWhile_cons_of_neg (by simp),
      List.append_nil]
  have hafter : element.qualifiedName.toList.dropWhile (fun c => decide (c ≠ ':')) =
      ':' :: first :: rest := by
    rw [htext, List.dropWhile_append_of_pos hcolon, List.dropWhile_cons_of_neg (by simp), hrest]
  rw [splitName?]
  simp only [hbefore, hafter]
  simp [hlabel, ← hrest]

theorem inSpace_localName (element : Element) :
    inSpace element.space element.localName = .ok element := by
  rw [inSpace, if_neg (ne_empty_of_isNCName element.localName_isName),
    dif_pos element.localName_isName]

/-- The prefix of the element leads to its namespace. -/
def BoundIn (element : Element) (registry : Registry) : Prop :=
  registry.byLabel? element.space.label = some element.space

end Element

variable {registry : Registry}

namespace Registry

/-- The written form of an element leads back to it where its prefix is bound. -/
theorem resolve_qualifiedName {element : Element} (h : element.BoundIn registry) (place : String) :
    registry.resolve element.qualifiedName place = .ok element := by
  rw [Element.BoundIn] at h
  rw [resolve, Text.trim_eq element.isSpace_of_mem_qualifiedName, element.splitName?_qualifiedName]
  simp only [h, element.inSpace_localName]
  rfl

theorem resolvePair_qualifiedName {c : Correspondence}
    (h : ∀ element ∈ c.elements, element.BoundIn registry) (place : String) :
    registry.resolvePair c.source.qualifiedName c.target.qualifiedName place = .ok c := by
  have hsource := resolve_qualifiedName (h c.source (by simp [Correspondence.elements])) place
  have htarget := resolve_qualifiedName (h c.target (by simp [Correspondence.elements])) place
  rw [resolvePair]
  exact bind_eq_ok_iff.2 ⟨_, hsource, bind_eq_ok_iff.2 ⟨_, htarget, rfl⟩⟩

/-- An element that a registry makes has a prefix that is bound in it. -/
theorem Linked.boundIn_of_element (hlinked : registry.Linked) {label localName : String}
    {element : Element} (h : registry.element label localName = .ok element) :
    element.BoundIn registry := by
  rw [Registry.element] at h
  split at h
  next space hspace =>
    obtain ⟨hlabel, -⟩ := hlinked.byLabel?_eq_some_iff.1 hspace
    rw [Element.BoundIn, (Element.eq_of_inSpace h).1, hlabel]
    exact hspace
  next => cases h

end Registry

/-! ## Rules -/

/-- The written forms of the two sides. -/
def Correspondence.definition (c : Correspondence) : AttributeDefinition :=
  ⟨c.source.qualifiedName, c.target.qualifiedName⟩

namespace RuleDefinition

/-- The definition is the rule in written forms, with the attributes in any order. -/
structure Describes (definition : RuleDefinition) (rule : Rule) : Prop where
  source_eq : definition.source = rule.tag.source.qualifiedName
  target_eq : definition.target = rule.tag.target.qualifiedName
  keepsText_eq : definition.keepsText = rule.keepsText
  attributes_perm :
    definition.attributes.Perm (rule.attributes.toList.map Correspondence.definition)

theorem Describes.resolve_eq_ok {definition : RuleDefinition} {rule : Rule}
    (h : definition.Describes rule) (hbound : ∀ element ∈ rule.elements, element.BoundIn registry)
    (place : String) : definition.resolve registry place = .ok rule := by
  have htag := Registry.resolvePair_qualifiedName (c := rule.tag)
    (fun element hmem => hbound element (List.mem_append_left _ hmem)) place
  have hattribute : ∀ c ∈ rule.attributes.toList,
      registry.resolvePair c.definition.source c.definition.target (place ++ ".attributes") =
        .ok c := by
    intro c hc
    apply Registry.resolvePair_qualifiedName
    intro element hmem
    exact hbound element (List.mem_append_right _ (List.mem_flatMap.2 ⟨c, hc, hmem⟩))
  -- the correspondences in the order in which the definition lists them
  obtain ⟨listed, hlisted, hperm⟩ :=
    (congrFun (congrFun (List.eq_map_comp_perm Correspondence.definition) definition.attributes)
      rule.attributes.toList).mpr h.attributes_perm
  have hattributes : definition.attributes.mapM (fun a =>
      registry.resolvePair a.source a.target (place ++ ".attributes")) = .ok listed := by
    rw [hlisted]
    exact mapM_map_eq_ok fun c hc => hattribute c (hperm.mem_iff.1 hc)
  rw [resolve, h.source_eq, h.target_eq, h.keepsText_eq]
  refine bind_eq_ok_iff.2 ⟨_, htag, bind_eq_ok_iff.2 ⟨_, hattributes, ?_⟩⟩
  rw [Rule.withAttributes_of_perm hperm]
  rfl

end RuleDefinition

/-! ## Namespaces -/

theorem Namespace.ofPair_label_uri (space : Namespace) :
    ofPair space.label space.uri = .ok space := by
  have hlabel : Text.isBlank space.label = false := by
    by_contra hblank
    have hspace : ∀ c ∈ space.label.toList, Text.isSpace c = true := by
      simpa [Text.isBlank] using hblank
    obtain ⟨c, hc⟩ := List.exists_mem_of_ne_nil space.label.toList fun hnil =>
      ne_empty_of_isNCName space.label_isName (String.toList_eq_nil_iff.mp hnil)
    have hpart := isNamePart_of_isSpace (hspace c hc)
    rw [isNamePart_of_mem space.label_isName hc] at hpart
    cases hpart
  rw [ofPair, if_neg (by simp [hlabel]), dif_pos space.label_isName, dif_pos space.uri_notBlank]

namespace Definition

theorem registryOf_map_eq_ok {spaces : List Namespace}
    (h : Registry.builtin.registerAll spaces = .ok registry) :
    registryOf (spaces.map fun space => (space.label, space.uri)) = .ok registry := by
  rw [registryOf]
  revert h
  generalize Registry.builtin = start
  intro h
  induction spaces generalizing start with
  | nil =>
    cases h
    rfl
  | cons space rest ih =>
    obtain ⟨next, hnext, hrest⟩ := Registry.registerAll_cons_eq_ok_iff.1 h
    rw [List.map_cons, List.foldlM_cons]
    refine bind_eq_ok_iff.2 ⟨next, ?_, ih next hrest⟩
    refine bind_eq_ok_iff.2 ⟨space, mapError_eq_ok_iff.2 space.ofPair_label_uri, ?_⟩
    exact mapError_eq_ok_iff.2 (Registry.registered_eq_ok_iff.2 hnext)

/-- The bindings are those of the namespaces of the registry that are not builtin. -/
def BindsOthers (bindings : List (String × String)) (registry : Registry) : Prop :=
  ∀ label uri, (label, uri) ∈ bindings ↔
    ∃ space ∈ registry.toList, space ∉ Namespace.builtins ∧ space.label = label ∧ space.uri = uri

theorem exists_map_pair_eq {bindings : List (String × String)}
    (h : ∀ binding ∈ bindings, ∃ space : Namespace, (space.label, space.uri) = binding) :
    ∃ spaces : List Namespace, spaces.map (fun space => (space.label, space.uri)) = bindings := by
  have hrange : bindings ∈ Set.range (List.map fun space : Namespace =>
      (space.label, space.uri)) := by
    rw [Set.range_list_map]
    exact h
  exact hrange

theorem BindsOthers.exists_spaces {bindings : List (String × String)}
    (h : BindsOthers bindings registry) :
    ∃ spaces : List Namespace, spaces.map (fun space => (space.label, space.uri)) = bindings ∧
      ∀ space, space ∈ spaces ↔ space ∈ registry.toList ∧ space ∉ Namespace.builtins := by
  have hpairs : ∀ binding ∈ bindings, ∃ space : Namespace,
      (space.label, space.uri) = binding := by
    rintro ⟨label, uri⟩ hmem
    obtain ⟨space, -, -, rfl, rfl⟩ := (h label uri).1 hmem
    exact ⟨space, rfl⟩
  obtain ⟨spaces, rfl⟩ := exists_map_pair_eq hpairs
  refine ⟨spaces, rfl, fun space => ?_⟩
  rw [← List.mem_map_of_injective Namespace.injective_pair, h space.label space.uri]
  constructor
  · rintro ⟨other, hmem, hnew, hlabel, huri⟩
    rw [← Namespace.eq_of_label_of_uri hlabel huri]
    exact ⟨hmem, hnew⟩
  · rintro ⟨hmem, hnew⟩
    exact ⟨space, hmem, hnew, rfl, rfl⟩

theorem mem_of_mem_builtins {made : List Namespace}
    (hregistry : Registry.builtin.registerAll made = .ok registry) {space : Namespace}
    (h : space ∈ Namespace.builtins) : space ∈ registry.toList :=
  (Registry.mem_toList_registerAll hregistry).2 (Or.inl (Registry.mem_toList_builtin.2 h))

/-- A registry comes back from its namespaces that are not builtin, in whatever order. -/
theorem registryOf_of_bindsOthers {bindings : List (String × String)} {made : List Namespace}
    (hregistry : Registry.builtin.registerAll made = .ok registry)
    (h : BindsOthers bindings registry) : registryOf bindings = .ok registry := by
  have hlinked := Registry.linked_builtin.registerAll hregistry
  obtain ⟨spaces, rfl, hspaces⟩ := h.exists_spaces
  have hmembers : ∀ space, space ∈ Registry.builtin.toList ++ spaces ↔
      space ∈ registry.toList := by
    intro space
    rw [List.mem_append, Registry.mem_toList_builtin, hspaces]
    constructor
    · rintro (hmem | ⟨hmem, -⟩)
      · exact mem_of_mem_builtins hregistry hmem
      · exact hmem
    · intro hmem
      by_cases hspace : space ∈ Namespace.builtins
      · exact Or.inl hspace
      · exact Or.inr ⟨hmem, hspace⟩
  have hone : Namespace.OneToOne (Registry.builtin.toList ++ spaces) :=
    (Namespace.oneToOne_congr hmembers).2 hlinked.oneToOne
  obtain ⟨found, hfound⟩ := (Registry.linked_builtin.exists_registerAll_iff spaces).2 hone
  have heq : found = registry := by
    refine (Registry.linked_builtin.registerAll hfound).eq_of_mem_iff hlinked fun space => ?_
    rw [Registry.mem_toList_registerAll hfound, ← List.mem_append, hmembers]
  rw [← heq]
  exact registryOf_map_eq_ok hfound

/-! ## Definitions -/

theorem resolveChildren_of_describes {definitions : List RuleDefinition} {rules : List Rule}
    (h : List.Forall₂ RuleDefinition.Describes definitions rules)
    (hbound : ∀ rule ∈ rules, ∀ element ∈ rule.elements, element.BoundIn registry) (index : Nat) :
    resolveChildren registry index definitions = .ok rules := by
  induction h generalizing index with
  | nil => rfl
  | cons hfirst _ ih =>
    obtain ⟨hrule, hrest⟩ := List.forall_mem_cons.1 hbound
    have hchild := hfirst.resolve_eq_ok hrule ("mapping.children[" ++ toString index ++ "]")
    rw [resolveChildren]
    exact bind_eq_ok_iff.2 ⟨_, hchild, bind_eq_ok_iff.2 ⟨_, ih hrest (index + 1), rfl⟩⟩

theorem resolveOptional_qualifiedName {element : Option Element}
    (hbound : ∀ found ∈ element, found.BoundIn registry) (place : String) :
    resolveOptional registry (element.map Element.qualifiedName) place = .ok element := by
  cases element with
  | none => rfl
  | some found =>
    rw [Option.map_some, resolveOptional, Registry.resolve_qualifiedName (hbound found rfl) place]
    rfl

/-- The definition is the crosswalk with its record container in written forms, with the children in
order and the attributes in any order, and it binds what the registry adds to the builtin
namespaces. -/
structure Describes (definition : Definition) (registry : Registry) (crosswalk : Crosswalk)
    (container : Option Element) : Prop where
  bindsOthers : BindsOthers definition.bindings.toList registry
  documentId_eq : definition.documentId = crosswalk.documentId.map Element.qualifiedName
  parent : definition.parent.Describes crosswalk.parent
  children : List.Forall₂ RuleDefinition.Describes definition.children crosswalk.children
  container_eq : definition.container = container.map Element.qualifiedName

theorem Describes.resolve_eq_ok {definition : Definition} {crosswalk : Crosswalk}
    {container : Option Element} {made : List Namespace}
    (h : definition.Describes registry crosswalk container)
    (hregistry : Registry.builtin.registerAll made = .ok registry) (hbuilt : crosswalk.Built)
    (hbound : ∀ element ∈ crosswalk.elements ++ container.toList, element.BoundIn registry) :
    definition.resolve = .ok ⟨registry, crosswalk, container⟩ := by
  have hparent : ∀ element ∈ crosswalk.parent.elements, element.BoundIn registry := by
    intro element hmem
    exact hbound element (by simp [Crosswalk.elements, hmem])
  have hchildren : ∀ rule ∈ crosswalk.children, ∀ element ∈ rule.elements,
      element.BoundIn registry := by
    intro rule hrule element hmem
    apply hbound
    simp only [Crosswalk.elements, List.mem_append, List.mem_flatMap]
    exact Or.inl (Or.inl (Or.inr ⟨rule, hrule, hmem⟩))
  have hid : ∀ found ∈ crosswalk.documentId, found.BoundIn registry := by
    intro found hfound
    exact hbound found (by simp_all [Crosswalk.elements])
  have hcontainer : ∀ found ∈ container, found.BoundIn registry := by
    intro found hfound
    exact hbound found (by simp_all)
  have hcrosswalk : (Crosswalk.ofParent crosswalk.parent).withChildren crosswalk.children =
      { crosswalk with documentId := none } := by
    rw [Crosswalk.withChildren_of_pairwise (by simpa [Crosswalk.ofParent] using hbuilt.pairwise)]
    rfl
  rw [resolve, h.documentId_eq, h.container_eq]
  refine bind_eq_ok_iff.2 ⟨_, registryOf_of_bindsOthers hregistry h.bindsOthers, ?_⟩
  refine bind_eq_ok_iff.2 ⟨_, h.parent.resolve_eq_ok hparent _, ?_⟩
  refine bind_eq_ok_iff.2 ⟨_, resolveChildren_of_describes h.children hchildren 0, ?_⟩
  refine bind_eq_ok_iff.2 ⟨_, resolveOptional_qualifiedName hid _, ?_⟩
  refine bind_eq_ok_iff.2 ⟨_, resolveOptional_qualifiedName hcontainer _, ?_⟩
  rw [hcrosswalk]
  rfl

/-! ## Writing definitions down -/

/-- The bindings of a registry whose prefixes are not builtin. -/
def bindingsOf (registry : Registry) : Bindings :=
  registry.labels.filter fun binding => !(Namespace.builtins.map Namespace.label).contains binding.1

theorem bindsOthers_bindingsOf {made : List Namespace}
    (hregistry : Registry.builtin.registerAll made = .ok registry) :
    BindsOthers (bindingsOf registry).toList registry := by
  have hlinked := Registry.linked_builtin.registerAll hregistry
  have hlabel : ∀ space ∈ registry.toList,
      space.label ∈ Namespace.builtins.map Namespace.label ↔ space ∈ Namespace.builtins := by
    intro space hspace
    constructor
    · intro hmem
      obtain ⟨other, hother, heq⟩ := List.mem_map.1 hmem
      have hkept := mem_of_mem_builtins hregistry hother
      have huri := (hlinked.oneToOne other hkept space hspace).1 heq
      rw [← Namespace.eq_of_label_of_uri heq huri]
      exact hother
    · exact fun hmem => List.mem_map_of_mem hmem
  intro label uri
  have hmem : (label, uri) ∈ (bindingsOf registry).toList ↔
      (label, uri) ∈ registry.labels.toList ∧
        label ∉ Namespace.builtins.map Namespace.label := by
    simp only [bindingsOf, Ascending.filter, List.mem_filter, Bool.not_eq_true',
      List.contains_eq_mem, decide_eq_false_iff_not]
  rw [hmem, hlinked.mem_labels_iff_mem]
  constructor
  · rintro ⟨⟨space, hspace, rfl, rfl⟩, hnew⟩
    exact ⟨space, hspace, fun h => hnew ((hlabel space hspace).2 h), rfl, rfl⟩
  · rintro ⟨space, hspace, hnew, rfl, rfl⟩
    exact ⟨⟨space, hspace, rfl, rfl⟩, fun h => hnew ((hlabel space hspace).1 h)⟩

/-- A rule in written forms. -/
def ruleOf (rule : Rule) : RuleDefinition where
  source := rule.tag.source.qualifiedName
  target := rule.tag.target.qualifiedName
  keepsText := rule.keepsText
  attributes := rule.attributes.toList.map Correspondence.definition

theorem describes_ruleOf (rule : Rule) : (ruleOf rule).Describes rule :=
  ⟨rfl, rfl, rfl, .refl _⟩

/-- A crosswalk and its record container in written forms. -/
def ofCrosswalk (registry : Registry) (crosswalk : Crosswalk) (container : Option Element) :
    Definition where
  bindings := bindingsOf registry
  documentId := crosswalk.documentId.map Element.qualifiedName
  parent := ruleOf crosswalk.parent
  children := crosswalk.children.map ruleOf
  container := container.map Element.qualifiedName

theorem describes_ofCrosswalk {made : List Namespace}
    (hregistry : Registry.builtin.registerAll made = .ok registry) (crosswalk : Crosswalk)
    (container : Option Element) :
    (ofCrosswalk registry crosswalk container).Describes registry crosswalk container where
  bindsOthers := bindsOthers_bindingsOf hregistry
  documentId_eq := rfl
  parent := describes_ruleOf crosswalk.parent
  children := List.forall₂_map_left_iff.2 (List.forall₂_same.2 fun rule _ => describes_ruleOf rule)
  container_eq := rfl

/-- A crosswalk and a record container whose elements a registry makes can be written down, and
every definition that writes them down resolves to them and to the registry, and has the stylesheet
that they have. -/
theorem described_comes_back {made : List Namespace}
    (hregistry : Registry.builtin.registerAll made = .ok registry)
    {crosswalk : Crosswalk} (hbuilt : crosswalk.Built) {container : Option Element}
    (hmade : ∀ element ∈ crosswalk.elements ++ container.toList,
      ∃ label localName, registry.element label localName = .ok element) :
    (ofCrosswalk registry crosswalk container).Describes registry crosswalk container ∧
      ∀ definition : Definition, definition.Describes registry crosswalk container →
        definition.resolve = .ok ⟨registry, crosswalk, container⟩ ∧
          (definition.resolve.map fun resolved =>
            resolved.crosswalk.stylesheet resolved.container) =
              .ok (crosswalk.stylesheet container) := by
  have hlinked := Registry.linked_builtin.registerAll hregistry
  have hbound : ∀ element ∈ crosswalk.elements ++ container.toList, element.BoundIn registry := by
    intro element hmem
    obtain ⟨label, localName, helement⟩ := hmade element hmem
    exact hlinked.boundIn_of_element helement
  refine ⟨describes_ofCrosswalk hregistry crosswalk container, fun definition h => ?_⟩
  have hresolve := h.resolve_eq_ok hregistry hbuilt hbound
  exact ⟨hresolve, by rw [hresolve]; rfl⟩

/-- A namespace that is not builtin. -/
def termSpace : Namespace :=
  ⟨"voc", "http://example.org/vocabulary#", by decide, by decide⟩

/-- A crosswalk to terms of that namespace, with two attributes for the record. -/
def labelledTerms : Crosswalk :=
  let parent := ((Rule.ofTag
      ⟨⟨Namespace.skos, "Collection", by decide⟩, ⟨termSpace, "Terms", by decide⟩⟩).withAttribute
        ⟨⟨Namespace.xml, "lang", by decide⟩, ⟨termSpace, "lang", by decide⟩⟩).withAttribute
          ⟨⟨Namespace.rdf, "ID", by decide⟩, ⟨termSpace, "id", by decide⟩⟩
  let label := (Rule.ofTag
      ⟨⟨Namespace.skos, "prefLabel", by decide⟩, ⟨termSpace, "label", by decide⟩⟩).withText true
  ((Crosswalk.ofParent parent).withChild label).withDocumentId ⟨Namespace.rdf, "ID", by decide⟩

theorem registerAll_termSpace :
    Registry.builtin.registerAll [termSpace] = .ok (Registry.builtin.insert termSpace) := by
  have hapart : ∀ other ∈ Namespace.builtins,
      other.uri ≠ termSpace.uri ∧ other.label ≠ termSpace.label := by
    decide
  apply Registry.registerAll_of_pairwise
  · refine List.forall_mem_singleton.2 (Registry.linked_builtin.unbound_of_forall_ne ?_)
    intro other hother
    exact hapart other (Registry.mem_toList_builtin.1 hother)
  · exact List.pairwise_singleton _ _

theorem labelledTerms_comes_back :
    let registry := Registry.builtin.insert termSpace
    Registry.builtin.registerAll [termSpace] = .ok registry ∧ labelledTerms.Built ∧
      (∀ element ∈ labelledTerms.elements ++ Option.toList none, ∃ label localName,
        registry.element label localName = .ok element) ∧
        ∀ definition : Definition, definition.Describes registry labelledTerms none →
          definition.resolve = .ok ⟨registry, labelledTerms, none⟩ := by
  have hbuilt : labelledTerms.Built := .withDocumentId (.withChild (.ofParent _) _) _
  have hbound : ∀ element ∈ labelledTerms.elements ++ Option.toList none,
      (Registry.builtin.insert termSpace).byLabel? element.space.label = some element.space := by
    decide +kernel
  have hmade : ∀ element ∈ labelledTerms.elements ++ Option.toList none, ∃ label localName,
      (Registry.builtin.insert termSpace).element label localName = .ok element := by
    intro element hmem
    refine ⟨element.space.label, element.localName, ?_⟩
    rw [Registry.element, hbound element hmem]
    exact element.inSpace_localName
  refine ⟨registerAll_termSpace, hbuilt, hmade, fun definition h => ?_⟩
  exact ((described_comes_back registerAll_termSpace hbuilt hmade).2 definition h).1

end Definition

end Concordance
