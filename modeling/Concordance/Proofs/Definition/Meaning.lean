import Concordance.Proofs.Mapping.AttributeSet
import Mathlib.Data.List.Forall2

/-!
# What a definition means

A definition resolves to a crosswalk exactly when each of its names is read as the name that the
crosswalk has in its place.  Of the attributes of a rule only the set counts, since what they
resolve to comes from one registry, and no name is read otherwise in a registry that binds more.
Where a name stands is of no account, for the place is only shown in errors.
-/

namespace Concordance

/-! ## Names and rules -/

namespace Registry

variable {registry registry' : Registry}

/-- The two texts are read as the two sides of the correspondence. -/
structure NamesBoth (registry : Registry) (source target : String) (c : Correspondence) : Prop where
  source : registry.Names source c.source
  target : registry.Names target c.target

/-- The names of the rule definition are read as those of the rule, where only the set of the
attributes counts. -/
structure NamesRule (registry : Registry) (definition : RuleDefinition) (rule : Rule) : Prop where
  tag : registry.NamesBoth definition.source definition.target rule.tag
  keepsText_eq : rule.keepsText = definition.keepsText
  exists_correspondence : ∀ a ∈ definition.attributes, ∃ c, registry.NamesBoth a.source a.target c
  mem_attributes_iff : ∀ c, c ∈ rule.attributes.toList ↔
    ∃ a ∈ definition.attributes, registry.NamesBoth a.source a.target c

theorem Names.unique {written : String} {element other : Element}
    (h : registry.Names written element) (h' : registry.Names written other) : element = other :=
  eq_of_qualifiedName_eq h.boundIn h'.boundIn (h.trim_eq.symm.trans h'.trim_eq)

theorem NamesBoth.unique {source target : String} {c d : Correspondence}
    (h : registry.NamesBoth source target c) (h' : registry.NamesBoth source target d) : c = d := by
  apply Correspondence.eq_of_source_of_target
  · exact h.source.unique h'.source
  · exact h.target.unique h'.target

/-! ### Registries that bind more -/

section Growing

variable (hlinked : registry.Linked) (hlinked' : registry'.Linked)
  (hmem : ∀ space ∈ registry.toList, space ∈ registry'.toList)

include hlinked hlinked' hmem

theorem Names.mono {written : String} {element : Element} (h : registry.Names written element) :
    registry'.Names written element := by
  have hspace := hmem _ (hlinked.boundIn_iff_mem.1 h.boundIn)
  exact ⟨h.trim_eq, hlinked'.boundIn_iff_mem.2 hspace⟩

theorem NamesBoth.mono {source target : String} {c : Correspondence}
    (h : registry.NamesBoth source target c) : registry'.NamesBoth source target c :=
  ⟨h.source.mono hlinked hlinked' hmem, h.target.mono hlinked hlinked' hmem⟩

theorem NamesRule.mono {definition : RuleDefinition} {rule : Rule}
    (h : registry.NamesRule definition rule) : registry'.NamesRule definition rule := by
  have hmono : ∀ {source target c}, registry.NamesBoth source target c →
      registry'.NamesBoth source target c := NamesBoth.mono hlinked hlinked' hmem
  refine ⟨hmono h.tag, h.keepsText_eq, ?_, ?_⟩
  · intro a ha
    obtain ⟨c, hnames⟩ := h.exists_correspondence a ha
    exact ⟨c, hmono hnames⟩
  · intro c
    rw [h.mem_attributes_iff]
    constructor
    · rintro ⟨a, ha, hnames⟩
      exact ⟨a, ha, hmono hnames⟩
    · rintro ⟨a, ha, hnames⟩
      -- what the attribute is read as does not change
      obtain ⟨d, hd⟩ := h.exists_correspondence a ha
      rw [hnames.unique (hmono hd)]
      exact ⟨a, ha, hd⟩

end Growing

/-! ### Resolving -/

section Resolving

variable (hlinked : registry.Linked)

include hlinked

theorem Linked.resolvePair_eq_ok_iff {source target place : String} {c : Correspondence} :
    registry.resolvePair source target place = .ok c ↔ registry.NamesBoth source target c := by
  rw [resolvePair]
  constructor
  · intro h
    obtain ⟨first, hfirst, h⟩ := bind_eq_ok_iff.1 h
    obtain ⟨second, hsecond, h⟩ := bind_eq_ok_iff.1 h
    cases h
    exact ⟨hlinked.resolve_eq_ok_iff.1 hfirst, hlinked.resolve_eq_ok_iff.1 hsecond⟩
  · intro h
    exact bind_eq_ok_iff.2 ⟨_, h.source.resolve_eq_ok place,
      bind_eq_ok_iff.2 ⟨_, h.target.resolve_eq_ok place, rfl⟩⟩

/-- The attributes of a rule are those that one of its attribute definitions is read as. -/
theorem Linked.mem_withAttributes_iff {definitions : List AttributeDefinition} {place : String}
    {attributes : List Correspondence}
    (h : (definitions.mapM fun a => registry.resolvePair a.source a.target place) =
      .ok attributes) {tag c : Correspondence} :
    c ∈ ((Rule.ofTag tag).withAttributes attributes).attributes.toList ↔
      ∃ a ∈ definitions, registry.NamesBoth a.source a.target c := by
  have hmem : ∀ d, d ∈ attributes ↔ ∃ a ∈ definitions, registry.NamesBoth a.source a.target d := by
    intro d
    constructor
    · intro hd
      obtain ⟨a, ha, hread⟩ := exists_of_mem_mapM h hd
      exact ⟨a, ha, hlinked.resolvePair_eq_ok_iff.1 hread⟩
    · rintro ⟨a, ha, hnames⟩
      obtain ⟨d', hd', hread⟩ := exists_result_of_mem_mapM h ha
      rw [hnames.unique (hlinked.resolvePair_eq_ok_iff.1 hread)]
      exact hd'
  have hmakes : registry.MakesAll attributes := by
    intro d hd element helement
    obtain ⟨a, -, hnames⟩ := (hmem d).1 hd
    apply hlinked.makes_iff.2
    rcases List.mem_pair.1 helement with rfl | rfl
    · exact hnames.source.boundIn
    · exact hnames.target.boundIn
  rw [Rule.mem_withAttributes_of_makesAll hlinked hmakes, hmem]

theorem Linked.resolveRule_eq_ok_iff {definition : RuleDefinition} {place : String} {rule : Rule} :
    definition.resolve registry place = .ok rule ↔ registry.NamesRule definition rule := by
  rw [RuleDefinition.resolve]
  constructor
  · intro h
    obtain ⟨tag, htag, h⟩ := bind_eq_ok_iff.1 h
    obtain ⟨attributes, hattributes, h⟩ := bind_eq_ok_iff.1 h
    cases h
    refine ⟨?_, rfl, ?_, fun c => hlinked.mem_withAttributes_iff hattributes⟩
    · rw [Rule.withText, Rule.tag_withAttributes]
      exact hlinked.resolvePair_eq_ok_iff.1 htag
    · intro a ha
      obtain ⟨c, -, hread⟩ := exists_result_of_mem_mapM hattributes ha
      exact ⟨c, hlinked.resolvePair_eq_ok_iff.1 hread⟩
  · intro h
    have hall : ∀ a ∈ definition.attributes, ∃ c,
        registry.resolvePair a.source a.target (place ++ ".attributes") = .ok c := by
      intro a ha
      obtain ⟨c, hnames⟩ := h.exists_correspondence a ha
      exact ⟨c, hlinked.resolvePair_eq_ok_iff.2 hnames⟩
    obtain ⟨attributes, hattributes⟩ := exists_mapM_eq_ok hall
    have hsame : ((Rule.ofTag rule.tag).withAttributes attributes).attributes =
        rule.attributes := by
      apply Ascending.eq_of_mem_iff
      intro c
      rw [hlinked.mem_withAttributes_iff hattributes, h.mem_attributes_iff]
    refine bind_eq_ok_iff.2 ⟨rule.tag, hlinked.resolvePair_eq_ok_iff.2 h.tag, ?_⟩
    refine bind_eq_ok_iff.2 ⟨attributes, hattributes, ?_⟩
    rw [Rule.withText, Rule.tag_withAttributes, hsame, ← h.keepsText_eq]
    rfl

theorem Linked.resolveOptional_eq_ok_iff {name : Option String} {place : String}
    {element : Option Element} :
    Definition.resolveOptional registry name place = .ok element ↔
      Option.Rel registry.Names name element := by
  rw [Definition.resolveOptional_eq_ok_iff]
  constructor
  · rintro (⟨rfl, rfl⟩ | ⟨written, found, rfl, hfound, rfl⟩)
    · exact .none
    · exact .some (hlinked.resolve_eq_ok_iff.1 hfound)
  · intro h
    cases h with
    | none => exact Or.inl ⟨rfl, rfl⟩
    | some hnames => exact Or.inr ⟨_, _, rfl, hnames.resolve_eq_ok place, rfl⟩

theorem Linked.resolveChildren_eq_ok_iff {definitions : List RuleDefinition} {index : Nat}
    {rules : List Rule} :
    Definition.resolveChildren registry index definitions = .ok rules ↔
      List.Forall₂ registry.NamesRule definitions rules := by
  induction definitions generalizing index rules with
  | nil =>
    rw [Definition.resolveChildren, List.forall₂_nil_left_iff]
    exact ⟨fun h => (Except.ok.inj h).symm, fun h => congrArg Except.ok h.symm⟩
  | cons first rest ih =>
    rw [Definition.resolveChildren, List.forall₂_cons_left_iff]
    constructor
    · intro h
      obtain ⟨rule, hrule, h⟩ := bind_eq_ok_iff.1 h
      obtain ⟨others, hothers, h⟩ := bind_eq_ok_iff.1 h
      cases h
      exact ⟨rule, others, hlinked.resolveRule_eq_ok_iff.1 hrule, ih.1 hothers, rfl⟩
    · rintro ⟨rule, others, hrule, hothers, rfl⟩
      exact bind_eq_ok_iff.2 ⟨rule, hlinked.resolveRule_eq_ok_iff.2 hrule,
        bind_eq_ok_iff.2 ⟨others, ih.2 hothers, rfl⟩⟩

end Resolving

end Registry

/-! ## Definitions -/

namespace Definition

/-- The names of the definition are read as those of the crosswalk and of the record container. -/
structure Means (definition : Definition) (registry : Registry) (crosswalk : Crosswalk)
    (container : Option Element) : Prop where
  parent : registry.NamesRule definition.parent crosswalk.parent
  exists_children : ∃ rules, List.Forall₂ registry.NamesRule definition.children rules ∧
    crosswalk.children = ((Crosswalk.ofParent crosswalk.parent).withChildren rules).children
  documentId : Option.Rel registry.Names definition.documentId crosswalk.documentId
  container : Option.Rel registry.Names definition.container container

/-- A definition resolves to what it means in the registry of its bindings. -/
theorem resolve_eq_ok_iff {definition : Definition} {resolved : Resolved} :
    definition.resolve = .ok resolved ↔
      registryOf definition.bindings.toList = .ok resolved.registry ∧
        definition.Means resolved.registry resolved.crosswalk resolved.container := by
  constructor
  · intro h
    obtain ⟨rules, hto⟩ := exists_resolvesTo h
    have hlinked := hto.linked
    refine ⟨hto.registryOf_eq, ?_, ⟨rules, ?_, hto.children_eq⟩, ?_, ?_⟩
    · exact hlinked.resolveRule_eq_ok_iff.1 hto.parent_eq
    · exact hlinked.resolveChildren_eq_ok_iff.1 hto.resolveChildren_eq
    · exact hlinked.resolveOptional_eq_ok_iff.1 hto.documentId_eq
    · exact hlinked.resolveOptional_eq_ok_iff.1 hto.container_eq
  · rintro ⟨hregistry, hparent, ⟨rules, hrules, hchildren⟩, hid, hcontainer⟩
    have hlinked := linked_of_registryOf hregistry
    let children := (Crosswalk.ofParent resolved.crosswalk.parent).withChildren rules
    have hcrosswalk : Crosswalk.mk children.parent children.children
        resolved.crosswalk.documentId = resolved.crosswalk := by
      rw [Crosswalk.parent_withChildren, ← hchildren]
      rfl
    rw [resolve]
    refine bind_eq_ok_iff.2 ⟨resolved.registry, hregistry, ?_⟩
    refine bind_eq_ok_iff.2 ⟨_, hlinked.resolveRule_eq_ok_iff.2 hparent, ?_⟩
    refine bind_eq_ok_iff.2 ⟨rules, hlinked.resolveChildren_eq_ok_iff.2 hrules, ?_⟩
    refine bind_eq_ok_iff.2 ⟨_, hlinked.resolveOptional_eq_ok_iff.2 hid, ?_⟩
    refine bind_eq_ok_iff.2 ⟨_, hlinked.resolveOptional_eq_ok_iff.2 hcontainer, ?_⟩
    exact congrArg (fun crosswalk => Except.ok
      (Resolved.mk resolved.registry crosswalk resolved.container)) hcrosswalk

/-- What a definition means does not change in a registry that binds more. -/
theorem Means.mono {definition : Definition} {registry registry' : Registry}
    {crosswalk : Crosswalk} {container : Option Element} (hlinked : registry.Linked)
    (hlinked' : registry'.Linked) (hmem : ∀ space ∈ registry.toList, space ∈ registry'.toList)
    (h : definition.Means registry crosswalk container) :
    definition.Means registry' crosswalk container := by
  obtain ⟨rules, hrules, hchildren⟩ := h.exists_children
  have hnames : ∀ {name : Option String} {element : Option Element},
      Option.Rel registry.Names name element → Option.Rel registry'.Names name element := by
    intro name element hrel
    cases hrel with
    | none => exact .none
    | some hnames => exact .some (hnames.mono hlinked hlinked' hmem)
  refine ⟨h.parent.mono hlinked hlinked' hmem, ⟨rules, ?_, hchildren⟩, hnames h.documentId,
    hnames h.container⟩
  exact hrules.imp fun _ _ hrule => hrule.mono hlinked hlinked' hmem

end Definition

end Concordance
