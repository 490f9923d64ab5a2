import Concordance.Proofs.Definition.Described
import Concordance.Proofs.Definition.Meaning
import Concordance.Proofs.Mapping.ChildList
import Mathlib.Logic.Relation

/-!
# Edits that change nothing

A definition may be edited without a change to what it means: the attributes of a rule may stand in
another order or more than once, a child rule may be repeated later on, names may have white space
around them, and namespaces may be bound that nothing uses or that are bound anyway.  After any
number of such edits the definition resolves to the same crosswalk, prefixes and all, with the same
record container, so that its stylesheet is the same or fails in the same way.
-/

namespace Concordance

/-! ## Rules -/

/-- Both names of an attribute without the white space around them. -/
def AttributeDefinition.trimmed (a : AttributeDefinition) : String × String :=
  (Text.trim a.source, Text.trim a.target)

namespace RuleDefinition

/-- An edit of a rule in the order, the number or the white space of what it says. -/
inductive Edit : RuleDefinition → RuleDefinition → Prop where
  | reordered {rule : RuleDefinition} {attributes : List AttributeDefinition}
      (hperm : attributes.Perm rule.attributes) : Edit rule { rule with attributes }
  | repeated {rule : RuleDefinition} {a : AttributeDefinition}
      {before after : List AttributeDefinition} (hattributes : rule.attributes = before ++ after)
      (ha : a ∈ rule.attributes) : Edit rule { rule with attributes := before ++ a :: after }
  | paddedSource {rule : RuleDefinition} {source : String} (hpadded : Padded rule.source source) :
      Edit rule { rule with source }
  | paddedTarget {rule : RuleDefinition} {target : String} (hpadded : Padded rule.target target) :
      Edit rule { rule with target }
  | paddedAttribute {rule : RuleDefinition} {a padded : AttributeDefinition}
      {before after : List AttributeDefinition}
      (hattributes : rule.attributes = before ++ a :: after)
      (hsource : Padded a.source padded.source) (htarget : Padded a.target padded.target) :
      Edit rule { rule with attributes := before ++ padded :: after }

/-- The rules have the same names but for white space, where only the set of the attributes
counts. -/
structure Alike (a b : RuleDefinition) : Prop where
  source_eq : Text.trim a.source = Text.trim b.source
  target_eq : Text.trim a.target = Text.trim b.target
  keepsText_eq : a.keepsText = b.keepsText
  mem_trimmed_iff : ∀ names, names ∈ a.attributes.map AttributeDefinition.trimmed ↔
    names ∈ b.attributes.map AttributeDefinition.trimmed

theorem Edit.alike {rule edited : RuleDefinition} (h : rule.Edit edited) : edited.Alike rule := by
  cases h with
  | reordered hperm =>
    refine ⟨rfl, rfl, rfl, ?_⟩
    intro names
    exact (hperm.map AttributeDefinition.trimmed).mem_iff
  | @repeated a before after hattributes ha =>
    have hmem : ∀ b, b ∈ before ++ a :: after ↔ b ∈ rule.attributes := by
      intro b
      rw [hattributes] at ha ⊢
      rw [List.perm_middle.mem_iff, List.mem_cons]
      exact or_iff_right_of_imp fun heq => heq ▸ ha
    refine ⟨rfl, rfl, rfl, ?_⟩
    intro names
    simp only [List.mem_map, hmem]
  | paddedSource hpadded => exact ⟨Text.trim_of_padded hpadded, rfl, rfl, fun _ => Iff.rfl⟩
  | paddedTarget hpadded => exact ⟨rfl, Text.trim_of_padded hpadded, rfl, fun _ => Iff.rfl⟩
  | @paddedAttribute a padded before after hattributes hsource htarget =>
    have htrimmed : padded.trimmed = a.trimmed :=
      Prod.ext (Text.trim_of_padded hsource) (Text.trim_of_padded htarget)
    refine ⟨rfl, rfl, rfl, ?_⟩
    intro names
    rw [hattributes, List.map_append, List.map_append, List.map_cons, List.map_cons, htrimmed]

end RuleDefinition

namespace Registry

variable {registry : Registry}

theorem names_congr {written other : String} (h : Text.trim written = Text.trim other)
    {element : Element} : registry.Names written element ↔ registry.Names other element := by
  constructor
  · exact fun hnames => ⟨h.symm.trans hnames.trim_eq, hnames.boundIn⟩
  · exact fun hnames => ⟨h.trans hnames.trim_eq, hnames.boundIn⟩

theorem namesBoth_congr {source target source' target' : String}
    (hsource : Text.trim source = Text.trim source')
    (htarget : Text.trim target = Text.trim target') {c : Correspondence} :
    registry.NamesBoth source target c ↔ registry.NamesBoth source' target' c := by
  constructor
  · exact fun h => ⟨(names_congr hsource).1 h.source, (names_congr htarget).1 h.target⟩
  · exact fun h => ⟨(names_congr hsource).2 h.source, (names_congr htarget).2 h.target⟩

theorem exists_of_mem_trimmed {as bs : List AttributeDefinition} {c : Correspondence}
    (hmem : ∀ names, names ∈ as.map AttributeDefinition.trimmed →
      names ∈ bs.map AttributeDefinition.trimmed)
    (h : ∃ a ∈ as, registry.NamesBoth a.source a.target c) :
    ∃ b ∈ bs, registry.NamesBoth b.source b.target c := by
  obtain ⟨a, ha, hnames⟩ := h
  obtain ⟨b, hb, htrimmed⟩ := List.mem_map.1 (hmem _ (List.mem_map_of_mem ha))
  obtain ⟨hsource, htarget⟩ := Prod.mk.inj htrimmed
  exact ⟨b, hb, (namesBoth_congr hsource htarget).2 hnames⟩

/-- Rules that are alike are read alike. -/
theorem NamesRule.of_alike {definition edited : RuleDefinition} {rule : Rule}
    (h : registry.NamesRule definition rule) (halike : edited.Alike definition) :
    registry.NamesRule edited rule := by
  have htag := (namesBoth_congr halike.source_eq halike.target_eq).2 h.tag
  refine ⟨htag, h.keepsText_eq.trans halike.keepsText_eq.symm, ?_, ?_⟩
  · intro a ha
    obtain ⟨b, hb, htrimmed⟩ :=
      List.mem_map.1 ((halike.mem_trimmed_iff _).1 (List.mem_map_of_mem ha))
    obtain ⟨c, hnames⟩ := h.exists_correspondence b hb
    obtain ⟨hsource, htarget⟩ := Prod.mk.inj htrimmed
    exact ⟨c, (namesBoth_congr hsource htarget).1 hnames⟩
  · intro c
    rw [h.mem_attributes_iff]
    constructor
    · exact exists_of_mem_trimmed fun names => (halike.mem_trimmed_iff names).2
    · exact exists_of_mem_trimmed fun names => (halike.mem_trimmed_iff names).1

end Registry

/-! ## Lists that are read one by one -/

section Forall₂

variable {α β : Type} {R : α → β → Prop} {as before after : List α} {bs : List β}

theorem exists_append_of_forall₂ (h : List.Forall₂ R (before ++ after) bs) :
    ∃ before' after', bs = before' ++ after' ∧ List.Forall₂ R before before' ∧
      List.Forall₂ R after after' := by
  refine ⟨bs.take before.length, bs.drop before.length, (List.take_append_drop _ _).symm, ?_, ?_⟩
  · exact (List.forall₂_take_append bs before after h.flip).flip
  · exact (List.forall₂_drop_append bs before after h.flip).flip

theorem exists_mem_of_forall₂ (h : List.Forall₂ R as bs) {a : α} (ha : a ∈ as) :
    ∃ b ∈ bs, R a b := by
  induction h with
  | nil => cases ha
  | @cons first b rest others hfirst _ ih =>
    rcases List.mem_cons.1 ha with rfl | ha
    · exact ⟨b, List.mem_cons_self, hfirst⟩
    · obtain ⟨other, hmem, hother⟩ := ih ha
      exact ⟨other, List.mem_cons_of_mem b hmem, hother⟩

end Forall₂

/-! ## Bindings -/

namespace Definition

/-- One binding more is as good as one call more, wherever it stands. -/
theorem registryOf_of_mem_iff {registry registry' : Registry} {space : Namespace}
    {bindings others : List (String × String)} (h : registryOf bindings = .ok registry)
    (hregister : registry.register space = (.ok (), registry'))
    (hmem : ∀ b, b ∈ others ↔ b = (space.label, space.uri) ∨ b ∈ bindings) :
    registryOf others = .ok registry' := by
  obtain ⟨spaces, rfl, hspaces⟩ := registryOf_eq_ok h
  have hpairs : ∀ b ∈ others, ∃ space : Namespace, (space.label, space.uri) = b := by
    intro b hb
    rcases (hmem b).1 hb with rfl | hb
    · exact ⟨space, rfl⟩
    · obtain ⟨other, -, heq⟩ := List.mem_map.1 hb
      exact ⟨other, heq⟩
  obtain ⟨asked, rfl⟩ := exists_map_pair_eq hpairs
  have hasked : ∀ other, other ∈ asked ↔ other ∈ spaces ++ [space] := by
    intro other
    rw [← List.mem_map_of_injective Namespace.injective_pair, hmem,
      List.mem_map_of_injective Namespace.injective_pair, List.mem_append, List.mem_singleton,
      or_comm, Namespace.injective_pair.eq_iff]
  have hall : Registry.builtin.registerAll (spaces ++ [space]) = .ok registry' :=
    Registry.registerAll_append_eq_ok_iff.2
      ⟨registry, hspaces, Registry.registerAll_cons_eq_ok_iff.2 ⟨registry', hregister, rfl⟩⟩
  exact registryOf_map_eq_ok (Registry.linked_builtin.registerAll_congr hall hasked)

/-! ## Definitions -/

/-- An edit of a definition in the order, the number or the white space of what it says, or in what
it binds besides. -/
inductive Edit : Definition → Definition → Prop where
  | parent {definition : Definition} {parent : RuleDefinition}
      (hparent : definition.parent.Edit parent) : Edit definition { definition with parent }
  | child {definition : Definition} {rule edited : RuleDefinition}
      {before after : List RuleDefinition}
      (hchildren : definition.children = before ++ rule :: after) (hrule : rule.Edit edited) :
      Edit definition { definition with children := before ++ edited :: after }
  | repeatedChild {definition : Definition} {rule : RuleDefinition}
      {before after : List RuleDefinition} (hchildren : definition.children = before ++ after)
      (hrule : rule ∈ before) :
      Edit definition { definition with children := before ++ rule :: after }
  | documentId {definition : Definition} {written padded : String}
      (hid : definition.documentId = some written) (hpadded : Padded written padded) :
      Edit definition { definition with documentId := some padded }
  | container {definition : Definition} {written padded : String}
      (hcontainer : definition.container = some written) (hpadded : Padded written padded) :
      Edit definition { definition with container := some padded }
  | builtinBinding {definition : Definition} {binding : String × String}
      (hbuiltin : binding ∈ builtinBindings) :
      Edit definition { definition with bindings := definition.bindings.insertOver binding }
  /-- A namespace is bound besides that shares its prefix with no other URI and its URI with no
  other prefix, such as one of which neither is bound. -/
  | binding {definition : Definition} {space : Namespace}
      (hagrees : ∀ other ∈ builtinBindings ++ definition.bindings.toList,
        other.1 = space.label ↔ other.2 = space.uri) :
      Edit definition
        { definition with bindings := definition.bindings.insertOver (space.label, space.uri) }

variable {definition edited : Definition} {resolved : Resolved}

theorem Means.child {registry : Registry} {crosswalk : Crosswalk} {container : Option Element}
    {rule padded : RuleDefinition} {before after : List RuleDefinition}
    (h : definition.Means registry crosswalk container)
    (hchildren : definition.children = before ++ rule :: after) (halike : padded.Alike rule) :
    Means { definition with children := before ++ padded :: after } registry crosswalk
      container := by
  obtain ⟨rules, hrules, hkept⟩ := h.exists_children
  rw [hchildren] at hrules
  obtain ⟨before', rest, rfl, hbefore, hrest⟩ := exists_append_of_forall₂ hrules
  obtain ⟨child, after', hchild, hafter, rfl⟩ := List.forall₂_cons_left_iff.1 hrest
  refine ⟨h.parent, ⟨_, ?_, hkept⟩, h.documentId, h.container⟩
  exact List.rel_append hbefore (.cons (hchild.of_alike halike) hafter)

/-- A child rule that is repeated resolves to the rule that is there, which is not added again. -/
theorem Means.repeatedChild {registry : Registry} {crosswalk : Crosswalk}
    {container : Option Element} {rule : RuleDefinition} {before after : List RuleDefinition}
    (h : definition.Means registry crosswalk container)
    (hchildren : definition.children = before ++ after) (hrule : rule ∈ before) :
    Means { definition with children := before ++ rule :: after } registry crosswalk
      container := by
  obtain ⟨rules, hrules, hkept⟩ := h.exists_children
  rw [hchildren] at hrules
  obtain ⟨before', after', rfl, hbefore, hafter⟩ := exists_append_of_forall₂ hrules
  obtain ⟨child, hmem, hchild⟩ := exists_mem_of_forall₂ hbefore hrule
  refine ⟨h.parent, ⟨before' ++ child :: after', ?_, ?_⟩, h.documentId, h.container⟩
  · exact List.rel_append hbefore (.cons hchild hafter)
  · rw [hkept, Crosswalk.withChildren_repeated _ hmem]

theorem rel_names_padded {registry : Registry} {name : Option String} {element : Option Element}
    {written padded : String} (h : Option.Rel registry.Names name element)
    (hname : name = some written) (hpadded : Padded written padded) :
    Option.Rel registry.Names (some padded) element := by
  rw [hname] at h
  cases h with
  | some hnames => exact .some (hnames.padded hpadded)

/-- A namespace that fits those of the registry may be bound besides. -/
theorem exists_resolve_insertOver {space : Namespace} (hresolve : definition.resolve = .ok resolved)
    (hfits : ∀ other ∈ resolved.registry.toList,
      other.label = space.label ↔ other.uri = space.uri) :
    ∃ registry, resolve { definition with
        bindings := definition.bindings.insertOver (space.label, space.uri) } =
      .ok ⟨registry, resolved.crosswalk, resolved.container⟩ := by
  obtain ⟨hregistry, hmeans⟩ := resolve_eq_ok_iff.1 hresolve
  have hlinked := linked_of_registryOf hregistry
  obtain ⟨registry', hregister⟩ := (hlinked.exists_register_iff space).2 hfits
  have hagrees : ∀ b ∈ definition.bindings.toList, b.1 = space.label →
      b = (space.label, space.uri) := by
    intro b hb hlabel
    obtain ⟨other, hother, rfl⟩ := exists_space_of_registryOf hregistry hb
    exact Prod.ext hlabel ((hfits other hother).1 hlabel)
  have hregistry' := registryOf_of_mem_iff hregistry hregister fun b =>
    Ascending.mem_insertOver_iff hagrees
  refine ⟨registry', resolve_eq_ok_iff.2 ⟨hregistry', ?_⟩⟩
  have hmore : ∀ other ∈ resolved.registry.toList, other ∈ registry'.toList := by
    intro other hother
    exact (Registry.mem_toList_register hregister).2 (Or.inl hother)
  have hread := hmeans.mono hlinked (hlinked.register hregister) hmore
  exact ⟨hread.parent, hread.exists_children, hread.documentId, hread.container⟩

/-- One edit leaves what the definition resolves to, but for the registry. -/
theorem Edit.exists_resolve (h : definition.Edit edited)
    (hresolve : definition.resolve = .ok resolved) :
    ∃ registry, edited.resolve = .ok ⟨registry, resolved.crosswalk, resolved.container⟩ := by
  obtain ⟨hregistry, hmeans⟩ := resolve_eq_ok_iff.1 hresolve
  cases h with
  | parent hparent =>
    have hread := hmeans.parent.of_alike hparent.alike
    exact ⟨_, resolve_eq_ok_iff.2 ⟨hregistry, hread, hmeans.exists_children, hmeans.documentId,
      hmeans.container⟩⟩
  | child hchildren hrule =>
    exact ⟨_, resolve_eq_ok_iff.2 ⟨hregistry, hmeans.child hchildren hrule.alike⟩⟩
  | repeatedChild hchildren hrule =>
    exact ⟨_, resolve_eq_ok_iff.2 ⟨hregistry, hmeans.repeatedChild hchildren hrule⟩⟩
  | documentId hid hpadded =>
    have hread := rel_names_padded hmeans.documentId hid hpadded
    exact ⟨_, resolve_eq_ok_iff.2 ⟨hregistry, hmeans.parent, hmeans.exists_children, hread,
      hmeans.container⟩⟩
  | container hcontainer hpadded =>
    have hread := rel_names_padded hmeans.container hcontainer hpadded
    exact ⟨_, resolve_eq_ok_iff.2 ⟨hregistry, hmeans.parent, hmeans.exists_children,
      hmeans.documentId, hread⟩⟩
  | builtinBinding hbuiltin =>
    obtain ⟨space, hspace, rfl⟩ := List.mem_map.1 hbuiltin
    apply exists_resolve_insertOver hresolve
    intro other hother
    have hmem := (mem_toList_of_registryOf hregistry).2 (Or.inl hspace)
    exact (linked_of_registryOf hregistry).oneToOne other hother space hmem
  | binding hagrees =>
    apply exists_resolve_insertOver hresolve
    intro other hother
    apply hagrees (other.label, other.uri)
    rcases (mem_toList_of_registryOf hregistry).1 hother with hbuiltin | hbound
    · exact List.mem_append_left _ (List.mem_map_of_mem hbuiltin)
    · exact List.mem_append_right _ hbound

/-- Edits that must not matter do not: after any number of them a definition that resolves has the
same crosswalk, prefixes and all, and the same record container, and with them the same stylesheet
or the same error. -/
theorem resolve_of_edits (h : Relation.ReflTransGen Edit definition edited)
    (hresolve : definition.resolve = .ok resolved) :
    ∃ resolved', edited.resolve = .ok resolved' ∧ resolved'.crosswalk = resolved.crosswalk ∧
      resolved'.container = resolved.container ∧
      resolved'.crosswalk.stylesheet resolved'.container =
        resolved.crosswalk.stylesheet resolved.container := by
  have hsame : ∃ registry,
      edited.resolve = .ok ⟨registry, resolved.crosswalk, resolved.container⟩ := by
    induction h with
    | refl => exact ⟨resolved.registry, hresolve⟩
    | tail _ hedit ih =>
      obtain ⟨registry, hbefore⟩ := ih
      have hafter := hedit.exists_resolve hbefore
      exact hafter
  obtain ⟨registry, hedited⟩ := hsame
  exact ⟨_, hedited, rfl, rfl, rfl⟩

/-- A definition with a builtin namespace and an unused one bound besides, an attribute and a child
rule repeated, and white space around the name of the record identifier. -/
theorem terms_resolve_of_edits :
    let child : RuleDefinition := ⟨" skos:broader ", "skos:related", true, []⟩
    let edited : Definition := {
      bindings := (terms.bindings.insertOver ("skos", Namespace.skosUri)).insertOver
        ("voc", "http://example.org/vocabulary#")
      documentId := some "\tdc:identifier\u2003"
      parent := ⟨"skos:Concept", "ex:Term", false,
        [⟨"xml:lang", "ex:lang"⟩, ⟨"xml:lang", "ex:lang"⟩]⟩
      children := [child, child]
      container := none }
    Relation.ReflTransGen Edit terms edited ∧ ∃ resolved resolved',
      terms.resolve = .ok resolved ∧ edited.resolve = .ok resolved' ∧
        resolved'.crosswalk.stylesheet resolved'.container =
          resolved.crosswalk.stylesheet resolved.container := by
  intro child edited
  let lang : AttributeDefinition := ⟨"xml:lang", "ex:lang"⟩
  let restated : Definition :=
    { terms with bindings := terms.bindings.insertOver ("skos", Namespace.skosUri) }
  let bound : Definition := { terms with bindings := edited.bindings }
  let padded : Definition := { bound with documentId := edited.documentId }
  let repeated : Definition := { padded with parent := edited.parent }
  have hrestated : terms.Edit restated := .builtinBinding (by decide)
  have hbound : restated.Edit bound := @Edit.binding restated termSpace (by decide)
  have hpadded : bound.Edit padded :=
    .documentId rfl ⟨"\t", "\u2003", List.all_eq_true.1 (by decide),
      List.all_eq_true.1 (by decide), by decide⟩
  have hlang : terms.parent.Edit edited.parent :=
    @RuleDefinition.Edit.repeated terms.parent lang [lang] [] rfl (by decide)
  have hrepeated : padded.Edit repeated := .parent hlang
  have hchild : repeated.Edit edited := @Edit.repeatedChild repeated child [child] [] rfl (by simp)
  have hedits : Relation.ReflTransGen Edit terms edited :=
    ((((Relation.ReflTransGen.single hrestated).tail hbound).tail hpadded).tail
      hrepeated).tail hchild
  obtain ⟨resolved, hresolve⟩ := exists_resolve_terms
  obtain ⟨resolved', hresolve', -, -, hsame⟩ := resolve_of_edits hedits hresolve
  exact ⟨hedits, resolved, resolved', hresolve, hresolve', hsame⟩

end Definition

end Concordance
