import Concordance.Proofs.Definition.Described
import Mathlib.Data.List.TakeWhile

/-!
# The checks of a definition

A definition resolves just if each of its namespaces and names passes a check, and otherwise the
error is that of the first check that fails: the namespaces come first, in the order of their
prefixes, and then the names, in the order in which the definition has them and each with the place
where it stands.

The checks are stated without a registry.  A namespace is checked against the pairs of prefix and
URI that are bound before it, and a name against all that are bound.
-/

namespace Concordance

/-! ## Checks and their failures -/

/-- The text is split by its first colon. -/
def SplitsAt (text label localName : String) : Prop :=
  text = label ++ ":" ++ localName ∧ ':' ∉ label.toList

/-- What is checked: a namespace that is to be bound beside others, or a name that stands at a
place, given what is bound. -/
inductive Check where
  | binding (bound : List (String × String)) (label uri : String)
  | name (bound : List (String × String)) (written place : String)

namespace Check

/-- A namespace needs a name for its prefix and a URI that is not blank, and shares neither with
another one unless it shares both.  A name needs a prefix that is bound and a local name. -/
def Passes : Check → Prop
  | binding bound label uri => isNCName label = true ∧ Text.isBlank uri = false ∧
      ∀ other ∈ bound, other.1 = label ↔ other.2 = uri
  | name bound written _ => ∃ label localName, SplitsAt (Text.trim written) label localName ∧
      (∃ uri, (label, uri) ∈ bound) ∧ isNCName localName = true

/-- How a check fails.  Where a namespace shares its URI with one and its prefix with another, the
URI counts. -/
inductive Fails : Check → ResolveError → Prop
  | emptyPrefix {bound : List (String × String)} {label uri : String}
      (hlabel : Text.isBlank label = true) :
      Fails (.binding bound label uri) (.fault (.emptyPrefix uri))
  | invalidPrefix {bound : List (String × String)} {label uri : String}
      (hblank : Text.isBlank label = false) (hlabel : isNCName label = false) :
      Fails (.binding bound label uri) (.fault (.invalidPrefix label uri))
  | emptyUri {bound : List (String × String)} {label uri : String}
      (hlabel : isNCName label = true) (huri : Text.isBlank uri = true) :
      Fails (.binding bound label uri) (.fault (.emptyUri label))
  | uriConflict {bound : List (String × String)} {label uri existing : String}
      (hlabel : isNCName label = true) (huri : Text.isBlank uri = false)
      (hbound : (existing, uri) ∈ bound) (hne : existing ≠ label) :
      Fails (.binding bound label uri) (.fault (.uriConflict uri existing label))
  | prefixConflict {bound : List (String × String)} {label uri existing : String}
      (hlabel : isNCName label = true) (huri : Text.isBlank uri = false)
      (hfree : ∀ other, (other, uri) ∉ bound) (hbound : (label, existing) ∈ bound) :
      Fails (.binding bound label uri) (.fault (.prefixConflict label existing uri))
  | invalidName {bound : List (String × String)} {written place : String}
      (hsplit : ∀ label localName, SplitsAt (Text.trim written) label localName →
        label = "" ∨ localName = "") :
      Fails (.name bound written place) (.invalidName written)
  | unknownPrefix {bound : List (String × String)} {written place label localName : String}
      (hsplit : SplitsAt (Text.trim written) label localName) (hlabel : label ≠ "")
      (hlocal : localName ≠ "") (hfree : ∀ uri, (label, uri) ∉ bound) :
      Fails (.name bound written place) (.unknownPrefix label place)
  | invalidLocalName {bound : List (String × String)} {written place label localName uri : String}
      (hsplit : SplitsAt (Text.trim written) label localName) (hlocal : localName ≠ "")
      (hbound : (label, uri) ∈ bound) (hname : isNCName localName = false) :
      Fails (.name bound written place) (.fault (.invalidLocalName localName))

end Check

/-- The first check that fails does so with the given error. -/
def FirstFailure (checks : List Check) (error : ResolveError) : Prop :=
  ∃ before check after, checks = before ++ check :: after ∧
    (∀ passed ∈ before, passed.Passes) ∧ check.Fails error

/-- The written names of a rule, each with its place. -/
def RuleDefinition.names (rule : RuleDefinition) (place : String) : List (String × String) :=
  [(rule.source, place), (rule.target, place)] ++
    rule.attributes.flatMap fun a =>
      [(a.source, place ++ ".attributes"), (a.target, place ++ ".attributes")]

namespace Definition

/-- What is bound to begin with. -/
def builtinBindings : List (String × String) :=
  Namespace.builtins.map fun space => (space.label, space.uri)

/-- The written names of the children, each with its place, where children are counted from
`first`. -/
def childNames (first : Nat) (children : List RuleDefinition) : List (String × String) :=
  (children.zipIdx first).flatMap fun (child, index) =>
    child.names ("mapping.children[" ++ toString index ++ "]")

/-- The written names of a definition, each with its place. -/
def names (definition : Definition) : List (String × String) :=
  definition.parent.names "mapping.parent" ++ childNames 0 definition.children ++
    definition.documentId.toList.map (·, "mapping.document_id") ++
    definition.container.toList.map (·, "output.record_container")

/-- The checks of namespaces that are bound one after another. -/
def bindingChecks (bound : List (String × String)) : List (String × String) → List Check
  | [] => []
  | binding :: rest =>
    .binding bound binding.1 binding.2 :: bindingChecks (bound ++ [binding]) rest

/-- The checks of a definition, in order. -/
def checks (definition : Definition) : List Check :=
  bindingChecks builtinBindings definition.bindings.toList ++
    definition.names.map fun name =>
      .name (builtinBindings ++ definition.bindings.toList) name.1 name.2

/-- What it takes for a definition to resolve. -/
structure Acceptable (definition : Definition) : Prop where
  label : ∀ binding ∈ definition.bindings.toList, isNCName binding.1 = true
  uri : ∀ binding ∈ definition.bindings.toList, Text.isBlank binding.2 = false
  builtin : ∀ binding ∈ definition.bindings.toList, binding ∈ builtinBindings ∨
    ∀ other ∈ builtinBindings, other.1 ≠ binding.1 ∧ other.2 ≠ binding.2
  apart : definition.bindings.toList.Pairwise fun a b => a.2 ≠ b.2
  name : ∀ name ∈ definition.names, ∃ label localName,
    SplitsAt (Text.trim name.1) label localName ∧ isNCName localName = true ∧
      ∃ uri, (label, uri) ∈ builtinBindings ∨ (label, uri) ∈ definition.bindings.toList

end Definition

/-! ## Programs that decide checks -/

theorem firstFailure_append_iff {checks more : List Check} {error : ResolveError} :
    FirstFailure (checks ++ more) error ↔
      FirstFailure checks error ∨ (∀ check ∈ checks, check.Passes) ∧ FirstFailure more error := by
  constructor
  · rintro ⟨before, check, after, heq, hbefore, hfails⟩
    rcases List.append_eq_append_iff.1 heq with ⟨rest, rfl, rfl⟩ | ⟨rest, rfl, hrest⟩
    · refine Or.inr ⟨fun passed hmem => hbefore passed (List.mem_append_left _ hmem), rest, check,
        after, rfl, fun passed hmem => hbefore passed (List.mem_append_right _ hmem), hfails⟩
    · cases rest with
      | nil =>
        rw [List.append_nil]
        exact Or.inr ⟨hbefore, [], check, after, hrest.symm, by simp, hfails⟩
      | cons first rest =>
        cases hrest
        exact Or.inl ⟨before, check, rest, rfl, hbefore, hfails⟩
  · rintro (⟨before, check, after, rfl, hbefore, hfails⟩ |
      ⟨hpass, before, check, after, rfl, hbefore, hfails⟩)
    · exact ⟨before, check, after ++ more, by simp, hbefore, hfails⟩
    · refine ⟨checks ++ before, check, after, by simp, fun passed hmem => ?_, hfails⟩
      rcases List.mem_append.1 hmem with hmem | hmem
      · exact hpass passed hmem
      · exact hbefore passed hmem

theorem firstFailure_singleton_iff {check : Check} {error : ResolveError} :
    FirstFailure [check] error ↔ check.Fails error := by
  constructor
  · rintro ⟨before, found, after, heq, -, hfails⟩
    cases before with
    | nil =>
      cases heq
      exact hfails
    | cons first before => simp at heq
  · intro h
    exact ⟨[], check, [], rfl, by simp, h⟩

/-- A program gives a result just if all checks pass, and otherwise the error of the first that
fails. -/
structure Decides {α : Type} (program : Except ResolveError α) (checks : List Check) : Prop where
  ok_iff : (∃ a, program = .ok a) ↔ ∀ check ∈ checks, check.Passes
  error_iff : ∀ error, program = .error error ↔ FirstFailure checks error

namespace Decides

variable {α β : Type} {checks more : List Check}

theorem pure (a : α) : Decides (Pure.pure a : Except ResolveError α) [] where
  ok_iff := by simp [Pure.pure, Except.pure]
  error_iff error := by
    constructor
    · intro h
      cases h
    · rintro ⟨before, check, after, heq, -⟩
      simp at heq

theorem of_check {program : Except ResolveError α} {check : Check}
    (hok : (∃ a, program = .ok a) ↔ check.Passes)
    (herror : ∀ error, program = .error error ↔ check.Fails error) : Decides program [check] where
  ok_iff := by simpa using hok
  error_iff error := (herror error).trans firstFailure_singleton_iff.symm

/-- A program that goes on after another decides its checks after those of the other. -/
theorem bind {program : Except ResolveError α} {rest : α → Except ResolveError β}
    (hfirst : Decides program checks) (hrest : ∀ a, program = .ok a → Decides (rest a) more) :
    Decides (program >>= rest) (checks ++ more) where
  ok_iff := by
    simp only [bind_eq_ok_iff, List.mem_append, or_imp, forall_and]
    constructor
    · rintro ⟨b, a, ha, hb⟩
      exact ⟨hfirst.ok_iff.1 ⟨a, ha⟩, (hrest a ha).ok_iff.1 ⟨b, hb⟩⟩
    · rintro ⟨hchecks, hmore⟩
      obtain ⟨a, ha⟩ := hfirst.ok_iff.2 hchecks
      obtain ⟨b, hb⟩ := (hrest a ha).ok_iff.2 hmore
      exact ⟨b, a, ha, hb⟩
  error_iff error := by
    rw [bind_eq_error_iff, firstFailure_append_iff, hfirst.error_iff]
    refine or_congr_right ⟨?_, ?_⟩
    · rintro ⟨a, ha, hb⟩
      exact ⟨hfirst.ok_iff.1 ⟨a, ha⟩, ((hrest a ha).error_iff error).1 hb⟩
    · rintro ⟨hchecks, hmore⟩
      obtain ⟨a, ha⟩ := hfirst.ok_iff.2 hchecks
      exact ⟨a, ha, ((hrest a ha).error_iff error).2 hmore⟩

theorem map {program : Except ResolveError α} (h : Decides program checks) (f : α → β) :
    Decides (program.map f) checks where
  ok_iff := by
    rw [← h.ok_iff]
    simp only [map_eq_ok_iff]
    constructor
    · rintro ⟨b, a, ha, -⟩
      exact ⟨a, ha⟩
    · rintro ⟨a, ha⟩
      exact ⟨f a, a, ha, rfl⟩
  error_iff error := map_eq_error_iff.trans (h.error_iff error)

/-- A program that ends with a pure step. -/
theorem bind_pure {program : Except ResolveError α} (h : Decides program checks) (f : α → β) :
    Decides (do let a ← program; Pure.pure (f a)) checks := by
  have hbind : Decides (program >>= fun a => Pure.pure (f a)) (checks ++ []) :=
    h.bind fun a _ => .pure (f a)
  rwa [List.append_nil] at hbind

theorem mapM {f : α → Except ResolveError β} {checksOf : α → List Check} {items : List α}
    (h : ∀ item ∈ items, Decides (f item) (checksOf item)) :
    Decides (items.mapM f) (items.flatMap checksOf) := by
  induction items with
  | nil => exact .pure []
  | cons item rest ih =>
    obtain ⟨hitem, hrest⟩ := List.forall_mem_cons.1 h
    rw [List.mapM_cons]
    exact hitem.bind fun b _ => (ih hrest).bind_pure fun bs => b :: bs

end Decides

/-! ## Registries -/

/-- What is bound in a registry. -/
structure Registry.Binds (registry : Registry) (bound : List (String × String)) : Prop where
  linked : registry.Linked
  mem_iff : ∀ label uri, (label, uri) ∈ bound ↔
    ∃ space ∈ registry.toList, space.label = label ∧ space.uri = uri

namespace Registry.Binds

variable {registry registry' : Registry} {bound : List (String × String)} {label uri : String}

theorem builtin : Registry.builtin.Binds Definition.builtinBindings where
  linked := linked_builtin
  mem_iff label uri := by
    simp [Definition.builtinBindings, mem_toList_builtin]

variable (h : registry.Binds bound)

include h

theorem byLabel?_isSome_iff : (∃ space, registry.byLabel? label = some space) ↔
    ∃ uri, (label, uri) ∈ bound := by
  simp only [h.linked.byLabel?_eq_some_iff, ← mem_toList_iff, h.mem_iff]
  constructor
  · rintro ⟨space, hlabel, hspace⟩
    exact ⟨space.uri, space, hspace, hlabel, rfl⟩
  · rintro ⟨uri, space, hspace, hlabel, -⟩
    exact ⟨space, hlabel, hspace⟩

theorem byUri?_eq_some_iff_label : (∃ space, registry.byUri? uri = some space ∧
    space.label = label) ↔ (label, uri) ∈ bound := by
  simp only [Registry.byUri?_eq_some_iff, h.mem_iff]
  constructor
  · rintro ⟨space, ⟨hspace, huri⟩, hlabel⟩
    exact ⟨space, hspace, hlabel, huri⟩
  · rintro ⟨space, hspace, hlabel, huri⟩
    exact ⟨space, ⟨hspace, huri⟩, hlabel⟩

theorem uriOf?_eq_some_iff : registry.uriOf? label = some uri ↔ (label, uri) ∈ bound := by
  rw [h.linked label uri, h.byUri?_eq_some_iff_label]

theorem byUri?_eq_none_iff : registry.byUri? uri = none ↔ ∀ label, (label, uri) ∉ bound := by
  rw [Option.eq_none_iff_forall_ne_some]
  simp only [← h.byUri?_eq_some_iff_label, not_exists, not_and]
  constructor
  · intro hnone label space hspace
    exact absurd hspace (hnone space)
  · intro hnone space hspace
    exact hnone space.label space hspace rfl

theorem ne_empty_of_mem (hmem : (label, uri) ∈ bound) : label ≠ "" := by
  obtain ⟨space, -, rfl, -⟩ := (h.mem_iff label uri).1 hmem
  exact ne_empty_of_isNCName space.label_isName

theorem register {space : Namespace}
    (hregister : registry.register space = (.ok (), registry')) :
    registry'.Binds (bound ++ [(space.label, space.uri)]) where
  linked := h.linked.register hregister
  mem_iff label uri := by
    simp only [List.mem_append, h.mem_iff, List.mem_singleton, Prod.mk.injEq,
      mem_toList_register hregister, or_and_right, exists_or, exists_eq_left]
    exact or_congr_right (and_congr eq_comm eq_comm)

/-- A namespace is registered unless it shares just its prefix or just its URI with another. -/
theorem exists_register_iff {space : Namespace} :
    (∃ registry', registry.register space = (.ok (), registry')) ↔
      ∀ other ∈ bound, other.1 = space.label ↔ other.2 = space.uri := by
  rw [h.linked.exists_register_iff]
  constructor
  · rintro hall ⟨label, uri⟩ hmem
    obtain ⟨other, hother, rfl, rfl⟩ := (h.mem_iff label uri).1 hmem
    exact hall other hother
  · intro hall other hother
    exact hall (other.label, other.uri) ((h.mem_iff _ _).2 ⟨other, hother, rfl, rfl⟩)

theorem registered_eq_error_iff {space : Namespace} {fault : Fault} :
    registry.registered space = .error fault ↔
      (∃ existing, (existing, space.uri) ∈ bound ∧ existing ≠ space.label ∧
        fault = .uriConflict space.uri existing space.label) ∨
      (∀ other, (other, space.uri) ∉ bound) ∧ ∃ existing, (space.label, existing) ∈ bound ∧
        fault = .prefixConflict space.label existing space.uri := by
  rw [Registry.registered_eq_error_iff, Registry.register_eq_error_iff]
  simp only [h.byUri?_eq_none_iff, h.uriOf?_eq_some_iff, true_and]
  refine or_congr_left ⟨?_, ?_⟩
  · rintro ⟨existing, hexisting, hlabel, rfl⟩
    exact ⟨_, h.byUri?_eq_some_iff_label.1 ⟨existing, hexisting, rfl⟩, hlabel, rfl⟩
  · rintro ⟨_, hbound, hlabel, rfl⟩
    obtain ⟨existing, hexisting, rfl⟩ := h.byUri?_eq_some_iff_label.2 hbound
    exact ⟨existing, hexisting, hlabel, rfl⟩

end Registry.Binds

/-! ## Namespaces -/

/-- What binds the next prefix to its URI. -/
def Registry.bindNext (registry : Registry) (binding : String × String) :
    Except ResolveError Registry := do
  let space ← (Namespace.ofPair binding.1 binding.2).mapError .fault
  (registry.registered space).mapError .fault

theorem isBlank_of_isNCName {text : String} (h : isNCName text = true) :
    Text.isBlank text = false := by
  rw [Bool.eq_false_iff, Text.isBlank, Ne, List.all_eq_true]
  intro hblank
  obtain ⟨c, hc⟩ := List.exists_mem_of_ne_nil text.toList fun hnil =>
    ne_empty_of_isNCName h (String.toList_eq_nil_iff.1 hnil)
  have hspace := hblank c hc
  rw [isSpace_of_isNamePart (isNamePart_of_mem h hc)] at hspace
  cases hspace

section Binding

variable {registry registry' : Registry} {bound : List (String × String)} {label uri : String}

namespace Registry

theorem bindNext_of_isNCName (hlabel : isNCName label = true) (huri : Text.isBlank uri = false) :
    registry.bindNext (label, uri) =
      (registry.registered ⟨label, uri, hlabel, huri⟩).mapError .fault := by
  have hspace : Namespace.ofPair label uri = .ok ⟨label, uri, hlabel, huri⟩ := by
    rw [Namespace.ofPair, if_neg (by simp [isBlank_of_isNCName hlabel]), dif_pos hlabel,
      dif_pos huri]
  rw [bindNext, hspace]
  rfl

theorem bindNext_of_isBlank (hlabel : Text.isBlank label = true) :
    registry.bindNext (label, uri) = .error (.fault (.emptyPrefix uri)) := by
  rw [bindNext, Namespace.ofPair, if_pos hlabel]
  rfl

theorem bindNext_of_not_isNCName (hblank : Text.isBlank label = false)
    (hlabel : isNCName label = false) :
    registry.bindNext (label, uri) = .error (.fault (.invalidPrefix label uri)) := by
  rw [bindNext, Namespace.ofPair, if_neg (by simp [hblank]), dif_neg (by simp [hlabel])]
  rfl

theorem bindNext_of_isBlank_uri (hlabel : isNCName label = true)
    (huri : Text.isBlank uri = true) :
    registry.bindNext (label, uri) = .error (.fault (.emptyUri label)) := by
  rw [bindNext, Namespace.ofPair, if_neg (by simp [isBlank_of_isNCName hlabel]), dif_pos hlabel,
    dif_neg (by simp [huri])]
  rfl

namespace Binds

variable (h : registry.Binds bound)

include h

theorem bindNext {binding : String × String} (hnext : registry.bindNext binding = .ok registry') :
    registry'.Binds (bound ++ [binding]) := by
  obtain ⟨space, hspace, hregister⟩ := bind_eq_ok_iff.1 hnext
  have hpair : (space.label, space.uri) = binding :=
    Namespace.eq_of_ofPair (mapError_eq_ok_iff.1 hspace)
  rw [← hpair]
  exact h.register (registered_eq_ok_iff.1 (mapError_eq_ok_iff.1 hregister))

theorem decides_bindNext (label uri : String) :
    Decides (registry.bindNext (label, uri)) [.binding bound label uri] := by
  have hok (hlabel : isNCName label = true) (huri : Text.isBlank uri = false) :
      (∃ registry', registry.bindNext (label, uri) = .ok registry') ↔
        ∀ other ∈ bound, other.1 = label ↔ other.2 = uri := by
    simp only [bindNext_of_isNCName hlabel huri, mapError_eq_ok_iff, registered_eq_ok_iff]
    exact h.exists_register_iff
  have herror (hlabel : isNCName label = true) (huri : Text.isBlank uri = false)
      (error : ResolveError) : registry.bindNext (label, uri) = .error error ↔
        ∃ fault, registry.registered ⟨label, uri, hlabel, huri⟩ = .error fault ∧
          .fault fault = error := by
    rw [bindNext_of_isNCName hlabel huri, mapError_eq_error_iff]
  refine .of_check ⟨?_, ?_⟩ fun error => ⟨?_, ?_⟩
  · rintro ⟨registry', hnext⟩
    obtain ⟨space, hspace, -⟩ := bind_eq_ok_iff.1 hnext
    have hpair := Namespace.eq_of_ofPair (mapError_eq_ok_iff.1 hspace)
    cases hpair
    exact ⟨space.label_isName, space.uri_notBlank,
      (hok space.label_isName space.uri_notBlank).1 ⟨registry', hnext⟩⟩
  · rintro ⟨hlabel, huri, hall⟩
    exact (hok hlabel huri).2 hall
  · intro hnext
    by_cases hblank : Text.isBlank label = true
    · rw [bindNext_of_isBlank hblank] at hnext
      cases hnext
      exact .emptyPrefix hblank
    rw [Bool.not_eq_true] at hblank
    by_cases hlabel : isNCName label = true
    · by_cases huri : Text.isBlank uri = true
      · rw [bindNext_of_isBlank_uri hlabel huri] at hnext
        cases hnext
        exact .emptyUri hlabel huri
      rw [Bool.not_eq_true] at huri
      obtain ⟨fault, hfault, rfl⟩ := (herror hlabel huri error).1 hnext
      rcases h.registered_eq_error_iff.1 hfault with
        ⟨existing, hbound, hne, rfl⟩ | ⟨hfree, existing, hbound, rfl⟩
      · exact .uriConflict hlabel huri hbound hne
      · exact .prefixConflict hlabel huri hfree hbound
    · rw [Bool.not_eq_true] at hlabel
      rw [bindNext_of_not_isNCName hblank hlabel] at hnext
      cases hnext
      exact .invalidPrefix hblank hlabel
  · intro hfails
    cases hfails with
    | emptyPrefix hlabel => exact bindNext_of_isBlank hlabel
    | invalidPrefix hblank hlabel => exact bindNext_of_not_isNCName hblank hlabel
    | emptyUri hlabel huri => exact bindNext_of_isBlank_uri hlabel huri
    | uriConflict hlabel huri hbound hne =>
      exact (herror hlabel huri _).2
        ⟨_, h.registered_eq_error_iff.2 (Or.inl ⟨_, hbound, hne, rfl⟩), rfl⟩
    | prefixConflict hlabel huri hfree hbound =>
      exact (herror hlabel huri _).2
        ⟨_, h.registered_eq_error_iff.2 (Or.inr ⟨hfree, _, hbound, rfl⟩), rfl⟩

theorem decides_foldlM (bindings : List (String × String)) :
    Decides (bindings.foldlM Registry.bindNext registry) (Definition.bindingChecks bound bindings) ∧
      ∀ registry', bindings.foldlM Registry.bindNext registry = .ok registry' →
        registry'.Binds (bound ++ bindings) := by
  induction bindings generalizing registry bound with
  | nil =>
    refine ⟨.pure registry, fun registry' h' => ?_⟩
    cases h'
    rwa [List.append_nil]
  | cons binding rest ih =>
    rw [List.foldlM_cons]
    constructor
    · exact (h.decides_bindNext binding.1 binding.2).bind fun next hnext =>
        (ih (h.bindNext hnext)).1
    · intro registry' h'
      obtain ⟨next, hnext, hrest⟩ := bind_eq_ok_iff.1 h'
      have hbinds := (ih (h.bindNext hnext)).2 registry' hrest
      rwa [List.append_assoc] at hbinds

end Binds

end Registry

end Binding

/-! ## Names -/

theorem splitsAt_iff {text label localName : String} :
    SplitsAt text label localName ↔
      text.toList = label.toList ++ ':' :: localName.toList ∧ ':' ∉ label.toList := by
  rw [SplitsAt, ← String.toList_inj]
  simp

namespace SplitsAt

variable {text label localName : String} (h : SplitsAt text label localName)

include h

theorem takeWhile_eq : text.toList.takeWhile (fun c => decide (c ≠ ':')) = label.toList := by
  obtain ⟨htext, hcolon⟩ := splitsAt_iff.1 h
  rw [htext]
  refine Xml.takeWhile_append_stop (fun c hc => ?_) (by simp)
  exact decide_eq_true fun heq => hcolon (heq ▸ hc)

theorem dropWhile_eq :
    text.toList.dropWhile (fun c => decide (c ≠ ':')) = ':' :: localName.toList := by
  obtain ⟨htext, hcolon⟩ := splitsAt_iff.1 h
  rw [htext]
  refine Xml.dropWhile_append_stop (fun c hc => ?_) (by simp)
  exact decide_eq_true fun heq => hcolon (heq ▸ hc)

end SplitsAt

theorem splitName?_eq_some_iff {text label localName : String} :
    splitName? text = some (label, localName) ↔
      SplitsAt text label localName ∧ label ≠ "" ∧ localName ≠ "" := by
  constructor
  · intro h
    have htext := List.takeWhile_append_dropWhile (p := fun c => decide (c ≠ ':'))
      (l := text.toList)
    have hlabel : ∀ c ∈ text.toList.takeWhile (fun c => decide (c ≠ ':')), c ≠ ':' := by
      intro c hc
      simpa using List.mem_takeWhile_imp hc
    have hcolon := List.head?_dropWhile_not (fun c => decide (c ≠ ':')) text.toList
    rw [splitName?] at h
    split at h
    next c first rest hdrop =>
      rw [hdrop] at htext hcolon
      obtain rfl : c = ':' := by simpa using hcolon
      split at h
      next => cases h
      next hempty =>
        obtain ⟨rfl, rfl⟩ := Prod.mk.inj (Option.some.inj h)
        refine ⟨splitsAt_iff.2 ⟨?_, ?_⟩, ?_, ?_⟩
        · rw [String.toList_ofList, String.toList_ofList, htext]
        · rw [String.toList_ofList]
          exact fun hmem => hlabel ':' hmem rfl
        · simpa using hempty
        · simp
    next => cases h
  · rintro ⟨hsplit, hlabel, hlocal⟩
    have hfirst : localName.toList ≠ [] := fun hnil => hlocal (String.toList_eq_nil_iff.1 hnil)
    obtain ⟨first, rest, hrest⟩ := List.exists_cons_of_ne_nil hfirst
    rw [splitName?]
    simp only [hsplit.takeWhile_eq, hsplit.dropWhile_eq, hrest]
    rw [if_neg (by simpa using hlabel), ← hrest, String.ofList_toList, String.ofList_toList]

theorem splitName?_eq_none_iff {text : String} :
    splitName? text = none ↔
      ∀ label localName, SplitsAt text label localName → label = "" ∨ localName = "" := by
  rw [Option.eq_none_iff_forall_ne_some, Prod.forall]
  refine forall_congr' fun label => forall_congr' fun localName => ?_
  rw [Ne, splitName?_eq_some_iff, not_and, not_and_or, not_not, not_not]

theorem Element.inSpace_eq_ok_iff {space : Namespace} {localName : String} :
    (∃ element, inSpace space localName = .ok element) ↔ isNCName localName = true := by
  rw [inSpace]
  by_cases hempty : localName = ""
  · simp [hempty, isNCName]
  · by_cases hname : isNCName localName = true
    · simp [hempty, hname]
    · simp [hempty, hname]

theorem Element.inSpace_eq_error_iff {space : Namespace} {localName : String} {fault : Fault}
    (h : localName ≠ "") :
    inSpace space localName = .error fault ↔
      isNCName localName = false ∧ fault = .invalidLocalName localName := by
  rw [inSpace, if_neg h]
  by_cases hname : isNCName localName = true
  · simp [hname]
  · simp [hname, eq_comm]

section Names

variable {registry : Registry} {bound : List (String × String)}

namespace Registry

theorem resolve_of_splitsAt {written place label localName : String}
    (hsplit : SplitsAt (Text.trim written) label localName) (hlabel : label ≠ "")
    (hlocal : localName ≠ "") :
    registry.resolve written place =
      match registry.byLabel? label with
      | none => .error (.unknownPrefix label place)
      | some space => (Element.inSpace space localName).mapError .fault := by
  rewrite [resolve, splitName?_eq_some_iff.2 ⟨hsplit, hlabel, hlocal⟩]
  rfl

theorem resolve_of_not_splitsAt {written place : String}
    (h : ∀ label localName, SplitsAt (Text.trim written) label localName →
      label = "" ∨ localName = "") :
    registry.resolve written place = .error (.invalidName written) := by
  rw [resolve, splitName?_eq_none_iff.2 h]

namespace Binds

variable (h : registry.Binds bound)

include h

/-- A name resolves just if its check passes. -/
theorem decides_resolve (written place : String) :
    Decides (registry.resolve written place) [.name bound written place] := by
  refine .of_check ⟨?_, ?_⟩ fun error => ⟨?_, ?_⟩
  · rintro ⟨element, helement⟩
    rw [resolve] at helement
    split at helement
    next => cases helement
    next label localName hsplit =>
      split at helement
      next => cases helement
      next space hspace =>
        exact ⟨label, localName, (splitName?_eq_some_iff.1 hsplit).1,
          h.byLabel?_isSome_iff.1 ⟨space, hspace⟩,
          Element.inSpace_eq_ok_iff.1 ⟨element, mapError_eq_ok_iff.1 helement⟩⟩
  · rintro ⟨label, localName, hsplit, ⟨uri, hbound⟩, hname⟩
    obtain ⟨space, hspace⟩ := h.byLabel?_isSome_iff.2 ⟨uri, hbound⟩
    obtain ⟨element, helement⟩ := (@Element.inSpace_eq_ok_iff space localName).2 hname
    refine ⟨element, ?_⟩
    rw [resolve_of_splitsAt hsplit (h.ne_empty_of_mem hbound) (ne_empty_of_isNCName hname), hspace]
    exact mapError_eq_ok_iff.2 helement
  · intro herror
    rw [resolve] at herror
    split at herror
    next hnone =>
      cases herror
      exact .invalidName (splitName?_eq_none_iff.1 hnone)
    next label localName hsplit =>
      obtain ⟨hsplit, hlabel, hlocal⟩ := splitName?_eq_some_iff.1 hsplit
      split at herror
      next hnone =>
        cases herror
        refine .unknownPrefix hsplit hlabel hlocal fun uri hbound => ?_
        obtain ⟨space, hspace⟩ := h.byLabel?_isSome_iff.2 ⟨uri, hbound⟩
        rw [hspace] at hnone
        cases hnone
      next space hspace =>
        obtain ⟨uri, hbound⟩ := h.byLabel?_isSome_iff.1 ⟨space, hspace⟩
        obtain ⟨fault, hfault, rfl⟩ := mapError_eq_error_iff.1 herror
        obtain ⟨hname, rfl⟩ := (Element.inSpace_eq_error_iff hlocal).1 hfault
        exact .invalidLocalName hsplit hlocal hbound hname
  · intro hfails
    cases hfails with
    | invalidName hsplit => exact resolve_of_not_splitsAt hsplit
    | @unknownPrefix _ _ _ label localName hsplit hlabel hlocal hfree =>
      have hnone : registry.byLabel? label = none := by
        rw [Option.eq_none_iff_forall_ne_some]
        intro space hspace
        obtain ⟨uri, hbound⟩ := h.byLabel?_isSome_iff.1 ⟨space, hspace⟩
        exact hfree uri hbound
      rw [resolve_of_splitsAt hsplit hlabel hlocal, hnone]
    | invalidLocalName hsplit hlocal hbound hname =>
      obtain ⟨space, hspace⟩ := h.byLabel?_isSome_iff.2 ⟨_, hbound⟩
      rw [resolve_of_splitsAt hsplit (h.ne_empty_of_mem hbound) hlocal, hspace]
      exact mapError_eq_error_iff.2
        ⟨_, (Element.inSpace_eq_error_iff hlocal).2 ⟨hname, rfl⟩, rfl⟩

/-- The checks of names that stand at places, given what is bound. -/
theorem decides_resolvePair (source target place : String) :
    Decides (registry.resolvePair source target place)
      [.name bound source place, .name bound target place] := by
  rw [resolvePair]
  exact (h.decides_resolve source place).bind fun first _ =>
    (h.decides_resolve target place).bind_pure fun second => (⟨first, second⟩ : Correspondence)

theorem decides_resolveOptional (name : Option String) (place : String) :
    Decides (Definition.resolveOptional registry name place)
      ((name.toList.map (·, place)).map fun name => .name bound name.1 name.2) := by
  cases name with
  | none => exact .pure none
  | some name => exact (h.decides_resolve name place).map some

theorem decides_resolveRule (rule : RuleDefinition) (place : String) :
    Decides (rule.resolve registry place)
      ((rule.names place).map fun name => .name bound name.1 name.2) := by
  have hattributes : Decides
      (rule.attributes.mapM fun a =>
        registry.resolvePair a.source a.target (place ++ ".attributes"))
      (rule.attributes.flatMap fun a => [.name bound a.source (place ++ ".attributes"),
        .name bound a.target (place ++ ".attributes")]) :=
    .mapM fun a _ => h.decides_resolvePair a.source a.target (place ++ ".attributes")
  have hchecks : (rule.names place).map (fun name => Check.name bound name.1 name.2) =
      [.name bound rule.source place, .name bound rule.target place] ++
        rule.attributes.flatMap fun a => [.name bound a.source (place ++ ".attributes"),
          .name bound a.target (place ++ ".attributes")] := by
    rw [RuleDefinition.names, List.map_append, List.map_flatMap]
    rfl
  rw [hchecks]
  exact (h.decides_resolvePair rule.source rule.target place).bind fun tag _ =>
    hattributes.bind_pure fun attributes =>
      ((Rule.ofTag tag).withAttributes attributes).withText rule.keepsText

theorem decides_resolveChildren (first : Nat) (children : List RuleDefinition) :
    Decides (Definition.resolveChildren registry first children)
      ((Definition.childNames first children).map fun name => .name bound name.1 name.2) := by
  induction children generalizing first with
  | nil => exact .pure []
  | cons child rest ih =>
    rw [Definition.childNames, List.zipIdx_cons, List.flatMap_cons, List.map_append]
    exact (h.decides_resolveRule child _).bind fun rule _ =>
      (ih (first + 1)).bind_pure fun others => rule :: others

end Binds

end Registry

end Names

/-! ## Definitions -/

namespace Definition

/-- The whole of resolving decides the checks of the definition. -/
theorem decides_resolve (definition : Definition) :
    Decides definition.resolve definition.checks := by
  obtain ⟨hdecides, hbinds⟩ := Registry.Binds.builtin.decides_foldlM definition.bindings.toList
  refine hdecides.bind fun registry hregistry => ?_
  have h := hbinds registry hregistry
  rw [names, List.append_assoc, List.append_assoc, List.map_append, List.map_append,
    List.map_append]
  refine (h.decides_resolveRule definition.parent "mapping.parent").bind fun parent _ => ?_
  refine (h.decides_resolveChildren 0 definition.children).bind fun children _ => ?_
  refine (h.decides_resolveOptional definition.documentId _).bind fun documentId _ => ?_
  exact (h.decides_resolveOptional definition.container _).bind_pure fun container => _

theorem bindingChecks_pass_iff {bound bindings : List (String × String)} :
    (∀ check ∈ bindingChecks bound bindings, check.Passes) ↔
      (∀ binding ∈ bindings, isNCName binding.1 = true ∧ Text.isBlank binding.2 = false ∧
        ∀ other ∈ bound, other.1 = binding.1 ↔ other.2 = binding.2) ∧
      bindings.Pairwise fun a b => a.1 = b.1 ↔ a.2 = b.2 := by
  induction bindings generalizing bound with
  | nil => simp [bindingChecks]
  | cons binding rest ih =>
    rw [bindingChecks, List.forall_mem_cons, ih, List.forall_mem_cons, List.pairwise_cons]
    simp only [List.mem_append, List.mem_singleton, or_imp, forall_and, forall_eq, Check.Passes]
    tauto

theorem oneToOne_builtinBindings :
    ∀ a ∈ builtinBindings, ∀ b ∈ builtinBindings, a.1 = b.1 ↔ a.2 = b.2 := by
  have hone := Registry.linked_builtin.oneToOne
  simp only [Namespace.OneToOne, Registry.mem_toList_builtin] at hone
  simpa [builtinBindings] using hone

/-- A namespace fits the builtin ones just if it is one of them or shares nothing with them. -/
theorem fits_builtinBindings_iff {binding : String × String} :
    (∀ other ∈ builtinBindings, other.1 = binding.1 ↔ other.2 = binding.2) ↔
      binding ∈ builtinBindings ∨
        ∀ other ∈ builtinBindings, other.1 ≠ binding.1 ∧ other.2 ≠ binding.2 := by
  constructor
  · intro hall
    by_cases hshared : ∃ other ∈ builtinBindings, other.1 = binding.1
    · obtain ⟨other, hother, hlabel⟩ := hshared
      have heq : other = binding := Prod.ext hlabel ((hall other hother).1 hlabel)
      exact Or.inl (heq ▸ hother)
    · refine Or.inr fun other hother => ?_
      have hlabel : other.1 ≠ binding.1 := fun heq => hshared ⟨other, hother, heq⟩
      exact ⟨hlabel, fun heq => hlabel ((hall other hother).2 heq)⟩
  · rintro (hbuiltin | hfree) other hother
    · exact oneToOne_builtinBindings other hother binding hbuiltin
    · obtain ⟨hlabel, huri⟩ := hfree other hother
      exact ⟨fun heq => absurd heq hlabel, fun heq => absurd heq huri⟩

theorem acceptable_iff {definition : Definition} :
    definition.Acceptable ↔ ∀ check ∈ definition.checks, check.Passes := by
  have hapart : (definition.bindings.toList.Pairwise fun a b => a.1 = b.1 ↔ a.2 = b.2) ↔
      definition.bindings.toList.Pairwise fun a b => a.2 ≠ b.2 := by
    refine ⟨fun h => ?_, fun h => ?_⟩
    · refine (definition.bindings.pairwise_ne.and h).imp ?_
      rintro a b ⟨hlabel, hiff⟩ huri
      exact hlabel (hiff.2 huri)
    · refine (definition.bindings.pairwise_ne.and h).imp ?_
      rintro a b ⟨hlabel, huri⟩
      exact ⟨fun heq => absurd heq hlabel, fun heq => absurd heq huri⟩
  have hnames (name : String × String) :
      (Check.name (builtinBindings ++ definition.bindings.toList) name.1 name.2).Passes ↔
        ∃ label localName, SplitsAt (Text.trim name.1) label localName ∧
          isNCName localName = true ∧
            ∃ uri, (label, uri) ∈ builtinBindings ∨ (label, uri) ∈ definition.bindings.toList := by
    simp only [Check.Passes, List.mem_append, and_comm (a := isNCName _ = true)]
  constructor
  · intro h
    refine List.forall_mem_append.2 ⟨bindingChecks_pass_iff.2 ⟨?_, hapart.2 h.apart⟩, ?_⟩
    · intro binding hmem
      exact ⟨h.label binding hmem, h.uri binding hmem,
        fits_builtinBindings_iff.2 (h.builtin binding hmem)⟩
    · exact List.forall_mem_map.2 fun name hmem => (hnames name).2 (h.name name hmem)
  · intro h
    obtain ⟨hbindings, hwritten⟩ := List.forall_mem_append.1 h
    obtain ⟨hall, hpairwise⟩ := bindingChecks_pass_iff.1 hbindings
    constructor
    · exact fun binding hmem => (hall binding hmem).1
    · exact fun binding hmem => (hall binding hmem).2.1
    · exact fun binding hmem => fits_builtinBindings_iff.1 (hall binding hmem).2.2
    · exact hapart.1 hpairwise
    · exact fun name hmem => (hnames name).1 (List.forall_mem_map.1 hwritten name hmem)

/-- A definition resolves just if it is acceptable, and otherwise the error is that of the first
check that fails. -/
theorem resolve_exact (definition : Definition) :
    ((∃ resolved, definition.resolve = .ok resolved) ↔ definition.Acceptable) ∧
      ∀ error, definition.resolve = .error error ↔ FirstFailure definition.checks error := by
  have h := definition.decides_resolve
  exact ⟨h.ok_iff.trans acceptable_iff.symm, h.error_iff⟩

end Definition

end Concordance
