import Concordance.Name.Registry
import Concordance.Proofs.Order.Lookup
import Concordance.Proofs.Outcome

/-!
# Registries bind one to one

The two tables of a registry lead back and forth between the same prefixes and URIs.  One accepted
call of `register` keeps them so, a refused one leaves the registry that it was made on, and hence
they are so after any run of calls.  What a registry holds after calls that all succeed is what it
held before together with what was asked for; therefore neither the order of the calls nor a
repetition matters.
-/

namespace Concordance

open Std

/-! ## Keys of the two tables -/

theorem Namespace.isKey_uri (uri : String) : IsKey Namespace.cmp (·.uri == uri) := by
  intro a b ha
  have ha : a.uri = uri := by simpa using ha
  rw [← ha, beq_iff_eq, Namespace.cmp, compareOn, Std.LawfulEqCmp.compare_eq_iff_eq]
  exact eq_comm

theorem isKey_fst (label : String) :
    IsKey labelCmp (·.1 == label) := by
  intro a b ha
  have ha : a.1 = label := by simpa using ha
  rw [← ha, beq_iff_eq, labelCmp, compareOn, Std.LawfulEqCmp.compare_eq_iff_eq]
  exact eq_comm

/-- Namespaces among which no prefix goes with two URIs and no URI with two prefixes. -/
def Namespace.OneToOne (spaces : List Namespace) : Prop :=
  ∀ a ∈ spaces, ∀ b ∈ spaces, a.label = b.label ↔ a.uri = b.uri

theorem Namespace.oneToOne_congr {spaces others : List Namespace}
    (h : ∀ space, space ∈ spaces ↔ space ∈ others) :
    Namespace.OneToOne spaces ↔ Namespace.OneToOne others := by
  simp only [Namespace.OneToOne, h]

theorem Namespace.eq_of_label_of_uri {a b : Namespace} (hlabel : a.label = b.label)
    (huri : a.uri = b.uri) : a = b := by
  cases a
  cases b
  simp_all

theorem Namespace.injective_pair :
    Function.Injective fun space : Namespace => (space.label, space.uri) := by
  intro a b heq
  exact eq_of_label_of_uri (Prod.mk.inj heq).1 (Prod.mk.inj heq).2

namespace Registry

variable {registry : Registry}

/-! ## Looking up -/

theorem mem_toList_iff {space : Namespace} :
    space ∈ registry.toList ↔ registry.byUri? space.uri = some space := by
  rw [byUri?, find?_eq_some_iff_mem (Namespace.isKey_uri space.uri) registry.uris.ascending]
  simp [toList]

theorem uri_eq_of_byUri? {uri : String} {space : Namespace}
    (h : registry.byUri? uri = some space) : space.uri = uri := by
  simpa using List.find?_some h

theorem mem_toList_of_byUri? {uri : String} {space : Namespace}
    (h : registry.byUri? uri = some space) : space ∈ registry.toList :=
  List.mem_of_find?_eq_some h

theorem mem_labels_iff {label uri : String} :
    (label, uri) ∈ registry.labels.toList ↔ registry.uriOf? label = some uri := by
  rw [uriOf?, Option.map_eq_some_iff]
  constructor
  · intro hmem
    refine ⟨(label, uri), ?_, rfl⟩
    rw [find?_eq_some_iff_mem (isKey_fst label) registry.labels.ascending]
    exact ⟨hmem, beq_self_eq_true label⟩
  · rintro ⟨binding, hfind, rfl⟩
    have hlabel : binding.1 = label := by simpa using List.find?_some hfind
    rw [← hlabel]
    exact List.mem_of_find?_eq_some hfind

theorem byUri?_eq_some_iff {uri : String} {space : Namespace} :
    registry.byUri? uri = some space ↔ space ∈ registry.toList ∧ space.uri = uri := by
  constructor
  · intro h
    exact ⟨mem_toList_of_byUri? h, uri_eq_of_byUri? h⟩
  · rintro ⟨hmem, rfl⟩
    exact mem_toList_iff.1 hmem

theorem uriOf?_empty (label : String) : empty.uriOf? label = none := rfl

theorem byUri?_empty (uri : String) : empty.byUri? uri = none := rfl

theorem uriOf?_insert (registry : Registry) (space : Namespace) (label : String) :
    (registry.insert space).uriOf? label =
      if space.label = label then some space.uri else registry.uriOf? label := by
  simp only [uriOf?, insert, Ascending.insertOver, find?_insertOver (isKey_fst label), beq_iff_eq]
  by_cases h : space.label = label <;> simp [h]

theorem byUri?_insert (registry : Registry) (space : Namespace) (uri : String) :
    (registry.insert space).byUri? uri =
      if space.uri = uri then some space else registry.byUri? uri := by
  simp only [byUri?, insert, Ascending.insertOver, find?_insertOver (Namespace.isKey_uri uri),
    beq_iff_eq]

/-! ## Linked tables -/

/-- The table of prefixes leads to a URI exactly where the table of URIs has the prefix. -/
def Linked (registry : Registry) : Prop :=
  ∀ label uri, registry.uriOf? label = some uri ↔
    ∃ space, registry.byUri? uri = some space ∧ space.label = label

theorem linked_empty : empty.Linked := by
  intro label uri
  simp [uriOf?_empty, byUri?_empty]

/-- A binding whose prefix and URI are both new keeps the tables linked. -/
theorem Linked.insert (hlinked : registry.Linked) {space : Namespace}
    (huri : registry.byUri? space.uri = none) (hlabel : registry.uriOf? space.label = none) :
    (registry.insert space).Linked := by
  intro label uri
  rw [uriOf?_insert, byUri?_insert]
  by_cases hl : space.label = label
  · by_cases hu : space.uri = uri
    · simp [hl, hu]
    · -- a namespace of another URI cannot have the new prefix
      have hfree : ∀ other, registry.byUri? uri = some other → other.label ≠ label := by
        intro other hother heq
        have hbound := (hlinked label uri).2 ⟨other, hother, heq⟩
        rw [← hl, hlabel] at hbound
        cases hbound
      rw [if_pos hl, if_neg hu, Option.some.injEq]
      constructor
      · exact fun h => absurd h hu
      · rintro ⟨other, hother, heq⟩
        exact absurd heq (hfree other hother)
  · by_cases hu : space.uri = uri
    · -- nothing led to the new URI before
      have hfree : registry.uriOf? label ≠ some uri := by
        intro hbound
        obtain ⟨other, hother, -⟩ := (hlinked label uri).1 hbound
        rw [← hu, huri] at hother
        cases hother
      simp [hl, hu, hfree]
    · rw [if_neg hl, if_neg hu]
      exact hlinked label uri

namespace Linked

variable (hlinked : registry.Linked)

include hlinked

theorem byLabel?_eq_some_iff {label : String} {space : Namespace} :
    registry.byLabel? label = some space ↔
      space.label = label ∧ registry.byUri? space.uri = some space := by
  rw [byLabel?, Option.bind_eq_some_iff]
  constructor
  · rintro ⟨uri, hbound, hspace⟩
    obtain ⟨other, hother, hlabel⟩ := (hlinked label uri).1 hbound
    rw [hspace] at hother
    rw [Option.some.inj hother, uri_eq_of_byUri? (Option.some.inj hother ▸ hspace)]
    exact ⟨hlabel, Option.some.inj hother ▸ hspace⟩
  · rintro ⟨hlabel, hspace⟩
    exact ⟨space.uri, (hlinked label space.uri).2 ⟨space, hspace, hlabel⟩, hspace⟩

theorem mem_labels_iff_mem {label uri : String} :
    (label, uri) ∈ registry.labels.toList ↔
      ∃ space ∈ registry.toList, space.label = label ∧ space.uri = uri := by
  rw [mem_labels_iff, hlinked label uri]
  constructor
  · rintro ⟨space, hspace, hlabel⟩
    exact ⟨space, mem_toList_of_byUri? hspace, hlabel, uri_eq_of_byUri? hspace⟩
  · rintro ⟨space, hmem, hlabel, rfl⟩
    exact ⟨space, mem_toList_iff.1 hmem, hlabel⟩

theorem oneToOne : Namespace.OneToOne registry.toList := by
  intro a ha b hb
  constructor
  · intro hlabel
    have hbound := (hlinked a.label a.uri).2 ⟨a, mem_toList_iff.1 ha, rfl⟩
    have hbound' := (hlinked a.label b.uri).2 ⟨b, mem_toList_iff.1 hb, hlabel.symm⟩
    rw [hbound] at hbound'
    exact Option.some.inj hbound'
  · intro huri
    have hfound := mem_toList_iff.1 ha
    rw [huri, mem_toList_iff.1 hb] at hfound
    rw [Option.some.inj hfound]

/-- Both tables hold the same bindings, so they are of one size. -/
theorem size_labels : registry.labels.size = registry.size := by
  have hperm : registry.labels.toList.Perm
      (registry.toList.map fun space => (space.label, space.uri)) := by
    refine (List.perm_ext_iff_of_nodup registry.labels.nodup ?_).2 ?_
    · refine List.pairwise_map.2 (registry.uris.nodup.imp fun hne heq => hne ?_)
      exact Namespace.eq_of_label_of_uri (Prod.mk.inj heq).1 (Prod.mk.inj heq).2
    · rintro ⟨label, uri⟩
      rw [hlinked.mem_labels_iff_mem, List.mem_map]
      simp only [Prod.mk.injEq]
  have hlength := hperm.length_eq
  rw [List.length_map] at hlength
  exact hlength

/-- A registry with linked tables is determined by its members. -/
theorem eq_of_mem_iff {other : Registry} (hother : other.Linked)
    (h : ∀ space, space ∈ registry.toList ↔ space ∈ other.toList) : registry = other := by
  have huris : registry.uris = other.uris := Ascending.eq_of_mem_iff h
  have hlabels : registry.labels = other.labels := by
    refine Ascending.eq_of_mem_iff fun binding => ?_
    rw [hlinked.mem_labels_iff_mem, hother.mem_labels_iff_mem]
    simp only [h]
  cases registry
  cases other
  simp_all

end Linked

theorem pairwise_uri_lt (registry : Registry) :
    registry.toList.Pairwise fun a b => a.uri < b.uri :=
  registry.uris.ascending.imp fun hlt => compareOfLessAndEq_eq_lt.1 hlt

/-! ## One call -/

/-- A call succeeds for a binding that is there, which changes nothing, and for one whose prefix
and URI are both new, which is added. -/
theorem register_eq_ok_iff {registry' : Registry} {space : Namespace} :
    registry.register space = (.ok (), registry') ↔
      (registry.byUri? space.uri = some space ∧ registry' = registry) ∨
        (registry.byUri? space.uri = none ∧ registry.uriOf? space.label = none ∧
          registry' = registry.insert space) := by
  rw [register]
  cases hbound : registry.byUri? space.uri with
  | some existing =>
    have huri := uri_eq_of_byUri? hbound
    by_cases hlabel : existing.label = space.label
    · have heq := Namespace.eq_of_label_of_uri hlabel huri
      simp [heq, eq_comm]
    · have hne : existing ≠ space := fun heq => hlabel (by rw [heq])
      simp [hlabel, hne]
  | none =>
    cases registry.uriOf? space.label with
    | some existing => simp
    | none => simp [eq_comm]

/-- A call is refused for a known URI with another prefix, or else for a known prefix, and leaves
the registry as it is. -/
theorem register_eq_error_iff {registry' : Registry} {space : Namespace} {fault : Fault} :
    registry.register space = (.error fault, registry') ↔ registry' = registry ∧
      ((∃ existing, registry.byUri? space.uri = some existing ∧ existing.label ≠ space.label ∧
          fault = .uriConflict space.uri existing.label space.label) ∨
        (registry.byUri? space.uri = none ∧
          ∃ existing, registry.uriOf? space.label = some existing ∧
            fault = .prefixConflict space.label existing space.uri)) := by
  rw [register]
  cases registry.byUri? space.uri with
  | some existing =>
    by_cases hlabel : existing.label = space.label
    · simp [hlabel]
    · have hother : space.label ≠ existing.label := Ne.symm hlabel
      simp [hlabel, hother, eq_comm, and_comm]
  | none =>
    cases registry.uriOf? space.label with
    | some existing => simp [eq_comm, and_comm]
    | none => simp

theorem registered_eq_ok_iff {registry' : Registry} {space : Namespace} :
    registry.registered space = .ok registry' ↔ registry.register space = (.ok (), registry') := by
  rw [registered]
  cases registry.register space with
  | mk outcome after => cases outcome <;> simp

theorem registered_eq_error_iff {space : Namespace} {fault : Fault} :
    registry.registered space = .error fault ↔
      registry.register space = (.error fault, registry) := by
  rw [registered]
  cases hcall : registry.register space with
  | mk outcome after =>
    cases outcome with
    | ok => simp
    | error other =>
      obtain ⟨rfl, -⟩ := register_eq_error_iff.1 hcall
      simp

theorem Linked.register (hlinked : registry.Linked) {registry' : Registry} {space : Namespace}
    (h : registry.register space = (.ok (), registry')) : registry'.Linked := by
  rcases register_eq_ok_iff.1 h with ⟨-, rfl⟩ | ⟨huri, hlabel, rfl⟩
  · exact hlinked
  · exact hlinked.insert huri hlabel

theorem mem_toList_register {registry' : Registry} {space other : Namespace}
    (h : registry.register space = (.ok (), registry')) :
    other ∈ registry'.toList ↔ other ∈ registry.toList ∨ other = space := by
  rcases register_eq_ok_iff.1 h with ⟨hbound, rfl⟩ | ⟨huri, -, rfl⟩
  · constructor
    · exact Or.inl
    · rintro (hmem | rfl)
      · exact hmem
      · exact mem_toList_iff.2 hbound
  · rw [mem_toList_iff, mem_toList_iff, byUri?_insert]
    by_cases heq : space.uri = other.uri
    · rw [if_pos heq, ← heq, huri]
      simp [eq_comm]
    · have hne : other ≠ space := fun h => heq (by rw [h])
      simp [heq, hne]

/-- A call succeeds exactly when the binding agrees with every one that is there. -/
theorem Linked.exists_register_iff (hlinked : registry.Linked) (space : Namespace) :
    (∃ registry', registry.register space = (.ok (), registry')) ↔
      ∀ other ∈ registry.toList, other.label = space.label ↔ other.uri = space.uri := by
  constructor
  · rintro ⟨registry', h⟩ other hother
    have hone := (hlinked.register h).oneToOne
    exact hone other ((mem_toList_register h).2 (Or.inl hother)) space
      ((mem_toList_register h).2 (Or.inr rfl))
  · intro hagrees
    cases hbound : registry.byUri? space.uri with
    | some existing =>
      have huri := uri_eq_of_byUri? hbound
      have hlabel := (hagrees existing (mem_toList_of_byUri? hbound)).2 huri
      have heq := Namespace.eq_of_label_of_uri hlabel huri
      exact ⟨registry, register_eq_ok_iff.2 (Or.inl ⟨heq ▸ hbound, rfl⟩)⟩
    | none =>
      have hlabel : registry.uriOf? space.label = none := by
        refine Option.eq_none_iff_forall_ne_some.2 fun uri huri => ?_
        obtain ⟨other, hother, hl⟩ := (hlinked space.label uri).1 huri
        have hu := (hagrees other (mem_toList_of_byUri? hother)).1 hl
        rw [← uri_eq_of_byUri? hother, hu, hbound] at hother
        cases hother
      exact ⟨_, register_eq_ok_iff.2 (Or.inr ⟨hbound, hlabel, rfl⟩)⟩

/-! ## Calls that all succeed -/

/-- The registry after calls one after another, the first refused one of which ends them. -/
def registerAll (registry : Registry) (spaces : List Namespace) : Except Fault Registry :=
  spaces.foldlM registered registry

theorem registerAll_cons_eq_ok_iff {registry' : Registry} {space : Namespace}
    {rest : List Namespace} :
    registry.registerAll (space :: rest) = .ok registry' ↔
      ∃ next, registry.register space = (.ok (), next) ∧
        next.registerAll rest = .ok registry' := by
  simp only [registerAll, List.foldlM_cons, bind_eq_ok_iff, registered_eq_ok_iff]

theorem registerAll_append_eq_ok_iff {registry' : Registry} {spaces more : List Namespace} :
    registry.registerAll (spaces ++ more) = .ok registry' ↔
      ∃ next, registry.registerAll spaces = .ok next ∧ next.registerAll more = .ok registry' := by
  rw [registerAll, List.foldlM_append]
  exact bind_eq_ok_iff

theorem Linked.registerAll (hlinked : registry.Linked) {registry' : Registry}
    {spaces : List Namespace} (h : registry.registerAll spaces = .ok registry') :
    registry'.Linked := by
  induction spaces generalizing registry with
  | nil =>
    cases h
    exact hlinked
  | cons space rest ih =>
    obtain ⟨next, hnext, hrest⟩ := registerAll_cons_eq_ok_iff.1 h
    exact ih (hlinked.register hnext) hrest

/-- After calls that all succeed the registry holds what it held and what was asked for. -/
theorem mem_toList_registerAll {registry' : Registry} {spaces : List Namespace}
    (h : registry.registerAll spaces = .ok registry') {space : Namespace} :
    space ∈ registry'.toList ↔ space ∈ registry.toList ∨ space ∈ spaces := by
  induction spaces generalizing registry with
  | nil =>
    cases h
    simp
  | cons first rest ih =>
    obtain ⟨next, hnext, hrest⟩ := registerAll_cons_eq_ok_iff.1 h
    rw [ih hrest, mem_toList_register hnext, List.mem_cons, or_assoc]

theorem Linked.exists_registerAll_iff (hlinked : registry.Linked) (spaces : List Namespace) :
    (∃ registry', registry.registerAll spaces = .ok registry') ↔
      Namespace.OneToOne (registry.toList ++ spaces) := by
  induction spaces generalizing registry with
  | nil =>
    rw [List.append_nil]
    exact ⟨fun _ => hlinked.oneToOne, fun _ => ⟨registry, rfl⟩⟩
  | cons space rest ih =>
    constructor
    · rintro ⟨registry', h⟩
      have hone := (hlinked.registerAll h).oneToOne
      refine (Namespace.oneToOne_congr fun other => ?_).1 hone
      rw [mem_toList_registerAll h, List.mem_append]
    · intro hone
      have hagrees : ∀ other ∈ registry.toList, other.label = space.label ↔ other.uri = space.uri :=
        fun other hother => hone other (List.mem_append_left _ hother) space (by simp)
      obtain ⟨next, hnext⟩ := (hlinked.exists_register_iff space).2 hagrees
      have hmembers : ∀ other, other ∈ next.toList ++ rest ↔
          other ∈ registry.toList ++ space :: rest := by
        intro other
        rw [List.mem_append, List.mem_append, mem_toList_register hnext, List.mem_cons, or_assoc]
      obtain ⟨registry', hrest⟩ := (ih (hlinked.register hnext)).2
        ((Namespace.oneToOne_congr hmembers).2 hone)
      exact ⟨registry', registerAll_cons_eq_ok_iff.2 ⟨next, hnext, hrest⟩⟩

/-- Only which bindings are asked for matters, not in which order and how often. -/
theorem Linked.registerAll_congr (hlinked : registry.Linked) {registry' : Registry}
    {spaces others : List Namespace} (h : registry.registerAll spaces = .ok registry')
    (hmembers : ∀ space, space ∈ others ↔ space ∈ spaces) :
    registry.registerAll others = .ok registry' := by
  have hone := (hlinked.exists_registerAll_iff spaces).1 ⟨registry', h⟩
  have hone' : Namespace.OneToOne (registry.toList ++ others) := by
    refine (Namespace.oneToOne_congr fun space => ?_).2 hone
    rw [List.mem_append, List.mem_append, hmembers]
  obtain ⟨other, hother⟩ := (hlinked.exists_registerAll_iff others).2 hone'
  have heq : other = registry' := by
    refine (hlinked.registerAll hother).eq_of_mem_iff (hlinked.registerAll h) fun space => ?_
    rw [mem_toList_registerAll hother, mem_toList_registerAll h, hmembers]
  rw [hother, heq]

/-- Bindings that are all new and different go into the tables as they are. -/
theorem registerAll_of_pairwise {spaces : List Namespace}
    (hfresh : ∀ space ∈ spaces,
      registry.byUri? space.uri = none ∧ registry.uriOf? space.label = none)
    (hpairwise : spaces.Pairwise fun a b => a.uri ≠ b.uri ∧ a.label ≠ b.label) :
    registry.registerAll spaces = .ok (spaces.foldl insert registry) := by
  induction spaces generalizing registry with
  | nil => rfl
  | cons space rest ih =>
    obtain ⟨hspace, hrest⟩ := List.forall_mem_cons.1 hfresh
    obtain ⟨hdifferent, hpairwise⟩ := List.pairwise_cons.1 hpairwise
    refine registerAll_cons_eq_ok_iff.2 ⟨registry.insert space, ?_, ih ?_ hpairwise⟩
    · exact register_eq_ok_iff.2 (Or.inr ⟨hspace.1, hspace.2, rfl⟩)
    · intro other hother
      rw [byUri?_insert, uriOf?_insert, if_neg (hdifferent other hother).1,
        if_neg (hdifferent other hother).2]
      exact hrest other hother

/-- A namespace that shares nothing with those of the registry is in neither table. -/
theorem Linked.unbound_of_forall_ne (hlinked : registry.Linked) {space : Namespace}
    (h : ∀ other ∈ registry.toList, other.uri ≠ space.uri ∧ other.label ≠ space.label) :
    registry.byUri? space.uri = none ∧ registry.uriOf? space.label = none := by
  constructor
  · apply Option.eq_none_iff_forall_ne_some.2
    intro other hother
    exact (h other (mem_toList_of_byUri? hother)).1 (uri_eq_of_byUri? hother)
  · apply Option.eq_none_iff_forall_ne_some.2
    intro uri huri
    obtain ⟨other, hother, hlabel⟩ := (hlinked _ _).1 huri
    exact (h other (mem_toList_of_byUri? hother)).2 hlabel

theorem registerAll_builtins : empty.registerAll Namespace.builtins = .ok builtin := by
  refine registerAll_of_pairwise (fun space _ => ⟨byUri?_empty _, uriOf?_empty _⟩) ?_
  decide +kernel

theorem linked_builtin : builtin.Linked :=
  linked_empty.registerAll registerAll_builtins

theorem mem_toList_builtin {space : Namespace} :
    space ∈ builtin.toList ↔ space ∈ Namespace.builtins := by
  rw [mem_toList_registerAll registerAll_builtins]
  simp [toList, empty, Ascending.empty]

/-! ## Runs of calls, refused ones among them -/

/-- The registry that a call leaves behind, accepted or refused. -/
def afterCall (registry : Registry) (space : Namespace) : Registry :=
  (registry.register space).2

/-- The registry after calls one after another, accepted or refused. -/
def afterCalls (registry : Registry) (spaces : List Namespace) : Registry :=
  spaces.foldl afterCall registry

theorem afterCalls_append (registry : Registry) (spaces more : List Namespace) :
    registry.afterCalls (spaces ++ more) = (registry.afterCalls spaces).afterCalls more :=
  List.foldl_append

/-- Calls that all succeed leave the registry that `registerAll` gives. -/
theorem afterCalls_of_registerAll {registry' : Registry} {spaces : List Namespace}
    (h : registry.registerAll spaces = .ok registry') : registry.afterCalls spaces = registry' := by
  induction spaces generalizing registry with
  | nil =>
    cases h
    rfl
  | cons space rest ih =>
    obtain ⟨next, hnext, hrest⟩ := registerAll_cons_eq_ok_iff.1 h
    have hcall : registry.afterCall space = next := by rw [afterCall, hnext]
    rw [afterCalls, List.foldl_cons, hcall]
    exact ih hrest

theorem afterCall_of_error {space : Namespace} {fault : Fault}
    (h : (registry.register space).1 = .error fault) : registry.afterCall space = registry :=
  (register_eq_error_iff.1 (Prod.ext h rfl)).1

/-- A call succeeds, or else it leaves the registry as it is. -/
theorem afterCall_cases (registry : Registry) (space : Namespace) :
    registry.register space = (.ok (), registry.afterCall space) ∨
      registry.afterCall space = registry := by
  cases h : (registry.register space).1 with
  | ok => exact Or.inl (Prod.ext h rfl)
  | error fault => exact Or.inr (afterCall_of_error h)

theorem Linked.afterCall (hlinked : registry.Linked) (space : Namespace) :
    (registry.afterCall space).Linked := by
  rcases registry.afterCall_cases space with h | h
  · exact hlinked.register h
  · rwa [h]

theorem Linked.afterCalls (hlinked : registry.Linked) (spaces : List Namespace) :
    (registry.afterCalls spaces).Linked := by
  induction spaces generalizing registry with
  | nil => exact hlinked
  | cons space rest ih => exact ih (hlinked.afterCall space)

theorem mem_toList_afterCall {space other : Namespace} (h : other ∈ registry.toList) :
    other ∈ (registry.afterCall space).toList := by
  rcases registry.afterCall_cases space with hcall | hcall
  · exact (mem_toList_register hcall).2 (Or.inl h)
  · rwa [hcall]

/-- No call takes a binding away. -/
theorem mem_toList_afterCalls {spaces : List Namespace} {other : Namespace}
    (h : other ∈ registry.toList) : other ∈ (registry.afterCalls spaces).toList := by
  induction spaces generalizing registry with
  | nil => exact h
  | cons space rest ih => exact ih (mem_toList_afterCall h)

/-- What holds of a registry after calls that began with a given one: prefixes and URIs go together
one to one in both tables, a refused call leaves the registry as it is, no binding is ever changed
or taken away, and more calls all succeed just if everything together is one to one, and then they
leave the same registry in any order and however often each is made. -/
structure OneToOneAfter (start : Registry) (calls : List Namespace) : Prop where
  byLabel?_eq_some_iff : ∀ label space, (start.afterCalls calls).byLabel? label = some space ↔
    space.label = label ∧ (start.afterCalls calls).byUri? space.uri = some space
  mem_labels_iff : ∀ label uri, (label, uri) ∈ (start.afterCalls calls).labels.toList ↔
    ∃ space ∈ (start.afterCalls calls).toList, space.label = label ∧ space.uri = uri
  label_eq_iff : ∀ a ∈ (start.afterCalls calls).toList, ∀ b ∈ (start.afterCalls calls).toList,
    a.label = b.label ↔ a.uri = b.uri
  pairwise_uri_lt : (start.afterCalls calls).toList.Pairwise fun a b => a.uri < b.uri
  size_eq : (start.afterCalls calls).size = (start.afterCalls calls).toList.length ∧
    (start.afterCalls calls).size = (start.afterCalls calls).labels.toList.length
  refused : ∀ space fault, ((start.afterCalls calls).register space).1 = .error fault →
    start.afterCalls (calls ++ [space]) = start.afterCalls calls
  byUri?_kept : ∀ more uri space, (start.afterCalls calls).byUri? uri = some space →
    (start.afterCalls (calls ++ more)).byUri? uri = some space
  byLabel?_kept : ∀ more label space, (start.afterCalls calls).byLabel? label = some space →
    (start.afterCalls (calls ++ more)).byLabel? label = some space
  exists_registerAll_iff : ∀ spaces,
    (∃ registry, (start.afterCalls calls).registerAll spaces = .ok registry) ↔
      Namespace.OneToOne ((start.afterCalls calls).toList ++ spaces)
  afterCalls_of_registerAll : ∀ spaces registry,
    (start.afterCalls calls).registerAll spaces = .ok registry →
      start.afterCalls (calls ++ spaces) = registry
  registerAll_congr : ∀ spaces registry,
    (start.afterCalls calls).registerAll spaces = .ok registry →
      ∀ others, (∀ space, space ∈ others ↔ space ∈ spaces) →
        (start.afterCalls calls).registerAll others = .ok registry

/-- Registries that begin empty or with the builtin namespaces bind prefixes and URIs one to one
throughout every run of calls. -/
theorem one_to_one_after_calls {start : Registry} (hstart : start = .empty ∨ start = .builtin)
    (calls : List Namespace) : start.OneToOneAfter calls := by
  have hbegin : start.Linked := by
    rcases hstart with rfl | rfl
    · exact linked_empty
    · exact linked_builtin
  have hlinked : (start.afterCalls calls).Linked := hbegin.afterCalls calls
  have hkept : ∀ more uri space, (start.afterCalls calls).byUri? uri = some space →
      (start.afterCalls (calls ++ more)).byUri? uri = some space := by
    intro more uri space h
    obtain ⟨hmem, huri⟩ := byUri?_eq_some_iff.1 h
    rw [afterCalls_append]
    exact byUri?_eq_some_iff.2 ⟨mem_toList_afterCalls hmem, huri⟩
  refine
    { byLabel?_eq_some_iff := fun label space => hlinked.byLabel?_eq_some_iff
      mem_labels_iff := fun label uri => hlinked.mem_labels_iff_mem
      label_eq_iff := hlinked.oneToOne
      pairwise_uri_lt := Registry.pairwise_uri_lt _
      size_eq := ⟨rfl, hlinked.size_labels.symm⟩
      refused := ?_
      byUri?_kept := hkept
      byLabel?_kept := ?_
      exists_registerAll_iff := hlinked.exists_registerAll_iff
      afterCalls_of_registerAll := ?_
      registerAll_congr := fun spaces registry h others => hlinked.registerAll_congr h }
  · intro space fault h
    rw [afterCalls_append]
    exact afterCall_of_error h
  · intro more label space h
    obtain ⟨hlabel, huri⟩ := hlinked.byLabel?_eq_some_iff.1 h
    exact (hbegin.afterCalls _).byLabel?_eq_some_iff.2 ⟨hlabel, hkept more _ _ huri⟩
  · intro spaces registry h
    rw [afterCalls_append]
    exact afterCalls_of_registerAll h

/-- A run with a repeated binding, a refused prefix for a known URI, a new binding, and a refused
URI for its prefix. -/
theorem one_to_one_after_conflicts :
    (Registry.builtin = .empty ∨ Registry.builtin = .builtin) ∧
      Registry.builtin.OneToOneAfter [Namespace.rdf,
        ⟨"r", Namespace.rdfUri, by decide, by decide⟩,
        ⟨"ex", "http://example.org/", by decide, by decide⟩,
        ⟨"ex", "http://example.org/other", by decide, by decide⟩] :=
  ⟨Or.inr rfl, one_to_one_after_calls (Or.inr rfl) _⟩

end Registry

end Concordance
