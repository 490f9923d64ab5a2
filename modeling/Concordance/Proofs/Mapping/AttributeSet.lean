import Concordance.Proofs.Definition.WrittenNames
import Concordance.Proofs.Stylesheet.Fallback

/-!
# The attributes of a rule

However a rule is put together, its attribute correspondences are a set: of those that say the same
the first one passed is kept, prefixes and all, and the others are not.  The set has one listing in
the order of stylesheets, since correspondences that compare equal in that order are the same.

Where all names come from one registry, correspondences that say the same are the same.  Then the
set has just the members that were passed, in whatever order, however often and in whatever groups,
and the order of stylesheets is the order of the written targets and then of the written sources.
-/

namespace Concordance

open Std

/-! ## The two orders -/

theorem ExpandedName.eq_of_compare_eq {a b : ExpandedName} (h : compare a b = .eq) : a = b := by
  have hboth : compareLex (compareOn ExpandedName.uri) (compareOn ExpandedName.localName) a b =
      .eq := h
  rw [compareLex_eq_eq, compareOn, compareOn, LawfulEqCmp.compare_eq_iff_eq,
    LawfulEqCmp.compare_eq_iff_eq] at hboth
  rw [ExpandedName.mk.injEq]
  exact hboth

namespace Correspondence

theorem eq_of_source_of_target {c d : Correspondence} (hsource : c.source = d.source)
    (htarget : c.target = d.target) : c = d := by
  cases c
  cases d
  rw [mk.injEq]
  exact ⟨hsource, htarget⟩

/-- Correspondences compare equal when they say the same. -/
theorem cmp_eq_eq_iff {c d : Correspondence} : cmp c d = .eq ↔ c.expanded = d.expanded := by
  constructor
  · intro h
    rw [cmp, compareLex_eq_eq, compareOn, compareOn] at h
    rw [expanded, expanded, ExpandedName.eq_of_compare_eq h.1, ExpandedName.eq_of_compare_eq h.2]
  · exact cmp_eq_of_expanded

theorem isKey_expanded (names : ExpandedName × ExpandedName) :
    IsKey cmp fun c => decide (c.expanded = names) := by
  intro c d hc
  rw [cmp_eq_eq_iff, of_decide_eq_true hc, decide_eq_true_eq, eq_comm]

/-- The order of the written targets and then of the written sources. -/
def writtenCmp : Correspondence → Correspondence → Ordering :=
  compareLex (compareOn fun c => c.target.qualifiedName) (compareOn fun c => c.source.qualifiedName)

instance : TransCmp writtenCmp :=
  inferInstanceAs (TransCmp
    (compareLex (compareOn fun c : Correspondence => c.target.qualifiedName)
      (compareOn fun c : Correspondence => c.source.qualifiedName)))

theorem canonicalCmp_eq_then (c d : Correspondence) :
    canonicalCmp c d = (writtenCmp c d).then (cmp c d) := by
  rw [canonicalCmp, writtenCmp, compareLex, compareLex, compareLex, Ordering.then_assoc]

theorem writtenCmp_eq_eq_iff {c d : Correspondence} :
    writtenCmp c d = .eq ↔ c.target.qualifiedName = d.target.qualifiedName ∧
      c.source.qualifiedName = d.source.qualifiedName := by
  rw [writtenCmp, compareLex_eq_eq, compareOn, compareOn, LawfulEqCmp.compare_eq_iff_eq,
    LawfulEqCmp.compare_eq_iff_eq]

/-- In the order of stylesheets nothing compares equal but what is the same. -/
theorem canonicalCmp_eq_eq_iff {c d : Correspondence} : canonicalCmp c d = .eq ↔ c = d := by
  constructor
  · intro h
    rw [canonicalCmp_eq_then, Ordering.then_eq_eq, writtenCmp_eq_eq_iff, cmp_eq_eq_iff] at h
    obtain ⟨⟨htarget, hsource⟩, hexpanded⟩ := h
    obtain ⟨hsources, htargets⟩ := Prod.mk.inj hexpanded
    apply eq_of_source_of_target
    · exact Element.eq_of_qualifiedName_of_uri hsource (congrArg ExpandedName.uri hsources)
    · exact Element.eq_of_qualifiedName_of_uri htarget (congrArg ExpandedName.uri htargets)
  · rintro rfl
    exact ReflCmp.compare_self

/-- The order of stylesheets is a total order on correspondences. -/
structure TotallyOrdered : Prop where
  swap : ∀ c d, canonicalCmp d c = (canonicalCmp c d).swap
  isLE_trans : ∀ c d e, (canonicalCmp c d).isLE = true → (canonicalCmp d e).isLE = true →
    (canonicalCmp c e).isLE = true
  eq_iff : ∀ c d, canonicalCmp c d = .eq ↔ c = d

theorem totallyOrdered : TotallyOrdered where
  swap _ _ := OrientedCmp.eq_swap
  isLE_trans _ _ _ := TransCmp.isLE_trans
  eq_iff _ _ := canonicalCmp_eq_eq_iff

end Correspondence

/-! ## Names of one registry -/

namespace Registry

variable {registry : Registry}

/-- The registry makes both sides of every correspondence. -/
def MakesAll (registry : Registry) (cs : List Correspondence) : Prop :=
  ∀ c ∈ cs, ∀ element ∈ c.elements, registry.Makes element

theorem Linked.eq_of_expanded_eq (hlinked : registry.Linked) {a b : Element}
    (ha : a.BoundIn registry) (hb : b.BoundIn registry) (h : a.expanded = b.expanded) : a = b := by
  obtain ⟨huri, hlocal⟩ := ExpandedName.mk.inj h
  have hspace := (hlinked.byLabel?_eq_some_iff.1 ha).2
  rw [huri, (hlinked.byLabel?_eq_some_iff.1 hb).2, Option.some.injEq] at hspace
  refine Element.eq_of_qualifiedName_of_uri ?_ huri
  rw [Element.qualifiedName, Element.qualifiedName, hspace, hlocal]

section OneRegistry

variable (hlinked : registry.Linked) {cs : List Correspondence} (hmakes : registry.MakesAll cs)
  {c d : Correspondence}

include hlinked hmakes

theorem Linked.boundIn_of_mem (hc : c ∈ cs) :
    c.source.BoundIn registry ∧ c.target.BoundIn registry := by
  have hbound : ∀ element ∈ c.elements, element.BoundIn registry := by
    intro element hmem
    exact hlinked.makes_iff.1 (hmakes c hc element hmem)
  exact ⟨hbound c.source List.mem_cons_self,
    hbound c.target (List.mem_cons_of_mem _ List.mem_cons_self)⟩

/-- Correspondences between names of one registry are the same if they say the same. -/
theorem Linked.eq_of_mem_of_expanded (hc : c ∈ cs) (hd : d ∈ cs) (h : c.expanded = d.expanded) :
    c = d := by
  obtain ⟨hsource, htarget⟩ := hlinked.boundIn_of_mem hmakes hc
  obtain ⟨hsource', htarget'⟩ := hlinked.boundIn_of_mem hmakes hd
  obtain ⟨hsources, htargets⟩ := Prod.mk.inj h
  apply Correspondence.eq_of_source_of_target
  · exact hlinked.eq_of_expanded_eq hsource hsource' hsources
  · exact hlinked.eq_of_expanded_eq htarget htarget' htargets

/-- Correspondences between names of one registry are the same if they are written alike. -/
theorem Linked.eq_of_mem_of_writtenCmp (hc : c ∈ cs) (hd : d ∈ cs)
    (h : Correspondence.writtenCmp c d = .eq) : c = d := by
  obtain ⟨hsource, htarget⟩ := hlinked.boundIn_of_mem hmakes hc
  obtain ⟨hsource', htarget'⟩ := hlinked.boundIn_of_mem hmakes hd
  obtain ⟨htargets, hsources⟩ := Correspondence.writtenCmp_eq_eq_iff.1 h
  apply Correspondence.eq_of_source_of_target
  · exact eq_of_qualifiedName_eq hsource hsource' hsources
  · exact eq_of_qualifiedName_eq htarget htarget' htargets

end OneRegistry

end Registry

/-! ## Calls -/

namespace Rule

/-- A call by which a rule is put together. -/
inductive Call where
  | attribute (copied : Correspondence)
  | attributes (copied : List Correspondence)
  | text (keepsText : Bool)

/-- The attribute correspondences that a call passes. -/
def Call.passed : Call → List Correspondence
  | .attribute copied => [copied]
  | .attributes copied => copied
  | .text _ => []

def afterCall (rule : Rule) : Call → Rule
  | .attribute copied => rule.withAttribute copied
  | .attributes copied => rule.withAttributes copied
  | .text keepsText => rule.withText keepsText

/-- The rule after calls one after another. -/
def afterCalls (rule : Rule) (calls : List Call) : Rule :=
  calls.foldl afterCall rule

theorem attributes_withAttributes (rule : Rule) (attributes : List Correspondence) :
    (rule.withAttributes attributes).attributes =
      attributes.foldl (fun set c => set.insertNew c) rule.attributes := by
  induction attributes generalizing rule with
  | nil => rfl
  | cons first rest ih => exact ih (rule.withAttribute first)

theorem attributes_afterCall (rule : Rule) (call : Call) :
    (rule.afterCall call).attributes = (rule.withAttributes call.passed).attributes := by
  cases call <;> rfl

/-- Only what is passed counts, and not by which calls. -/
theorem attributes_afterCalls (rule : Rule) (calls : List Call) :
    (rule.afterCalls calls).attributes =
      (rule.withAttributes (calls.flatMap Call.passed)).attributes := by
  induction calls generalizing rule with
  | nil => rfl
  | cons call rest ih =>
    rw [List.flatMap_cons, attributes_withAttributes, List.foldl_append,
      ← attributes_withAttributes, ← attributes_afterCall, ← attributes_withAttributes]
    exact ih (rule.afterCall call)

/-- The attributes of a rule are, of the passed ones, those that nothing passed before them says. -/
theorem mem_withAttributes_ofTag_iff {tag c : Correspondence} {passed : List Correspondence} :
    c ∈ ((ofTag tag).withAttributes passed).attributes.toList ↔
      passed.find? (fun d => d.expanded = c.expanded) = some c := by
  have hkey := Correspondence.isKey_expanded c.expanded
  have hfound := find?_foldl_insertNew hkey passed (ofTag tag).attributes
  rw [← attributes_withAttributes] at hfound
  have hmem := find?_eq_some_iff_mem hkey
    ((ofTag tag).withAttributes passed).attributes.ascending (a := c)
  rw [decide_eq_true_eq, and_iff_left rfl] at hmem
  rw [← hmem, hfound]
  rfl

/-- Of the passed attributes that say what one of them says there is a first. -/
theorem exists_find?_expanded {passed : List Correspondence} {c : Correspondence}
    (hc : c ∈ passed) :
    ∃ d ∈ passed, passed.find? (fun d => d.expanded = c.expanded) = some d ∧
      d.expanded = c.expanded := by
  have hsome : (passed.find? fun d => d.expanded = c.expanded).isSome = true :=
    List.find?_isSome.2 ⟨c, hc, by rw [decide_eq_true_eq]⟩
  obtain ⟨d, hd⟩ := Option.isSome_iff_exists.1 hsome
  exact ⟨d, List.mem_of_find?_eq_some hd, hd, by simpa using List.find?_some hd⟩

/-- What holds of the attributes of a rule after some were passed: none says the same as another,
they are the first that were passed of those that say the same, each of those passed is represented,
and the listing of stylesheets is the one listing of them in its order. -/
structure AttributesExact (rule : Rule) (passed : List Correspondence) : Prop where
  pairwise_expanded_ne : rule.attributes.toList.Pairwise fun c d => c.expanded ≠ d.expanded
  mem_iff : ∀ c, c ∈ rule.attributes.toList ↔
    passed.find? (fun d => d.expanded = c.expanded) = some c
  exists_same : ∀ c ∈ passed, ∃ d ∈ rule.attributes.toList, d.expanded = c.expanded
  perm : rule.canonicalAttributes.Perm rule.attributes.toList
  pairwise_lt : rule.canonicalAttributes.Pairwise fun c d =>
    Correspondence.canonicalCmp c d = .lt
  eq_canonicalAttributes : ∀ listed : List Correspondence, listed.Perm rule.attributes.toList →
    (listed.Pairwise fun c d => (Correspondence.canonicalCmp c d).isLE = true) →
      listed = rule.canonicalAttributes

theorem attributesExact_of_eq {rule : Rule} {tag : Correspondence} {passed : List Correspondence}
    (h : rule.attributes = ((ofTag tag).withAttributes passed).attributes) :
    rule.AttributesExact passed := by
  have hmem : ∀ c, c ∈ rule.attributes.toList ↔
      passed.find? (fun d => d.expanded = c.expanded) = some c := by
    intro c
    rw [h]
    exact mem_withAttributes_ofTag_iff
  constructor
  · refine rule.attributes.ascending.imp fun hlt heq => ?_
    rw [Correspondence.cmp_eq_of_expanded heq] at hlt
    cases hlt
  · exact hmem
  · intro c hc
    obtain ⟨d, -, hd, hsame⟩ := exists_find?_expanded hc
    refine ⟨d, (hmem d).2 ?_, hsame⟩
    rw [hsame]
    exact hd
  · exact List.mergeSort_perm _ _
  · exact rule.canonicalAttributes_ascending
  · intro listed hperm hordered
    have hcanonical : listed.Perm rule.canonicalAttributes :=
      hperm.trans (List.mergeSort_perm _ _).symm
    refine eq_of_perm_of_pairwise_isLE hcanonical hordered
      (Correspondence.pairwise_canonical _) ?_
    intro c _ d _ heq
    exact Correspondence.canonicalCmp_eq_eq_iff.1 heq

/-! ## Attributes from one registry -/

section OneRegistry

variable {registry : Registry} {passed : List Correspondence}

/-- From one registry, the attributes are just those that were passed. -/
theorem mem_withAttributes_of_makesAll (hlinked : registry.Linked)
    (hmakes : registry.MakesAll passed) {tag c : Correspondence} :
    c ∈ ((ofTag tag).withAttributes passed).attributes.toList ↔ c ∈ passed := by
  rw [mem_withAttributes_ofTag_iff]
  constructor
  · exact List.mem_of_find?_eq_some
  · intro hc
    obtain ⟨d, hmem, hd, hsame⟩ := exists_find?_expanded hc
    rw [hd, hlinked.eq_of_mem_of_expanded hmakes hmem hc hsame]

/-- What holds of the attributes of a rule after some from one registry were passed: they are just
those that were passed, and their listing is the one that ascends by what is written. -/
structure AttributesFromOne (rule : Rule) (passed : List Correspondence) : Prop where
  mem_iff : ∀ c, c ∈ rule.attributes.toList ↔ c ∈ passed
  pairwise_written_lt : rule.canonicalAttributes.Pairwise fun c d =>
    Correspondence.writtenCmp c d = .lt
  eq_of_written_isLE : ∀ listed : List Correspondence, listed.Perm rule.attributes.toList →
    (listed.Pairwise fun c d => (Correspondence.writtenCmp c d).isLE = true) →
      listed = rule.canonicalAttributes

theorem attributesFromOne_of_mem_iff (hlinked : registry.Linked)
    (hmakes : registry.MakesAll passed) {rule : Rule}
    (hmem : ∀ c, c ∈ rule.attributes.toList ↔ c ∈ passed) : rule.AttributesFromOne passed := by
  have hascends : rule.canonicalAttributes.Pairwise fun c d =>
      Correspondence.writtenCmp c d = .lt := by
    refine rule.canonicalAttributes_ascending.imp_of_mem fun {c d} hc hd hlt => ?_
    have hc := (hmem c).1 (mem_canonicalAttributes.1 hc)
    have hd := (hmem d).1 (mem_canonicalAttributes.1 hd)
    rw [Correspondence.canonicalCmp_eq_then, Ordering.then_eq_lt] at hlt
    rcases hlt with hlt | ⟨heq, hlt⟩
    · exact hlt
    · -- what is written alike is the same
      have hself : Correspondence.cmp d d = .eq := ReflCmp.compare_self
      rw [hlinked.eq_of_mem_of_writtenCmp hmakes hc hd heq, hself] at hlt
      cases hlt
  refine ⟨hmem, hascends, ?_⟩
  intro listed hperm hordered
  have hcanonical : listed.Perm rule.canonicalAttributes :=
    hperm.trans (List.mergeSort_perm _ _).symm
  have hle : rule.canonicalAttributes.Pairwise fun c d =>
      (Correspondence.writtenCmp c d).isLE = true :=
    hascends.imp fun hlt => by rw [hlt, Ordering.isLE_lt]
  refine eq_of_perm_of_pairwise_isLE hcanonical hordered hle ?_
  intro c hc d hd heq
  have hc := (hmem c).1 (hperm.mem_iff.1 hc)
  have hd := (hmem d).1 (hperm.mem_iff.1 hd)
  exact hlinked.eq_of_mem_of_writtenCmp hmakes hc hd heq

end OneRegistry

/-- The attributes of a rule are a set with one listing, whatever the calls were; and from one
registry the set, and with it the listing, is decided by which attributes were passed. -/
theorem attributes_listed_once (tag : Correspondence) (calls : List Call) :
    let rule := (ofTag tag).afterCalls calls
    let passed := calls.flatMap Call.passed
    Correspondence.TotallyOrdered ∧ rule.AttributesExact passed ∧
      ∀ registry : Registry, registry.Built → registry.MakesAll passed →
        rule.AttributesFromOne passed ∧
          ∀ otherTag others, (∀ c, c ∈ others.flatMap Call.passed ↔ c ∈ passed) →
            ((ofTag otherTag).afterCalls others).canonicalAttributes =
              rule.canonicalAttributes := by
  intro rule passed
  refine ⟨Correspondence.totallyOrdered, attributesExact_of_eq (attributes_afterCalls _ calls), ?_⟩
  intro registry hbuilt hmakes
  have hmem : ∀ c, c ∈ rule.attributes.toList ↔ c ∈ passed := by
    intro c
    rw [attributes_afterCalls]
    exact mem_withAttributes_of_makesAll hbuilt.linked hmakes
  refine ⟨attributesFromOne_of_mem_iff hbuilt.linked hmakes hmem, ?_⟩
  intro otherTag others hsame
  have hmakes' : registry.MakesAll (others.flatMap Call.passed) := by
    intro c hc
    exact hmakes c ((hsame c).1 hc)
  have hattributes : ((ofTag otherTag).afterCalls others).attributes = rule.attributes := by
    apply Ascending.eq_of_mem_iff
    intro c
    rw [hmem, attributes_afterCalls, mem_withAttributes_of_makesAll hbuilt.linked hmakes', hsame]
  rw [canonicalAttributes, canonicalAttributes, hattributes]

/-- The language and the identifier of a vocabulary, passed one by one or in a group, in either
order and once or twice. -/
theorem attributes_listed_once_terms :
    let registry := Registry.builtin.insert Definition.termSpace
    let tag := Definition.labelledTerms.parent.tag
    let lang : Correspondence :=
      ⟨⟨Namespace.xml, "lang", by decide⟩, ⟨Definition.termSpace, "lang", by decide⟩⟩
    let id : Correspondence :=
      ⟨⟨Namespace.rdf, "ID", by decide⟩, ⟨Definition.termSpace, "id", by decide⟩⟩
    let rule := (ofTag tag).afterCalls [.attribute lang, .text true, .attributes [id, lang]]
    registry.Built ∧ registry.MakesAll [lang, id, lang] ∧ rule.AttributesFromOne [lang, id, lang] ∧
      ((ofTag tag).afterCalls [.attributes [id], .attribute lang]).canonicalAttributes =
        rule.canonicalAttributes := by
  intro registry tag lang id rule
  have hbuilt : registry.Built :=
    Registry.Built.builtin.registerAll Definition.registerAll_termSpace
  have hspaces : ∀ c ∈ [lang, id, lang], ∀ element ∈ c.elements,
      element.space ∈ Namespace.builtins ∨ element.space ∈ [Definition.termSpace] := by
    decide
  have hmakes : registry.MakesAll [lang, id, lang] := by
    intro c hc element hmem
    rw [hbuilt.linked.makes_iff, hbuilt.linked.boundIn_iff_mem,
      Registry.mem_toList_registerAll Definition.registerAll_termSpace,
      Registry.mem_toList_builtin]
    exact hspaces c hc element hmem
  obtain ⟨-, -, hone⟩ :=
    attributes_listed_once tag [.attribute lang, .text true, .attributes [id, lang]]
  obtain ⟨hfrom, hsame⟩ := hone registry hbuilt hmakes
  refine ⟨hbuilt, hmakes, hfrom, hsame tag [.attributes [id], .attribute lang] ?_⟩
  intro c
  simp only [List.flatMap_cons, List.flatMap_nil, Call.passed, List.append_nil, List.nil_append,
    List.mem_append, List.mem_cons, List.not_mem_nil, or_false]
  grind

end Rule

end Concordance
