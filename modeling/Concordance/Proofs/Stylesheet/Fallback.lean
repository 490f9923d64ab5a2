import Concordance.Proofs.Stylesheet.Extending

/-!
# When a rule falls back

A rule that takes one relationship to another falls back to a nested concept, unless it fills
`rdf:resource` from some other attribute; then it defers to the first of the correspondences that do
so, in the order in which stylesheets list them.  A rule has at most one correspondence from an
attribute to another, whatever the prefixes, so at most one takes `rdf:resource` to itself.
-/

namespace Concordance

open Namespace (rdfUri)
open Correspondence (canonicalCmp)

theorem Element.isResource_iff {element : Element} :
    element.isResource = true ↔ element.expanded = ⟨rdfUri, "resource"⟩ := by
  rw [isResource, Bool.and_eq_true, beq_iff_eq, beq_iff_eq, expanded, ExpandedName.mk.injEq]

/-! ## The order of the listed correspondences -/

namespace Correspondence

theorem cmp_eq_of_canonicalCmp_eq {c d : Correspondence} (h : canonicalCmp c d = .eq) :
    cmp c d = .eq := by
  rw [canonicalCmp, compareLex_eq_eq, compareLex_eq_eq] at h
  exact h.2.2

theorem cmp_eq_of_expanded {c d : Correspondence} (h : c.expanded = d.expanded) :
    cmp c d = .eq := by
  obtain ⟨hsource, htarget⟩ := Prod.mk.inj h
  rw [cmp, compareLex_eq_eq, compareOn, compareOn, hsource, htarget]
  exact ⟨Std.ReflCmp.compare_self, Std.ReflCmp.compare_self⟩

theorem pairwise_canonical (cs : List Correspondence) :
    (canonical cs).Pairwise fun c d => (canonicalCmp c d).isLE = true := by
  refine List.pairwise_mergeSort (fun _ _ _ => Std.TransCmp.isLE_trans) (fun c d => ?_) cs
  have hswap : canonicalCmp d c = (canonicalCmp c d).swap := Std.OrientedCmp.eq_swap
  rw [hswap]
  cases canonicalCmp c d <;> rfl

end Correspondence

namespace Rule

variable {rule : Rule}

/-- No two listed correspondences say the same. -/
theorem canonicalAttributes_apart (rule : Rule) :
    rule.canonicalAttributes.Pairwise fun c d => Correspondence.cmp c d ≠ .eq := by
  have happart : rule.attributes.toList.Pairwise fun c d => Correspondence.cmp c d ≠ .eq :=
    rule.attributes.ascending.imp fun hlt heq => by rw [heq] at hlt; cases hlt
  exact (List.mergeSort_perm _ _).symm.pairwise happart fun hne heq =>
    hne (Std.OrientedCmp.eq_symm heq)

theorem canonicalAttributes_ascending (rule : Rule) :
    rule.canonicalAttributes.Pairwise fun c d => canonicalCmp c d = .lt := by
  refine ((Correspondence.pairwise_canonical _).and rule.canonicalAttributes_apart).imp ?_
  rintro c d ⟨hle, hne⟩
  rcases Ordering.isLE_iff_eq_lt_or_eq_eq.1 hle with hlt | heq
  · exact hlt
  · exact absurd (Correspondence.cmp_eq_of_canonicalCmp_eq heq) hne

/-! ## The decision -/

/-- The tag and the one that takes its place both relate two concepts. -/
def Relates (rule : Rule) : Prop :=
  rule.tag.source.isRelationship = true ∧ rule.tag.target.isRelationship = true

/-- The correspondence is one of the rule that fills `rdf:resource` from another attribute. -/
structure Competes (rule : Rule) (c : Correspondence) : Prop where
  mem : c ∈ rule.attributes.toList
  target_isResource : c.target.isResource = true
  source_isResource : c.source.isResource = false

/-- Whether the rule copies `rdf:resource` as it is. -/
def copiesResource (rule : Rule) : Bool :=
  rule.attributes.toList.any fun c => c.source.isResource && c.target.isResource

theorem mem_resourceAttributes {c : Correspondence} :
    c ∈ rule.resourceAttributes ↔ c ∈ rule.attributes.toList ∧ c.target.isResource = true := by
  rw [resourceAttributes, List.mem_filter, mem_canonicalAttributes]

theorem find?_eq_none_iff_competes :
    (rule.resourceAttributes.find? fun c => !c.source.isResource) = none ↔
      ¬∃ c, rule.Competes c := by
  rw [List.find?_eq_none]
  constructor
  · rintro h ⟨c, hc⟩
    refine h c (mem_resourceAttributes.2 ⟨hc.mem, hc.target_isResource⟩) ?_
    rw [hc.source_isResource]
    rfl
  · intro h c hc hsource
    obtain ⟨hmem, htarget⟩ := mem_resourceAttributes.1 hc
    exact h ⟨c, hmem, htarget, by simpa using hsource⟩

/-- The first competing correspondence that is listed is the least one. -/
theorem competes_of_find?_eq_some {explicit : Correspondence}
    (h : (rule.resourceAttributes.find? fun c => !c.source.isResource) = some explicit) :
    rule.Competes explicit ∧
      ∀ c, rule.Competes c → c = explicit ∨ canonicalCmp explicit c = .lt := by
  obtain ⟨hsource, before, after, hlist, hbefore⟩ := List.find?_eq_some_iff_append.1 h
  have hexplicit : explicit ∈ rule.resourceAttributes := List.mem_of_find?_eq_some h
  obtain ⟨hmem, htarget⟩ := mem_resourceAttributes.1 hexplicit
  refine ⟨⟨hmem, htarget, by simpa using hsource⟩, fun c hc => ?_⟩
  have hascending : rule.resourceAttributes.Pairwise fun c d => canonicalCmp c d = .lt :=
    rule.canonicalAttributes_ascending.filter _
  have hlisted : c ∈ rule.resourceAttributes :=
    mem_resourceAttributes.2 ⟨hc.mem, hc.target_isResource⟩
  rw [hlist] at hascending hlisted
  rw [List.mem_append, List.mem_cons] at hlisted
  rcases hlisted with hlisted | rfl | hlisted
  · -- before the first competing one there is none
    have hskipped := hbefore c hlisted
    rw [hc.source_isResource] at hskipped
    cases hskipped
  · exact Or.inl rfl
  · exact Or.inr ((List.pairwise_cons.1 (List.pairwise_append.1 hascending).2.1).1 c hlisted)

/-- Where nothing competes, the correspondences that fill `rdf:resource` copy it as it is. -/
theorem isEmpty_resourceAttributes_of_not_competes (h : ¬∃ c, rule.Competes c) :
    (!rule.resourceAttributes.isEmpty) = rule.copiesResource := by
  rw [Bool.eq_iff_iff, copiesResource, List.any_eq_true, Bool.not_eq_true',
    List.isEmpty_eq_false_iff_exists_mem]
  constructor
  · rintro ⟨c, hc⟩
    obtain ⟨hmem, htarget⟩ := mem_resourceAttributes.1 hc
    cases hsource : c.source.isResource with
    | true => exact ⟨c, hmem, Bool.and_eq_true_iff.2 ⟨hsource, htarget⟩⟩
    | false => exact absurd ⟨c, hmem, htarget, hsource⟩ h
  · rintro ⟨c, hmem, hc⟩
    exact ⟨c, mem_resourceAttributes.2 ⟨hmem, (Bool.and_eq_true_iff.1 hc).2⟩⟩

/-- What becomes of the fallback is exactly said: it has no place unless one relationship is taken
to another, it defers to the least competing correspondence, and it is emitted where none competes,
guarded if `rdf:resource` is copied as it is. -/
structure FallbackExact (rule : Rule) : Prop where
  notApplicable_iff : rule.fallback = .notApplicable ↔ ¬rule.Relates
  exists_deferred_iff : (∃ explicit, rule.fallback = .deferred explicit) ↔
    rule.Relates ∧ ∃ c, rule.Competes c
  deferred_least : ∀ explicit, rule.fallback = .deferred explicit →
    rule.Competes explicit ∧
      ∀ c, rule.Competes c → c = explicit ∨ canonicalCmp explicit c = .lt
  emitted_iff : ∀ guarded, rule.fallback = .emitted guarded ↔
    rule.Relates ∧ (¬∃ c, rule.Competes c) ∧ guarded = rule.copiesResource

theorem fallbackExact (rule : Rule) : rule.FallbackExact := by
  by_cases hrelates : rule.Relates
  · have htag : (rule.tag.source.isRelationship && rule.tag.target.isRelationship) = true :=
      Bool.and_eq_true_iff.2 hrelates
    cases hfind : rule.resourceAttributes.find? fun c => !c.source.isResource with
    | none =>
      have hfree := find?_eq_none_iff_competes.1 hfind
      have hfallback : rule.fallback = .emitted rule.copiesResource := by
        rw [fallback, if_pos htag, hfind, isEmpty_resourceAttributes_of_not_competes hfree]
      constructor
      all_goals simp [hfallback, hrelates, hfree, eq_comm]
    | some explicit =>
      obtain ⟨hcompetes, hleast⟩ := competes_of_find?_eq_some hfind
      have hfallback : rule.fallback = .deferred explicit := by
        rw [fallback, if_pos htag, hfind]
      constructor
      · simp [hfallback, hrelates]
      · simp only [hfallback, hrelates, true_and]
        exact ⟨fun _ => ⟨explicit, hcompetes⟩, fun _ => ⟨explicit, rfl⟩⟩
      · rintro other hother
        rw [hfallback] at hother
        cases hother
        exact ⟨hcompetes, hleast⟩
      · intro guarded
        rw [hfallback]
        constructor
        · rintro ⟨⟩
        · rintro ⟨-, hfree, -⟩
          exact absurd ⟨explicit, hcompetes⟩ hfree
  · have htag : (rule.tag.source.isRelationship && rule.tag.target.isRelationship) ≠ true :=
      fun h => hrelates (Bool.and_eq_true_iff.1 h)
    have hfallback : rule.fallback = .notApplicable := by rw [fallback, if_neg htag]
    constructor
    all_goals simp [hfallback, hrelates]

theorem not_competes_of_isEmitted (h : rule.fallback.isEmitted = true) :
    ¬∃ c, rule.Competes c := by
  rintro ⟨c, hc⟩
  have hsource := (isEmitted_iff.1 h).2 c hc.mem hc.target_isResource
  rw [hc.source_isResource] at hsource
  cases hsource

/-- An emitted fallback stands beside no other correspondence that fills `rdf:resource` than the one
that copies it as it is. -/
theorem resourceAttributes_of_isEmitted (h : rule.fallback.isEmitted = true) :
    (rule.resourceAttributes = [] ∧ rule.copiesResource = false) ∨
      ∃ c, rule.resourceAttributes = [c] ∧ rule.copiesResource = true ∧
        c.source.expanded = ⟨rdfUri, "resource"⟩ ∧ c.target.expanded = ⟨rdfUri, "resource"⟩ := by
  have hcopies := isEmpty_resourceAttributes_of_not_competes (not_competes_of_isEmitted h)
  have hresource : ∀ c ∈ rule.resourceAttributes,
      c.source.expanded = ⟨rdfUri, "resource"⟩ ∧ c.target.expanded = ⟨rdfUri, "resource"⟩ := by
    intro c hc
    obtain ⟨hmem, htarget⟩ := mem_resourceAttributes.1 hc
    have hsource := (isEmitted_iff.1 h).2 c hmem htarget
    exact ⟨Element.isResource_iff.1 hsource, Element.isResource_iff.1 htarget⟩
  cases hlist : rule.resourceAttributes with
  | nil =>
    rw [hlist] at hcopies
    exact Or.inl ⟨rfl, hcopies.symm⟩
  | cons c rest =>
    rw [hlist] at hcopies hresource
    have hrest : rest = [] := by
      -- two of them would say the same
      refine List.eq_nil_iff_forall_not_mem.2 fun d hd => ?_
      have happart : rule.resourceAttributes.Pairwise fun c d => Correspondence.cmp c d ≠ .eq :=
        rule.canonicalAttributes_apart.filter _
      rw [hlist] at happart
      refine (List.pairwise_cons.1 happart).1 d hd (Correspondence.cmp_eq_of_expanded ?_)
      obtain ⟨hsource, htarget⟩ := hresource c List.mem_cons_self
      obtain ⟨hsource', htarget'⟩ := hresource d (List.mem_cons_of_mem _ hd)
      rw [Correspondence.expanded, Correspondence.expanded, hsource, htarget, hsource', htarget']
    exact Or.inr ⟨c, by rw [hrest], hcopies.symm, hresource c List.mem_cons_self⟩

end Rule

end Concordance
