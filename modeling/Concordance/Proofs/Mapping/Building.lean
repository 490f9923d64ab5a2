import Concordance.Mapping.Crosswalk
import Concordance.Proofs.Order.Lookup

/-!
# Putting crosswalks together

Rules and crosswalks are put together step by step.  What is put together so holds no child rule
twice, and a set of attributes or a list of children that holds nothing twice is put together again
from its members, the set from its members in any order.
-/

namespace Concordance

open Std

namespace Rule

theorem mem_of_mem_withAttributes {attributes : List Correspondence} {rule : Rule}
    {c : Correspondence} (h : c ∈ (rule.withAttributes attributes).attributes.toList) :
    c ∈ rule.attributes.toList ∨ c ∈ attributes := by
  induction attributes generalizing rule with
  | nil => exact Or.inl h
  | cons first rest ih =>
    rcases ih h with hfirst | hrest
    · rcases mem_of_mem_insertNew hfirst with rfl | hmem
      · exact Or.inr List.mem_cons_self
      · exact Or.inl hmem
    · exact Or.inr (List.mem_cons_of_mem first hrest)

/-- Attribute correspondences that are all new and different are all there afterwards. -/
theorem mem_withAttributes_iff {attributes : List Correspondence} {rule : Rule}
    (hnew : ∀ c ∈ attributes, ∀ d ∈ rule.attributes.toList, Correspondence.cmp c d ≠ .eq)
    (hapart : attributes.Pairwise fun c d => Correspondence.cmp c d ≠ .eq) {c : Correspondence} :
    c ∈ (rule.withAttributes attributes).attributes.toList ↔
      c ∈ rule.attributes.toList ∨ c ∈ attributes := by
  induction attributes generalizing rule with
  | nil => simp [withAttributes]
  | cons first rest ih =>
    obtain ⟨hfirst, hrest⟩ := List.forall_mem_cons.1 hnew
    obtain ⟨hdifferent, hapart⟩ := List.pairwise_cons.1 hapart
    have hmem : ∀ d, d ∈ (rule.withAttribute first).attributes.toList ↔
        d = first ∨ d ∈ rule.attributes.toList := fun d => mem_insertNew_iff hfirst
    have hnext : ∀ c ∈ rest, ∀ d ∈ (rule.withAttribute first).attributes.toList,
        Correspondence.cmp c d ≠ .eq := by
      intro c hc d hd
      rcases (hmem d).1 hd with rfl | hd
      · exact fun heq => hdifferent c hc (OrientedCmp.eq_symm heq)
      · exact hrest c hc d hd
    calc c ∈ ((rule.withAttribute first).withAttributes rest).attributes.toList
        ↔ c ∈ (rule.withAttribute first).attributes.toList ∨ c ∈ rest := ih hnext hapart
      _ ↔ c ∈ rule.attributes.toList ∨ c ∈ first :: rest := by
        rw [hmem, List.mem_cons, or_assoc, or_left_comm]

theorem tag_withAttributes (rule : Rule) (attributes : List Correspondence) :
    (rule.withAttributes attributes).tag = rule.tag := by
  induction attributes generalizing rule with
  | nil => rfl
  | cons first rest ih => exact ih (rule.withAttribute first)

/-- A rule is put together from its attribute correspondences in any order. -/
theorem withAttributes_of_perm {rule : Rule} {listed : List Correspondence}
    (h : listed.Perm rule.attributes.toList) :
    ((ofTag rule.tag).withAttributes listed).withText rule.keepsText = rule := by
  have hapart : listed.Pairwise fun c d => Correspondence.cmp c d ≠ .eq := by
    have hascending : rule.attributes.toList.Pairwise fun c d => Correspondence.cmp c d ≠ .eq :=
      rule.attributes.ascending.imp fun hlt heq => by simp [hlt] at heq
    exact h.symm.pairwise hascending fun hne heq => hne (OrientedCmp.eq_symm heq)
  have hnone : ∀ c ∈ listed, ∀ d ∈ (ofTag rule.tag).attributes.toList,
      Correspondence.cmp c d ≠ .eq := by
    simp [ofTag, Ascending.empty]
  have hattributes : ((ofTag rule.tag).withAttributes listed).attributes = rule.attributes := by
    apply Ascending.eq_of_mem_iff
    intro c
    rw [mem_withAttributes_iff hnone hapart, h.mem_iff]
    simp [ofTag, Ascending.empty]
  rw [withText, tag_withAttributes, hattributes]
  rfl

end Rule

namespace Crosswalk

theorem parent_withChildren (crosswalk : Crosswalk) (children : List Rule) :
    (crosswalk.withChildren children).parent = crosswalk.parent := by
  induction children generalizing crosswalk with
  | nil => rfl
  | cons child rest ih =>
    have hparent : (crosswalk.withChild child).parent = crosswalk.parent := by
      rw [withChild]
      split <;> rfl
    exact (ih (crosswalk.withChild child)).trans hparent

theorem mem_of_mem_withChildren {children : List Rule} {crosswalk : Crosswalk} {rule : Rule}
    (h : rule ∈ (crosswalk.withChildren children).children) :
    rule ∈ crosswalk.children ∨ rule ∈ children := by
  induction children generalizing crosswalk with
  | nil => exact Or.inl h
  | cons child rest ih =>
    rcases ih h with hchild | hrest
    · rw [withChild] at hchild
      split at hchild
      next => exact Or.inl hchild
      next =>
        rcases List.mem_append.1 hchild with hmem | hmem
        · exact Or.inl hmem
        · rw [List.mem_singleton.1 hmem]
          exact Or.inr List.mem_cons_self
    · exact Or.inr (List.mem_cons_of_mem child hrest)

/-- Crosswalks that are put together step by step. -/
inductive Built : Crosswalk → Prop where
  | ofParent (parent : Rule) : Built (ofParent parent)
  | withChild {crosswalk : Crosswalk} (h : Built crosswalk) (child : Rule) :
    Built (crosswalk.withChild child)
  | withDocumentId {crosswalk : Crosswalk} (h : Built crosswalk) (documentId : Element) :
    Built (crosswalk.withDocumentId documentId)

/-- Of two child rules that say the same only the first is kept. -/
theorem Built.pairwise {crosswalk : Crosswalk} (h : crosswalk.Built) :
    crosswalk.children.Pairwise fun a b => a.expanded ≠ b.expanded := by
  induction h with
  | ofParent parent => exact .nil
  | withDocumentId _ documentId ih => exact ih
  | @withChild crosswalk _ child ih =>
    rw [Crosswalk.withChild]
    split
    next => exact ih
    next hnone =>
      have hnew : ∀ other ∈ crosswalk.children, other.expanded ≠ child.expanded := by
        simpa using hnone
      exact List.pairwise_append.2 ⟨ih, List.pairwise_singleton _ _,
        fun other hother last hlast => List.mem_singleton.1 hlast ▸ hnew other hother⟩

/-- Child rules that all say something else are all kept. -/
theorem withChildren_of_pairwise {children : List Rule} {crosswalk : Crosswalk}
    (h : (crosswalk.children ++ children).Pairwise fun a b => a.expanded ≠ b.expanded) :
    crosswalk.withChildren children =
      { crosswalk with children := crosswalk.children ++ children } := by
  induction children generalizing crosswalk with
  | nil => simp [withChildren]
  | cons child rest ih =>
    have hnew : ∀ other ∈ crosswalk.children, other.expanded ≠ child.expanded :=
      fun other hother => (List.pairwise_append.1 h).2.2 other hother child List.mem_cons_self
    have hkept : crosswalk.withChild child =
        { crosswalk with children := crosswalk.children ++ [child] } := by
      rw [withChild, if_neg (by simpa using hnew)]
    have happend : ((crosswalk.withChild child).children ++ rest).Pairwise
        fun a b => a.expanded ≠ b.expanded := by
      rw [hkept]
      simpa using h
    calc crosswalk.withChildren (child :: rest)
        = (crosswalk.withChild child).withChildren rest := rfl
      _ = { crosswalk with children := crosswalk.children ++ child :: rest } := by
        rw [ih happend, hkept]
        simp

end Crosswalk

end Concordance
