import Concordance.Proofs.Mapping.Building

/-!
# The child rules of a crosswalk

Two rules say the same if they take the same tag to the same tag, copy the same set of attributes
and agree on the text, whatever the prefixes of their names.  However a crosswalk is put together,
its child rules are those that were passed, in their order, without those that say what an earlier
one says.
-/

namespace Concordance

open Std

namespace Rule

/-! ## Saying the same -/

/-- The rules say the same: one tag becomes one tag, with one set of attributes, with or without its
text. -/
structure SaysSame (a b : Rule) : Prop where
  tag_eq : a.tag.expanded = b.tag.expanded
  attributes_iff : ∀ names, (∃ c ∈ a.attributes.toList, c.expanded = names) ↔
    ∃ c ∈ b.attributes.toList, c.expanded = names
  keepsText_eq : a.keepsText = b.keepsText

/-- The order of correspondences, as an order of what they say. -/
def sidesCmp : ExpandedName × ExpandedName → ExpandedName × ExpandedName → Ordering :=
  compareLex (compareOn Prod.fst) (compareOn Prod.snd)

instance : TransCmp sidesCmp :=
  inferInstanceAs (TransCmp
    (compareLex (compareOn (Prod.fst : ExpandedName × ExpandedName → ExpandedName))
      (compareOn Prod.snd)))

/-- What the attributes of the rule say, in the order of the set. -/
def sides (rule : Rule) : Ascending sidesCmp :=
  ⟨rule.attributes.toList.map Correspondence.expanded,
    List.pairwise_map.2 rule.attributes.ascending⟩

/-- Rules are compared by what they say. -/
theorem expanded_eq_iff {a b : Rule} : a.expanded = b.expanded ↔ a.SaysSame b := by
  simp only [expanded, Prod.mk.injEq]
  constructor
  · rintro ⟨htag, hattributes, htext⟩
    refine ⟨htag, ?_, htext⟩
    intro names
    rw [← List.mem_map, hattributes, List.mem_map]
  · intro h
    have hsides : a.sides = b.sides := by
      apply Ascending.eq_of_mem_iff
      intro names
      exact (List.mem_map.trans (h.attributes_iff names)).trans List.mem_map.symm
    exact ⟨h.tag_eq, congrArg Ascending.toList hsides, h.keepsText_eq⟩

instance (a b : Rule) : Decidable (a.SaysSame b) :=
  decidable_of_iff _ expanded_eq_iff

theorem decide_saysSame (a b : Rule) : decide (a.SaysSame b) = (a.expanded == b.expanded) := by
  rw [Bool.beq_eq_decide_eq, decide_eq_decide, expanded_eq_iff]

/-! ## The first of those that say the same -/

/-- The rules without those that say what an earlier one says. -/
def firsts (rules : List Rule) : List Rule :=
  rules.eraseDupsBy fun a b => a.SaysSame b

/-- The rules that say what none of those before says. -/
def unsaid (before rules : List Rule) : List Rule :=
  rules.filter fun rule => !before.any fun other => other.expanded == rule.expanded

theorem unsaid_nil (rules : List Rule) : unsaid [] rules = rules := by
  simp [unsaid]

theorem unsaid_append (before between rules : List Rule) :
    unsaid (before ++ between) rules = unsaid between (unsaid before rules) := by
  rw [unsaid, unsaid, unsaid, List.filter_filter]
  apply List.filter_congr
  intro rule _
  rw [List.any_append, Bool.not_or, Bool.and_comm]

theorem firsts_cons (rule : Rule) (rest : List Rule) :
    firsts (rule :: rest) = rule :: firsts (unsaid [rule] rest) := by
  rw [firsts, List.eraseDupsBy_cons, firsts, unsaid]
  congr 2
  apply List.filter_congr
  intro other _
  rw [List.any_cons, List.any_nil, Bool.or_false, decide_saysSame, BEq.comm]
  cases rule.expanded == other.expanded <;> rfl

end Rule

namespace Crosswalk

/-! ## Calls -/

/-- A call by which a crosswalk is put together. -/
inductive Call where
  | child (rule : Rule)
  | children (rules : List Rule)
  | documentId (element : Element)

/-- The child rules that a call passes. -/
def Call.passed : Call → List Rule
  | .child rule => [rule]
  | .children rules => rules
  | .documentId _ => []

def afterCall (crosswalk : Crosswalk) : Call → Crosswalk
  | .child rule => crosswalk.withChild rule
  | .children rules => crosswalk.withChildren rules
  | .documentId element => crosswalk.withDocumentId element

/-- The crosswalk after calls one after another. -/
def afterCalls (crosswalk : Crosswalk) (calls : List Call) : Crosswalk :=
  calls.foldl afterCall crosswalk

theorem withChildren_append (crosswalk : Crosswalk) (first second : List Rule) :
    crosswalk.withChildren (first ++ second) =
      (crosswalk.withChildren first).withChildren second :=
  List.foldl_append

/-- Of the passed child rules those are kept that say what neither a child rule before nor an
earlier passed one says. -/
theorem children_withChildren (crosswalk : Crosswalk) (rules : List Rule) :
    (crosswalk.withChildren rules).children =
      crosswalk.children ++ Rule.firsts (Rule.unsaid crosswalk.children rules) := by
  induction rules generalizing crosswalk with
  | nil => exact (List.append_nil _).symm
  | cons rule rest ih =>
    have hrest : (crosswalk.withChildren (rule :: rest)).children =
        ((crosswalk.withChild rule).withChildren rest).children := rfl
    rw [hrest, ih, withChild, Rule.unsaid, Rule.unsaid, List.filter_cons]
    by_cases hsaid : (crosswalk.children.any fun other => other.expanded == rule.expanded) = true
    · rw [if_pos hsaid, hsaid]
      rfl
    · rw [if_neg hsaid, Bool.eq_false_iff.2 hsaid, Bool.not_false, if_pos rfl,
        Rule.firsts_cons, ← Rule.unsaid, ← Rule.unsaid, Rule.unsaid_append, List.append_assoc,
        List.singleton_append]

theorem withChild_of_said {crosswalk : Crosswalk} {rule : Rule}
    (h : ∃ other ∈ crosswalk.children, other.expanded = rule.expanded) :
    crosswalk.withChild rule = crosswalk := by
  rw [withChild, if_pos]
  simpa using h

theorem exists_said_withChild (crosswalk : Crosswalk) (rule : Rule) :
    ∃ other ∈ (crosswalk.withChild rule).children, other.expanded = rule.expanded := by
  by_cases h : ∃ other ∈ crosswalk.children, other.expanded = rule.expanded
  · rw [withChild_of_said h]
    exact h
  · rw [withChild, if_neg (by simpa using h)]
    exact ⟨rule, List.mem_append_right _ List.mem_cons_self, rfl⟩

/-- What was passed is said by a child rule afterwards. -/
theorem exists_said_of_mem {rules : List Rule} (crosswalk : Crosswalk) {rule : Rule}
    (h : rule ∈ rules) :
    ∃ other ∈ (crosswalk.withChildren rules).children, other.expanded = rule.expanded := by
  obtain ⟨before, after, rfl⟩ := List.append_of_mem h
  obtain ⟨other, hother, hsame⟩ :=
    exists_said_withChild (crosswalk.withChildren before) rule
  refine ⟨other, ?_, hsame⟩
  have hafter : crosswalk.withChildren (before ++ rule :: after) =
      ((crosswalk.withChildren before).withChild rule).withChildren after :=
    withChildren_append crosswalk before (rule :: after)
  rw [hafter, children_withChildren]
  exact List.mem_append_left _ hother

/-- A child rule that is passed again changes nothing. -/
theorem withChildren_repeated (crosswalk : Crosswalk) {before : List Rule} {rule : Rule}
    (h : rule ∈ before) (after : List Rule) :
    crosswalk.withChildren (before ++ rule :: after) =
      crosswalk.withChildren (before ++ after) := by
  have hsaid := withChild_of_said (exists_said_of_mem crosswalk h)
  calc crosswalk.withChildren (before ++ rule :: after)
      = ((crosswalk.withChildren before).withChild rule).withChildren after :=
        withChildren_append crosswalk before (rule :: after)
    _ = (crosswalk.withChildren before).withChildren after := by rw [hsaid]
    _ = crosswalk.withChildren (before ++ after) := (withChildren_append crosswalk _ _).symm

theorem children_afterCall (crosswalk : Crosswalk) (call : Call) :
    (crosswalk.afterCall call).children = (crosswalk.withChildren call.passed).children := by
  cases call <;> rfl

/-- Only the passed child rules and their order count, and not by which calls they were passed. -/
theorem children_afterCalls (crosswalk : Crosswalk) (calls : List Call) :
    (crosswalk.afterCalls calls).children =
      (crosswalk.withChildren (calls.flatMap Call.passed)).children := by
  induction calls generalizing crosswalk with
  | nil => rfl
  | cons call rest ih =>
    have hrest : (crosswalk.afterCalls (call :: rest)).children =
        ((crosswalk.afterCall call).afterCalls rest).children := rfl
    rw [hrest, ih, children_withChildren, children_afterCall, List.flatMap_cons,
      withChildren_append, children_withChildren (crosswalk.withChildren call.passed)]

theorem parent_afterCalls (crosswalk : Crosswalk) (calls : List Call) :
    (crosswalk.afterCalls calls).parent = crosswalk.parent := by
  induction calls generalizing crosswalk with
  | nil => rfl
  | cons call rest ih =>
    have hparent : (crosswalk.afterCall call).parent = crosswalk.parent := by
      cases call with
      | child rule => exact crosswalk.parent_withChildren [rule]
      | children rules => exact crosswalk.parent_withChildren rules
      | documentId element => rfl
    exact (ih (crosswalk.afterCall call)).trans hparent

end Crosswalk

end Concordance
