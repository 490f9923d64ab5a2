import Concordance.Proofs.Mapping.ChildList
import Concordance.Proofs.Stylesheet.TakenApart
import Concordance.Proofs.Xml.Comment
import Mathlib.Data.List.Infix

/-!
# Child rules in a stylesheet

In the element that a stylesheet makes for a record, the copies of the attributes come first.
After them each child rule has one block, which its comment announces and which extends to the next
such comment.  The blocks are those of the child rules in their order, which are those that were
passed when the crosswalk was put together, without the ones that an earlier one says.
-/

namespace Concordance

open Xml (Node)

/-! ## The record in a stylesheet -/

namespace Outline

/-- The element that a stylesheet makes for a record: what its template makes of each record with
the identifier. -/
def record? : Node → Option Node
  | .element _ _ [_, _, .element _ _ [_, .element _ _ [.element _ _ [record]]]] => some record
  | _ => none

theorem record?_outline (crosswalk : Crosswalk) (container : Option Element)
    (documentId : Element) :
    record? (crosswalk.outline container documentId) =
      some (.element crosswalk.parent.tag.target.qualifiedName []
        (recordContent (crosswalk.declarations container) crosswalk)) := rfl

/-- Whether an item is the comment that announces the block of a child rule. -/
def announces : Node → Bool
  | .comment body => " Tag mapping: ".toList.isPrefixOf body.toList
  | _ => false

/-- What stands before the first block of a child rule. -/
def beforeBlocks (content : List Node) : List Node :=
  content.takeWhile fun item => !announces item

/-- The blocks of child rules: each comment that announces one, with all up to the next. -/
def tagBlocks : List Node → List (List Node)
  | [] => []
  | item :: rest =>
    if announces item then (item :: beforeBlocks rest) :: tagBlocks rest else tagBlocks rest

variable {declared : Declarations}

theorem announces_remark {front : String} (hfront : '-' ∉ front.toList) (text : String)
    (hlength : " Tag mapping: ".toList.length ≤ front.toList.length) :
    announces (remark (front ++ text)) = " Tag mapping: ".toList.isPrefixOf front.toList := by
  rw [remark, Xml.commentBody_append hfront, announces, String.toList_append, Bool.eq_iff_iff,
    List.isPrefixOf_iff_prefix, List.isPrefixOf_iff_prefix]
  exact List.isPrefix_append_of_length hlength

/-- What is not the comment of a child rule announces none: neither the comments of attributes nor
what they stand before. -/
theorem not_announces_of_mem_copies {rule : Rule} :
    ∀ item ∈ copies declared rule, announces item = false := by
  intro item hitem
  obtain ⟨c, -, hitem⟩ := List.mem_flatMap.1 hitem
  rcases List.mem_pair.1 hitem with rfl | rfl
  · rw [String.append_assoc]
    exact announces_remark (by decide) _ (by decide)
  · rfl

theorem beforeBlocks_append {front : List Node} (hfront : ∀ item ∈ front, announces item = false)
    (rest : List Node) : beforeBlocks (front ++ rest) = front ++ beforeBlocks rest := by
  apply List.takeWhile_append_of_pos
  intro item hitem
  rw [hfront item hitem]
  rfl

theorem tagBlocks_append {front : List Node} (hfront : ∀ item ∈ front, announces item = false)
    (rest : List Node) : tagBlocks (front ++ rest) = tagBlocks rest := by
  induction front with
  | nil => rfl
  | cons item others ih =>
    obtain ⟨hitem, hothers⟩ := List.forall_mem_cons.1 hfront
    rw [List.cons_append, tagBlocks, hitem, ih hothers]
    rfl

/-- The block of a child rule begins with the comment that announces it, and what follows the
comment announces nothing. -/
theorem exists_child_eq (declared : Declarations) (rule : Rule) :
    ∃ comment loop, child declared rule = [comment, loop] ∧ announces comment = true ∧
      announces loop = false := by
  refine ⟨_, _, rfl, ?_, rfl⟩
  rw [String.append_assoc, announces_remark (by decide) _ (by decide)]
  decide

theorem beforeBlocks_flatMap_child (rules : List Rule) :
    beforeBlocks (rules.flatMap (child declared)) = [] := by
  cases rules with
  | nil => rfl
  | cons rule rest =>
    obtain ⟨comment, loop, hchild, hcomment, -⟩ := exists_child_eq declared rule
    rw [List.flatMap_cons, hchild, List.cons_append, beforeBlocks, List.takeWhile_cons_of_neg]
    rw [hcomment]
    decide

/-- Child rules have one block each, in their order. -/
theorem tagBlocks_flatMap_child (rules : List Rule) :
    tagBlocks (rules.flatMap (child declared)) = rules.map (child declared) := by
  induction rules with
  | nil => rfl
  | cons rule rest ih =>
    obtain ⟨comment, loop, hchild, hcomment, hloop⟩ := exists_child_eq declared rule
    have hnone : ∀ item ∈ [loop], announces item = false :=
      List.forall_mem_singleton.2 hloop
    have hblock : tagBlocks (comment :: ([loop] ++ rest.flatMap (child declared))) =
        (comment :: beforeBlocks ([loop] ++ rest.flatMap (child declared))) ::
          tagBlocks ([loop] ++ rest.flatMap (child declared)) := by
      rw [tagBlocks, if_pos hcomment]
    rw [List.flatMap_cons, List.map_cons, hchild, List.cons_append, hblock,
      beforeBlocks_append hnone, beforeBlocks_flatMap_child, tagBlocks_append hnone, ih,
      List.append_nil]

theorem beforeBlocks_recordContent (crosswalk : Crosswalk) :
    beforeBlocks (recordContent declared crosswalk) = copies declared crosswalk.parent := by
  rw [recordContent, beforeBlocks_append not_announces_of_mem_copies, beforeBlocks_flatMap_child,
    List.append_nil]

theorem tagBlocks_recordContent (crosswalk : Crosswalk) :
    tagBlocks (recordContent declared crosswalk) = crosswalk.children.map (child declared) := by
  rw [recordContent, tagBlocks_append not_announces_of_mem_copies, tagBlocks_flatMap_child]

end Outline

/-! ## From the calls to the stylesheet -/

namespace Crosswalk

/-- The child rules of a crosswalk are those that were passed, without the ones that an earlier one
says, and a stylesheet has one block for each of them in this order, behind the attributes of the
record. -/
theorem children_reach_stylesheet (parent : Rule) (calls : List Call) :
    let crosswalk := (ofParent parent).afterCalls calls
    let rules := Rule.firsts (calls.flatMap Call.passed)
    crosswalk.children = rules ∧
      ∀ container text, crosswalk.stylesheet container = .ok text →
        ∃ root content, Xml.ofBytes? text.toUTF8 = some root ∧
          Outline.record? root.tidy = some (.element parent.tag.target.qualifiedName [] content) ∧
          Outline.beforeBlocks content =
            Outline.copies (crosswalk.declarations container) parent ∧
          Outline.tagBlocks content =
            rules.map (Outline.child (crosswalk.declarations container)) := by
  intro crosswalk rules
  have hchildren : crosswalk.children = rules := by
    rw [children_afterCalls, children_withChildren]
    exact congrArg Rule.firsts (Rule.unsaid_nil _)
  have hparent : crosswalk.parent = parent := parent_afterCalls _ calls
  refine ⟨hchildren, ?_⟩
  intro container text htext
  obtain ⟨documentId, root, -, hroot, htidy⟩ := stylesheet_reads_as_outline htext
  have hrecord := Outline.record?_outline crosswalk container documentId
  rw [← htidy, hparent] at hrecord
  refine ⟨root, _, hroot, hrecord, ?_, ?_⟩
  · rw [Outline.beforeBlocks_recordContent, hparent]
  · rw [Outline.tagBlocks_recordContent, hchildren]

/-- Of three child rules the second says under another prefix what the first one says, and the third
differs from the first one in its text. -/
theorem concepts_children_reach_stylesheet :
    let related : Rule := (Rule.ofTag ⟨⟨Namespace.skos, "related", by decide⟩,
      ⟨Namespace.skos, "broader", by decide⟩⟩).withText true
    let space : Namespace := ⟨"s", Namespace.skosUri, by decide, by decide⟩
    let renamed : Rule := (Rule.ofTag
      ⟨⟨space, "related", by decide⟩, ⟨space, "broader", by decide⟩⟩).withText true
    let crosswalk := (ofParent concepts.parent).afterCalls [.child related,
      .documentId ⟨Namespace.rdf, "about", by decide⟩, .children [renamed, related.withText false]]
    ∃ text root content, crosswalk.stylesheet none = .ok text ∧
      Xml.ofBytes? text.toUTF8 = some root ∧
      Outline.record? root.tidy =
        some (.element concepts.parent.tag.target.qualifiedName [] content) ∧
      Outline.tagBlocks content = [related, related.withText false].map
        (Outline.child (crosswalk.declarations none)) := by
  intro related space renamed crosswalk
  have hok : (crosswalk.stylesheet none).isOk = true := by decide +kernel
  obtain ⟨text, htext⟩ := exists_eq_ok_of_isOk hok
  obtain ⟨-, hreach⟩ := children_reach_stylesheet concepts.parent [.child related,
    .documentId ⟨Namespace.rdf, "about", by decide⟩, .children [renamed, related.withText false]]
  obtain ⟨root, content, hroot, hrecord, -, hblocks⟩ := hreach none text htext
  exact ⟨text, root, content, htext, hroot, hrecord, hblocks⟩

end Crosswalk

end Concordance
