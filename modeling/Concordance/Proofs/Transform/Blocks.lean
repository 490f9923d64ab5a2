import Concordance.Proofs.Transform.Reading

/-!
# The blocks of a stylesheet

A stylesheet is written block by block.  The block of a child rule, and inside it the block that
copies text, stand somewhere in the tree that is read from the bytes of the stylesheet, and each is
read as one instruction, with the prefixes that the root declares.
-/

namespace Concordance

open Namespace (xslUri)
open Xml (Markup Node)
open Transform

/-! ## What an element holds -/

namespace Xml

/-- The inner node is in the content of the outer one, at any depth. -/
inductive Node.Holds : Node → Node → Prop where
  | content {name : String} {attributes : Attributes} {content : List Node} {inner : Node}
      (hinner : inner ∈ content) : Holds (.element name attributes content) inner
  | deeper {name : String} {attributes : Attributes} {content : List Node} {item inner : Node}
      (hitem : item ∈ content) (hinner : Holds item inner) :
      Holds (.element name attributes content) inner

namespace Markup

/-- The inner item is in the content of the outer one, at any depth. -/
inductive Holds : Markup → Markup → Prop where
  | content {name : String} {attributes : Attributes} {content : List Markup} {inner : Markup}
      (hinner : inner ∈ content) : Holds (.element name attributes content) inner
  | deeper {name : String} {attributes : Attributes} {content : List Markup}
      {item inner : Markup} (hitem : item ∈ content) (hinner : Holds item inner) :
      Holds (.element name attributes content) inner

theorem node_mem_nodes {items : List Markup} {item : Markup} (h : item ∈ items) (depth : Nat)
    (breaks : Bool) : item.node (depth + 1) ∈ nodes depth breaks items := by
  induction items generalizing breaks with
  | nil => cases h
  | cons first rest ih =>
    rw [nodes, List.mem_append]
    rcases List.mem_cons.1 h with rfl | h
    · exact Or.inr List.mem_cons_self
    · exact Or.inr (List.mem_cons_of_mem _ (ih h _))

/-- What an item holds is held by the tree that is read back, at some depth. -/
theorem Holds.node {outer inner : Markup} (h : outer.Holds inner) (depth : Nat) :
    ∃ depth', (outer.node depth).Holds (inner.node depth') := by
  induction h generalizing depth with
  | content hinner => exact ⟨depth + 1, Node.Holds.content (node_mem_nodes hinner depth true)⟩
  | deeper hitem _ ih =>
    obtain ⟨depth', hholds⟩ := ih (depth + 1)
    exact ⟨depth', Node.Holds.deeper (node_mem_nodes hitem depth true) hholds⟩

theorem Holds.trans {outer middle inner : Markup} (h : outer.Holds middle)
    (hinner : middle.Holds inner) : outer.Holds inner := by
  induction h with
  | content hmiddle => exact .deeper hmiddle hinner
  | deeper hitem _ ih => exact .deeper hitem (ih hinner)

end Markup

end Xml

/-! ## Where the blocks stand -/

namespace Template

variable {template : Template} {rule : Rule} {item : Markup}

theorem root_holds_childBlock (hrule : rule ∈ template.crosswalk.children)
    (hitem : item ∈ template.childBlock rule) : template.root.Holds item := by
  have hrecord : item ∈ template.attributeBlocks template.crosswalk.parent ++
      template.crosswalk.children.flatMap template.childBlock :=
    List.mem_append_right _ (List.mem_flatMap.2 ⟨rule, hrule, hitem⟩)
  -- the root has the template last, and the template has the loop behind its comment
  refine .deeper (List.mem_cons_of_mem _ (List.mem_cons_of_mem _ List.mem_cons_self)) ?_
  refine .deeper (List.mem_cons_of_mem _ List.mem_cons_self) ?_
  exact .deeper List.mem_cons_self (.deeper List.mem_cons_self (.content hrecord))

theorem root_holds_textBlock (hrule : rule ∈ template.crosswalk.children)
    (htext : rule.keepsText = true) (hitem : item ∈ template.textBlock) :
    template.root.Holds item := by
  have hloop := root_holds_childBlock hrule (List.mem_cons_of_mem _ List.mem_cons_self)
  refine hloop.trans (.deeper List.mem_cons_self (.content (List.mem_append_right _ ?_)))
  rw [if_pos htext]
  exact hitem

end Template

/-! ## What the blocks are -/

/-- The node stands in the tree that is read from the text of a stylesheet. -/
def Emitted (text : String) (block : Node) : Prop :=
  ∃ root, Xml.ofBytes? text.toUTF8 = some root ∧ root.Holds block

/-- The instructions that a node of a stylesheet is read as, with the prefixes that the root of the
stylesheet declares. -/
def readIn? (text : String) (block : Node) : Option (List Instruction) :=
  (Xml.ofBytes? text.toUTF8).bind fun root => instruction? root.bindings ["targetId"] block

theorem Transform.Reads.instruction?_of_comment {bindings : List (String × String)}
    {parameters : List String} {body : String} {item : Markup} {program : List Instruction}
    (h : Reads bindings parameters [.comment body, item] program) (depth : Nat) :
    instruction? bindings parameters (item.node depth) = some program := by
  cases h with
  | @cons _ _ first rest hcomment hitems =>
    have hfirst : some [] = some first := hcomment 0
    cases hitems with
    | cons hitem hnil =>
      cases hnil
      rw [← Option.some.inj hfirst, List.nil_append, List.append_nil, hitem depth]

namespace Crosswalk

variable {crosswalk : Crosswalk} {container : Option Element} {text : String} {rule : Rule}

/-- An item behind a comment in the template of a crosswalk is read, from the bytes of the
stylesheet, as what it is set out as and as what it means. -/
theorem ReadsAs.exists_emitted {documentId : Element} {root : Node} {outline : List Node}
    (hreads : crosswalk.ReadsAs container documentId text root) {comment name : String}
    {attributes : Xml.Attributes} {content : List Markup}
    (hholds : (crosswalk.checkedTemplate container documentId).root.Holds
      (.element name attributes content))
    (htidied : Markup.tidiedAll [.comment comment, .element name attributes content] = outline) :
    ∃ block, Emitted text block ∧ (∃ remark, outline = [remark, block.tidy]) ∧
      ∀ program, crosswalk.Means container [.comment comment, .element name attributes content]
        program → readIn? text block = some program := by
  obtain ⟨depth, hblock⟩ := hholds.node 0
  rw [← hreads.root_eq] at hblock
  refine ⟨_, ⟨root, hreads.ofBytes?_eq, hblock⟩, ?_, fun program hmeans => ?_⟩
  · rw [Markup.tidy_node, ← htidied]
    exact ⟨_, rfl⟩
  · have hbindings : root.bindings = (crosswalk.declarations container).bindings := by
      rw [hreads.root_eq]
      exact (crosswalk.declarations container).filterMap_binding?
    rw [readIn?, hreads.ofBytes?_eq, Option.bind_some, hbindings]
    exact hmeans.instruction?_of_comment depth

/-- The block of a child rule stands in the stylesheet and is read as the instruction of the rule,
unless the rule makes elements of the stylesheet language. -/
theorem exists_childBlock (h : crosswalk.stylesheet container = .ok text)
    (hrule : rule ∈ crosswalk.children) :
    ∃ block, Emitted text block ∧
      (∃ remark, Outline.child (crosswalk.declarations container) rule = [remark, block.tidy]) ∧
        (rule.tag.target.space.uri ≠ xslUri → readIn? text block = some [Program.child rule]) := by
  obtain ⟨documentId, root, hreads⟩ := exists_readsAs h
  have htidied :
      Markup.tidiedAll ((crosswalk.checkedTemplate container documentId).childBlock rule) =
        Outline.child (crosswalk.declarations container) rule :=
    Template.tidiedAll_childBlock rfl hrule
  obtain ⟨block, hemitted, htidy, hread⟩ := hreads.exists_emitted
    (Template.root_holds_childBlock hrule (List.mem_cons_of_mem _ List.mem_cons_self)) htidied
  exact ⟨block, hemitted, htidy, fun htarget =>
    hread _ (means_childBlock hreads.check_eq documentId hrule htarget)⟩

/-- The block that copies text stands in the stylesheet and is read as an instruction. -/
theorem exists_textBlock (h : crosswalk.stylesheet container = .ok text)
    (hrule : rule ∈ crosswalk.children) (htext : rule.keepsText = true) :
    ∃ block, Emitted text block ∧
      (∃ remark, Outline.texts (crosswalk.declarations container) rule = [remark, block.tidy]) ∧
        readIn? text block = some (Program.texts rule) := by
  obtain ⟨documentId, root, hreads⟩ := exists_readsAs h
  have hxsl := crosswalk.byUri?_xslUri_isSome container
  have htidied : Markup.tidiedAll (crosswalk.checkedTemplate container documentId).textBlock =
      Outline.texts (crosswalk.declarations container) rule :=
    Template.tidiedAll_textBlock hxsl htext
  obtain ⟨block, hemitted, htidy, hread⟩ := hreads.exists_emitted
    (Template.root_holds_textBlock hrule htext (List.mem_cons_of_mem _ List.mem_cons_self)) htidied
  exact ⟨block, hemitted, htidy, hread _ (means_textBlock hreads.check_eq documentId htext)⟩

end Crosswalk

end Concordance
