import Concordance.Proofs.Xml.ReadBack

/-!
# White space of the layout

A document that is read shows the white space with which it was laid out: texts of a line break
followed by spaces.  Adjacent texts are always read as one, so a layout that leaks into a text of
the document does not disappear with them but changes that text.
-/

namespace Concordance.Xml

/-- Whether a text is a line break followed by spaces. -/
def isLayout (text : String) : Bool :=
  match text.toList with
  | '\n' :: spaces => spaces.all (· == ' ')
  | _ => false

theorem isLayout_margin (depth : Nat) : isLayout (Layout.margin depth) = true := by
  have htext : (Layout.margin depth).toList = '\n' :: List.replicate (2 * depth) ' ' := by
    rw [Layout.margin, String.toList_append, String.toList_ofList, String.toList_ofList]
    rfl
  rw [isLayout, htext]
  simp

namespace Node

mutual

/-- The tree without the texts that are white space of the layout. -/
def tidy : Node → Node
  | .element name attributes content => .element name attributes (tidyAll content)
  | .comment body => .comment body
  | .text content => .text content

/-- Items without the texts among them and inside them that are white space of the layout. -/
def tidyAll : List Node → List Node
  | [] => []
  | .text content :: rest =>
    if isLayout content then tidyAll rest else .text content :: tidyAll rest
  | item :: rest => tidy item :: tidyAll rest

end

theorem tidyAll_append (first second : List Node) :
    tidyAll (first ++ second) = tidyAll first ++ tidyAll second := by
  induction first with
  | nil => rfl
  | cons item rest ih =>
    cases item with
    | element => simp [tidyAll, ih]
    | comment => simp [tidyAll, ih]
    | text content => by_cases h : isLayout content <;> simp [tidyAll, ih, h]

end Node

namespace Markup

mutual

/-- The item as a tree that has no white space of the layout. -/
def tidied : Markup → Node
  | .element name attributes content => .element name attributes (tidiedAll content)
  | .empty name attributes => .element name attributes []
  | .comment body => .comment (commentBody body)
  | .text content => .text content

/-- Items as trees, without the texts that would be taken for white space of the layout. -/
def tidiedAll : List Markup → List Node
  | [] => []
  | .text content :: rest =>
    if isLayout content then tidiedAll rest else .text content :: tidiedAll rest
  | item :: rest => tidied item :: tidiedAll rest

end

theorem tidiedAll_append (first second : List Markup) :
    tidiedAll (first ++ second) = tidiedAll first ++ tidiedAll second := by
  induction first with
  | nil => rfl
  | cons item rest ih =>
    cases item with
    | element => simp [tidiedAll, ih]
    | empty => simp [tidiedAll, ih]
    | comment => simp [tidiedAll, ih]
    | text content => by_cases h : isLayout content <;> simp [tidiedAll, ih, h]

theorem tidiedAll_flatMap {α : Type} (f : α → List Markup) (items : List α) :
    tidiedAll (items.flatMap f) = items.flatMap fun a => tidiedAll (f a) := by
  induction items with
  | nil => rfl
  | cons a rest ih => rw [List.flatMap_cons, tidiedAll_append, ih, List.flatMap_cons]

theorem tidyAll_space (depth : Nat) (breaks : Bool) : Node.tidyAll (space depth breaks) = [] := by
  cases breaks with
  | true => simp [space, Node.tidyAll, isLayout_margin]
  | false => rfl

mutual

theorem tidy_node (item : Markup) (depth : Nat) : (item.node depth).tidy = item.tidied := by
  cases item with
  | element name attributes content =>
    rw [node, Node.tidy, tidyAll_nodes content, tidied]
  | empty name attributes => rfl
  | comment body => rfl
  | text content => rfl

/-- The layout around and inside the items is all that is taken away. -/
theorem tidyAll_nodes (items : List Markup) (depth : Nat) (breaks : Bool) :
    Node.tidyAll (nodes depth breaks items) = tidiedAll items := by
  cases items with
  | nil => rw [nodes, tidyAll_space, tidiedAll]
  | cons item rest =>
    have ih := tidyAll_nodes rest depth (!item.isText)
    rw [nodes, Node.tidyAll_append, tidyAll_space, List.nil_append]
    cases item with
    | element name attributes content =>
      have hitem := tidy_node (.element name attributes content) (depth + 1)
      rw [node] at hitem ⊢
      rw [Node.tidyAll, hitem, ih, tidiedAll]
      all_goals simp
    | empty name attributes =>
      rw [node, Node.tidyAll, ih, tidiedAll]
      all_goals simp [Node.tidy, Node.tidyAll, tidied]
    | comment body =>
      rw [node, Node.tidyAll, ih, tidiedAll]
      all_goals simp [Node.tidy, tidied]
    | text content => rw [node, Node.tidyAll, ih, tidiedAll]

end

end Markup

end Concordance.Xml
