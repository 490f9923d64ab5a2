import Concordance.Proofs.Transform.Direct
import Concordance.Proofs.Transform.Reading

/-!
# Running the program of a stylesheet

Carrying out the program of a crosswalk adds, block by block, what the crosswalk makes of the node
at hand: the copied attributes, the attribute that is taken from a nested concept, the text, and the
elements of the child rules.
-/

namespace Concordance

open Namespace (rdfUri skosUri)
open Xml (joined)

namespace Transform

variable {values : String → String}

/-! ## Instructions one after another -/

theorem runAll_append (first second : List Instruction) (position : Nat) (item : Item) :
    runAll values (first ++ second) position item =
      joined (runAll values first position item) (runAll values second position item) := by
  induction first with
  | nil => rw [List.nil_append, runAll, Xml.joined_nil]
  | cons instruction rest ih => rw [List.cons_append, runAll, runAll, ih, Xml.joined_assoc]

theorem runAll_singleton (instruction : Instruction) (position : Nat) (item : Item) :
    runAll values [instruction] position item = run values instruction position item := by
  rw [runAll, runAll]
  cases run values instruction position item with
  | none => rfl
  | some additions => simp [joined]

theorem runAll_map {α : Type} {f : α → Instruction} {g : α → List Addition} {position : Nat}
    {item : Item} (h : ∀ a, run values (f a) position item = some (g a)) (as : List α) :
    runAll values (as.map f) position item = some (as.flatMap g) := by
  induction as with
  | nil => rw [List.map_nil, runAll, List.flatMap_nil]
  | cons a rest ih =>
    rw [List.map_cons, runAll, h, ih, List.flatMap_cons]
    rfl

theorem eachOf_map {α : Type} {body : Nat → Item → Option (List Addition)} {f : α → Item}
    {g : α → List Addition} (h : ∀ position a, body position (f a) = some (g a)) (position : Nat)
    (as : List α) : eachOf body position (as.map f) = some (as.flatMap g) := by
  induction as generalizing position with
  | nil => rfl
  | cons a rest ih =>
    rw [List.map_cons, eachOf, h, ih, List.flatMap_cons]
    rfl

/-! ## Elements from what is added to them -/

/-- An attribute as an addition. -/
def Addition.ofAttribute (a : ExpandedName × String) : Addition :=
  .attribute a.1 a.2

theorem foldl_setAttribute (attributes pairs : List (ExpandedName × String)) :
    pairs.foldl setAttribute attributes =
      attributes.filter (fun a => !pairs.any (·.1 == a.1)) ++ lastOnly pairs := by
  induction pairs generalizing attributes with
  | nil => simp [lastOnly]
  | cons pair rest ih =>
    -- `pair` takes away the older attributes of its name and goes away itself before a later one
    have hold : (attributes.filter (·.1 != pair.1)).filter (fun a => !rest.any (·.1 == a.1)) =
        attributes.filter fun a => !(pair :: rest).any (·.1 == a.1) := by
      rw [List.filter_filter]
      refine List.filter_congr fun a _ => ?_
      rw [List.any_cons, Bool.not_or, Bool.and_comm, bne, Bool.beq_comm]
    have hnew : [pair].filter (fun a => !rest.any (·.1 == a.1)) ++ lastOnly rest =
        lastOnly (pair :: rest) := by
      rw [lastOnly]
      by_cases h : rest.any (·.1 == pair.1) = true <;> simp [h]
    rw [List.foldl_cons, ih, setAttribute, List.filter_append, hold, List.append_assoc, hnew]

/-- Attributes come one after another, and a later one takes the place of an earlier one. -/
theorem assemble?_attributes (name : ExpandedName) (pairs : List (ExpandedName × String))
    (rest : List Addition) :
    assemble? name [] [] (pairs.map Addition.ofAttribute ++ rest) =
      assemble? name (lastOnly pairs) [] rest := by
  -- the induction has to run from any attributes, not from none
  have hgeneral : ∀ attributes, assemble? name attributes []
      (pairs.map Addition.ofAttribute ++ rest) =
        assemble? name (pairs.foldl setAttribute attributes) [] rest := by
    induction pairs with
    | nil => exact fun _ => rfl
    | cons pair others ih =>
      intro attributes
      rw [List.map_cons, List.cons_append, Addition.ofAttribute, assemble?, List.foldl_cons, ← ih]
      rfl
  rw [hgeneral, foldl_setAttribute, List.filter_nil, List.nil_append]

theorem addTree_of_text?_eq_none {tree : Tree} (h : tree.text? = none) (content : List Tree) :
    addTree content tree = content ++ [tree] := by
  cases tree with
  | element name attributes inner => rfl
  | text added => cases h

theorem assemble?_trees {trees : List Tree} (h : ∀ tree ∈ trees, tree.text? = none)
    (name : ExpandedName) (attributes : List (ExpandedName × String)) (content : List Tree) :
    assemble? name attributes content (trees.map .tree) =
      some (.element name attributes (content ++ trees)) := by
  induction trees generalizing content with
  | nil => rw [List.map_nil, assemble?, List.append_nil]
  | cons tree rest ih =>
    obtain ⟨htree, hrest⟩ := List.forall_mem_cons.1 h
    rw [List.map_cons, assemble?, addTree_of_text?_eq_none htree, ih hrest, List.append_assoc]
    rfl

theorem trees?_map {trees : List Tree} (h : ∀ tree ∈ trees, tree.text? = none)
    (content : List Tree) : trees? content (trees.map .tree) = some (content ++ trees) := by
  induction trees generalizing content with
  | nil => rw [List.map_nil, trees?, List.append_nil]
  | cons tree rest ih =>
    obtain ⟨htree, hrest⟩ := List.forall_mem_cons.1 h
    rw [List.map_cons, trees?, addTree_of_text?_eq_none htree, ih hrest, List.append_assoc]
    rfl

theorem assemble?_joined (name : ExpandedName) (attributes : List (ExpandedName × String))
    (first : String) {texts : List String} (h : ∀ text ∈ texts, text ≠ "") :
    assemble? name attributes [.text first]
        (texts.flatMap fun text => [.tree (.text " "), .tree (.text text)]) =
      some (.element name attributes [.text (" ".intercalate (first :: texts))]) := by
  induction texts generalizing first with
  | nil => rw [List.flatMap_nil, assemble?, String.intercalate_singleton]
  | cons text rest ih =>
    obtain ⟨htext, hrest⟩ := List.forall_mem_cons.1 h
    have hspace : addTree [.text first] (.text " ") = [.text (first ++ " ")] := rfl
    have hcarried : addTree [.text (first ++ " ")] (.text text) =
        [.text (first ++ " " ++ text)] := by
      simp [addTree, htext]
    rw [List.flatMap_cons, List.cons_append, List.singleton_append, assemble?, hspace, assemble?,
      hcarried, ih _ hrest, String.intercalate_cons_append, String.intercalate_cons_cons]

/-! ## Paths from a tree -/

theorem select_children (name : ExpandedName) (tree : Tree) :
    (LocationPath.children .here name).select (.tree tree) =
      (tree.childrenNamed name).map .tree := by
  simp [LocationPath.select, Item.childrenNamed]

theorem select_attribute (name : ExpandedName) (tree : Tree) :
    (LocationPath.attribute .here name).select (.tree tree) =
      (tree.attribute? name).toList.map .attribute := by
  simp [LocationPath.select, Item.attributesNamed]

theorem eval_attribute {name : ExpandedName} {tree : Tree} {value : String}
    (h : tree.attribute? name = some value) :
    (Value.string (.attribute .here name)).eval (.tree tree) = value := by
  rw [Value.eval, select_attribute, h]
  rfl

theorem select_filled_texts (tree : Tree) :
    (LocationPath.filled (.texts .here)).select (.tree tree) =
      (tree.texts.filter fun text => normalizeSpace text != "").map fun text =>
        .tree (.text text) := by
  rw [LocationPath.select, LocationPath.select, LocationPath.select, List.flatMap_singleton,
    Item.textNodes, List.filter_map]
  rfl

theorem select_concepts (tree : Tree) :
    Program.concepts.select (.tree tree) =
      ((tree.childrenNamed ⟨skosUri, "Concept"⟩).filter fun concept =>
        (concept.attribute? ⟨rdfUri, "about"⟩).isSome).map .tree := by
  rw [Program.concepts, LocationPath.select, select_children, List.filter_map]
  congr 1
  refine List.filter_congr fun concept _ => ?_
  rw [Function.comp, select_attribute]
  cases concept.attribute? ⟨rdfUri, "about"⟩ <;> rfl

/-- Whether a concept is nested shows in the path to the nested concepts. -/
theorem isEmpty_select_concepts (tree : Tree) :
    (Program.concepts.select (.tree tree)).isEmpty = tree.nestedConcept?.isNone := by
  rw [select_concepts, List.isEmpty_map, Tree.nestedConcept?]
  induction tree.childrenNamed ⟨skosUri, "Concept"⟩ with
  | nil => rfl
  | cons concept rest ih =>
    rw [List.filter_cons, List.findSome?_cons]
    cases hname : concept.attribute? ⟨rdfUri, "about"⟩ with
    | none => simpa using ih
    | some name => rfl

theorem eval_firstConcept {tree : Tree} {about : String} (h : tree.nestedConcept? = some about) :
    (Value.string (.attribute (.first Program.concepts) ⟨rdfUri, "about"⟩)).eval (.tree tree) =
      about := by
  have hfirst : ∀ concepts : List Tree,
      concepts.findSome? (·.attribute? ⟨rdfUri, "about"⟩) = some about →
        (((((concepts.filter fun concept =>
          (concept.attribute? ⟨rdfUri, "about"⟩).isSome).map Item.tree).take 1).flatMap
            (Item.attributesNamed ⟨rdfUri, "about"⟩)).head?.map Item.stringValue).getD "" =
              about := by
    intro concepts hconcepts
    -- concepts without a name fall away on both sides
    induction concepts with
    | nil => cases hconcepts
    | cons concept rest ih =>
      rw [List.findSome?_cons] at hconcepts
      rw [List.filter_cons]
      cases hname : concept.attribute? ⟨rdfUri, "about"⟩ with
      | none =>
        rw [hname] at hconcepts
        simpa using ih hconcepts
      | some name =>
        rw [hname] at hconcepts
        simp [Item.attributesNamed, hname, Item.stringValue, Option.some.inj hconcepts]
  rw [Value.eval, LocationPath.select, LocationPath.select, select_concepts]
  exact hfirst _ h

/-! ## The blocks of the program -/

theorem run_filled (test : Test) (name : ExpandedName) (value : Value) (position : Nat)
    (item : Item) :
    run values (Program.filled test name value) position item =
      some (if test.eval values position item then [.attribute name (value.eval item)]
        else []) := by
  rw [Program.filled, run, runAll_singleton, run, runAll_singleton, run]
  split
  · simp [text?]
  · rfl

theorem runAll_copies (rule : Rule) (position : Nat) (tag : Tree) :
    runAll values (Program.copies rule) position (.tree tag) =
      some ((rule.copied tag).map Addition.ofAttribute) := by
  have hcopy (c : Correspondence) :
      run values (Program.filled (.holds (.attribute .here c.source.expanded)) c.target.expanded
        (.string (.attribute .here c.source.expanded))) position (.tree tag) =
          some (((tag.attribute? c.source.expanded).map fun value =>
            (c.target.expanded, value)).toList.map Addition.ofAttribute) := by
    rw [run_filled, Test.eval, select_attribute]
    cases h : tag.attribute? c.source.expanded with
    | none => rfl
    | some value =>
      rw [eval_attribute h]
      rfl
  rw [Program.copies, runAll_map hcopy, Rule.copied, List.filterMap_eq_flatMap_toList,
    List.map_flatMap]

theorem runAll_fallback (rule : Rule) (position : Nat) (tag : Tree) :
    runAll values (Program.fallback rule) position (.tree tag) =
      some ((rule.borrowed tag).toList.map Addition.ofAttribute) := by
  rw [Program.fallback, Rule.borrowed]
  by_cases hemitted : rule.fallback.isEmitted = true
  · -- the test of the program says that there is a nested concept and that the rule may take it
    have htest : Test.eval values
        (if rule.resourceAttributes = [] then .holds Program.concepts
          else .both (.lacks (.attribute .here ⟨rdfUri, "resource"⟩)) (.holds Program.concepts))
        position (.tree tag) =
          (decide (rule.resourceAttributes = [] ∨ tag.attribute? ⟨rdfUri, "resource"⟩ = none) &&
            tag.nestedConcept?.isSome) := by
      by_cases hnone : rule.resourceAttributes = []
      · simp [hnone, Test.eval, isEmpty_select_concepts]
      · simp only [hnone, if_false, Test.eval, isEmpty_select_concepts, select_attribute]
        cases tag.attribute? ⟨rdfUri, "resource"⟩ <;> simp
    rw [if_pos hemitted, runAll_singleton, run_filled, htest]
    by_cases hfree : rule.resourceAttributes = [] ∨ tag.attribute? ⟨rdfUri, "resource"⟩ = none
    · simp only [hemitted, hfree, and_self, if_true, decide_true, Bool.true_and]
      cases hconcept : tag.nestedConcept? with
      | none => rfl
      | some about =>
        rw [eval_firstConcept hconcept]
        rfl
    · simp only [hemitted, hfree, and_false, if_false, decide_false, Bool.false_and]
      rfl
  · rw [if_neg hemitted, if_neg fun h => hemitted h.1, runAll]
    rfl

/-- What the copy of texts adds: each text, with a space in front of it unless it is the first. -/
def textAdditions : List String → List Addition
  | [] => []
  | first :: rest =>
    .tree (.text first) :: rest.flatMap fun text => [.tree (.text " "), .tree (.text text)]

theorem runAll_spaced (position : Nat) (text : String) :
    runAll values [.when (.after 1) [.text " "], .valueOf (.normalized .here)] position
        (.tree (.text text)) =
      some ((if 1 < position then [.tree (.text " ")] else []) ++
        [.tree (.text (normalizeSpace text))]) := by
  have hvalue : (Value.normalized .here).eval (.tree (.text text)) = normalizeSpace text := rfl
  rw [runAll, runAll_singleton, run, run, runAll_singleton, run, hvalue, Test.eval]
  by_cases h : 1 < position <;> simp [h, joined]

theorem eachOf_spaced (position : Nat) (hposition : 1 < position) (texts : List String) :
    eachOf (runAll values [.when (.after 1) [.text " "], .valueOf (.normalized .here)]) position
        (texts.map fun text => .tree (.text text)) =
      some ((texts.map normalizeSpace).flatMap fun text =>
        [.tree (.text " "), .tree (.text text)]) := by
  induction texts generalizing position with
  | nil => rfl
  | cons text rest ih =>
    rw [List.map_cons, eachOf, runAll_spaced, if_pos hposition, ih _ (by omega), List.map_cons,
      List.flatMap_cons]
    rfl

theorem runAll_texts (rule : Rule) (position : Nat) (tag : Tree) :
    runAll values (Program.texts rule) position (.tree tag) =
      some (if rule.keepsText then
        textAdditions ((tag.texts.map normalizeSpace).filter (· != "")) else []) := by
  rw [Program.texts]
  split
  · have hfilter : (tag.texts.map normalizeSpace).filter (· != "") =
        (tag.texts.filter fun text => normalizeSpace text != "").map normalizeSpace := by
      rw [List.filter_map]
      rfl
    rw [runAll_singleton, run, select_filled_texts, hfilter]
    -- only the first text stands at a position without a space before it
    cases tag.texts.filter fun text => normalizeSpace text != "" with
    | nil => rfl
    | cons text rest =>
      rw [List.map_cons, eachOf, runAll_spaced, eachOf_spaced 2 (by decide)]
      rfl
  · rw [runAll]

/-- The texts become one, which is not there if none of them is left. -/
theorem assemble?_textAdditions (name : ExpandedName)
    (attributes : List (ExpandedName × String)) (rule : Rule) (tag : Tree) :
    assemble? name attributes [] (if rule.keepsText then
        textAdditions ((tag.texts.map normalizeSpace).filter (· != "")) else []) =
      some (.element name attributes (rule.copiedText tag)) := by
  rw [Rule.copiedText]
  split
  · have hfilled : ∀ text ∈ (tag.texts.map normalizeSpace).filter (· != ""), text ≠ "" := by
      intro text htext
      simpa using (List.mem_filter.1 htext).2
    generalize (tag.texts.map normalizeSpace).filter (· != "") = texts at hfilled
    cases texts with
    | nil => rfl
    | cons first rest =>
      obtain ⟨hfirst, hrest⟩ := List.forall_mem_cons.1 hfilled
      have hadded : addTree [] (.text first) = [.text first] := by simp [addTree, hfirst]
      rw [textAdditions, assemble?, hadded, assemble?_joined name attributes first hrest]
  · rfl

theorem run_childElement (rule : Rule) (position : Nat) (tag : Tree) :
    run values (.literal rule.tag.target.expanded
        (Program.copies rule ++ Program.fallback rule ++ Program.texts rule)) position
        (.tree tag) =
      some [.tree (rule.convert tag)] := by
  rw [run, runAll_append, runAll_append, runAll_copies, runAll_fallback, runAll_texts]
  simp only [joined, Option.bind_some, Option.map_some, ← List.map_append]
  rw [assemble?_attributes, assemble?_textAdditions]
  rfl

/-- A child rule adds what it makes of each tag of its kind. -/
theorem run_child (rule : Rule) (position : Nat) (record : Tree) :
    run values (Program.child rule) position (.tree record) =
      some ((record.childrenNamed rule.tag.source.expanded).flatMap fun tag =>
        [.tree (rule.convert tag)]) := by
  have hbody (position : Nat) (tag : Tree) :
      runAll values [.literal rule.tag.target.expanded
        (Program.copies rule ++ Program.fallback rule ++ Program.texts rule)] position
          (.tree tag) = some [.tree (rule.convert tag)] := by
    rw [runAll_singleton, run_childElement]
  rw [Program.child, run, select_children, eachOf_map hbody]

theorem run_recordElement (crosswalk : Crosswalk) (position : Nat) (record : Tree) :
    run values (.literal crosswalk.parent.tag.target.expanded
        (Program.copies crosswalk.parent ++ crosswalk.children.map Program.child)) position
        (.tree record) =
      some [.tree (crosswalk.convertRecord record)] := by
  have hchildren : (crosswalk.children.flatMap fun rule =>
      (record.childrenNamed rule.tag.source.expanded).flatMap fun tag =>
        [Addition.tree (rule.convert tag)]) =
      (crosswalk.children.flatMap fun rule =>
        (record.childrenNamed rule.tag.source.expanded).map rule.convert).map .tree := by
    rw [List.map_flatMap]
    refine List.flatMap_congr fun rule _ => ?_
    rw [List.map_map, List.map_eq_flatMap]
    rfl
  have htrees : ∀ tree ∈ crosswalk.children.flatMap fun rule =>
      (record.childrenNamed rule.tag.source.expanded).map rule.convert, tree.text? = none := by
    intro tree htree
    obtain ⟨rule, -, htree⟩ := List.mem_flatMap.1 htree
    obtain ⟨tag, -, rfl⟩ := List.mem_map.1 htree
    rfl
  rw [run, runAll_append, runAll_copies, runAll_map (fun rule => run_child rule position record),
    hchildren]
  simp only [joined, Option.bind_some, Option.map_some]
  rw [assemble?_attributes, assemble?_trees htrees]
  rfl

/-- The record that is asked for is taken, and no other. -/
theorem run_record (crosswalk : Crosswalk) (documentId : Element) (position : Nat)
    (container : Tree) :
    run values (Program.record crosswalk documentId) position (.tree container) =
      some ((crosswalk.convert documentId (values "targetId") container).map .tree) := by
  have hbody (position : Nat) (record : Tree) :
      runAll values [.when (.equals (.attribute .here documentId.expanded) "targetId") [
        .literal crosswalk.parent.tag.target.expanded
          (Program.copies crosswalk.parent ++ crosswalk.children.map Program.child)]] position
            (.tree record) =
        some (if record.attribute? documentId.expanded == some (values "targetId") then
          [.tree (crosswalk.convertRecord record)] else []) := by
    have htest : Test.eval values (.equals (.attribute .here documentId.expanded) "targetId")
        position (.tree record) =
          (record.attribute? documentId.expanded == some (values "targetId")) := by
      rw [Test.eval, select_attribute]
      cases record.attribute? documentId.expanded with
      | none => rfl
      | some value => simp [Item.stringValue]
    rw [runAll_singleton, run, htest, runAll_singleton, run_recordElement]
    split <;> rfl
  rw [Program.record, run, select_children, eachOf_map hbody, Crosswalk.convert]
  generalize container.childrenNamed crosswalk.parent.tag.source.expanded = records
  -- adding a record or nothing at each step comes to choosing records first
  induction records with
  | nil => rfl
  | cons record rest ih =>
    have ih := Option.some.inj ih
    rw [List.flatMap_cons, List.filter_cons, ih]
    by_cases h : (record.attribute? documentId.expanded == some (values "targetId")) = true
    · rw [if_pos h, if_pos h]
      rfl
    · rw [if_neg h, if_neg h, List.nil_append]

end Transform

/-! ## Stylesheets mean what their crosswalks mean -/

namespace Crosswalk

theorem outcome?_program (crosswalk : Crosswalk) (container : Option Element)
    (documentId : Element) (values : String → String) {document : Transform.Tree}
    (hdocument : document.isNamed (container.elim ⟨rdfUri, "RDF"⟩ Element.expanded) = true) :
    (crosswalk.program container documentId).outcome? values document =
      some (crosswalk.convert documentId (values "targetId") document) := by
  have htrees : ∀ tree ∈ crosswalk.convert documentId (values "targetId") document,
      tree.text? = none := by
    intro tree htree
    obtain ⟨record, -, rfl⟩ := List.mem_map.1 htree
    rfl
  have hroot : document.isNamed (crosswalk.program container documentId).root = true := hdocument
  have hbody : (crosswalk.program container documentId).body =
      [Program.record crosswalk documentId] := rfl
  rw [Transform.Transformation.outcome?, if_pos hroot, hbody, Transform.runAll_singleton,
    Transform.run_record, Option.bind_some, Transform.trees?_map htrees, List.nil_append]

/-- The stylesheet of a crosswalk, read with the meaning of the stylesheet language, makes of every
document exactly what the crosswalk makes of it. -/
theorem stylesheet_means_convert {crosswalk : Crosswalk} {container : Option Element}
    {text : String} (h : crosswalk.stylesheet container = .ok text)
    (htargets : ∀ rule ∈ crosswalk.parent :: crosswalk.children,
      rule.tag.target.space.uri ≠ Namespace.xslUri) :
    ∃ documentId transformation, crosswalk.documentId = some documentId ∧
      Transform.ofBytes? text.toUTF8 = some transformation ∧
        ∀ (values : String → String) (document : Transform.Tree),
          document.isNamed (container.elim ⟨rdfUri, "RDF"⟩ Element.expanded) = true →
            transformation.outcome? values document =
              some (crosswalk.convert documentId (values "targetId") document) := by
  obtain ⟨documentId, root, hreads⟩ := exists_readsAs h
  refine ⟨documentId, crosswalk.program container documentId, hreads.documentId_eq,
    ofBytes?_eq_program hreads htargets, ?_⟩
  intro values document hdocument
  exact outcome?_program crosswalk container documentId values hdocument

theorem concepts_means_convert :
    ∃ text, concepts.stylesheet none = .ok text ∧
      (∀ rule ∈ concepts.parent :: concepts.children,
        rule.tag.target.space.uri ≠ Namespace.xslUri) ∧
      ∃ documentId transformation, concepts.documentId = some documentId ∧
        Transform.ofBytes? text.toUTF8 = some transformation ∧
          ∀ (values : String → String) (document : Transform.Tree),
            document.isNamed ⟨rdfUri, "RDF"⟩ = true →
              transformation.outcome? values document =
                some (concepts.convert documentId (values "targetId") document) := by
  obtain ⟨text, h⟩ := exists_stylesheet_concepts
  have htargets : ∀ rule ∈ concepts.parent :: concepts.children,
      rule.tag.target.space.uri ≠ Namespace.xslUri := by decide
  exact ⟨text, h, htargets, stylesheet_means_convert h htargets⟩

end Crosswalk

end Concordance
