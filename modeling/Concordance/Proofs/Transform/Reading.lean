import Concordance.Proofs.Transform.Program

/-!
# Reading stylesheets as programs

Block by block the template of a crosswalk is read as the program of the crosswalk, and so the bytes
of a stylesheet stand for the program.
-/

namespace Concordance

open Namespace (xslUri rdfUri skosUri)
open Xml (Markup Node)
open Transform Declarations

namespace Crosswalk

variable {crosswalk : Crosswalk} {container : Option Element}

/-- Items of a stylesheet that are read as the given instructions under its bindings. -/
def Means (crosswalk : Crosswalk) (container : Option Element) (items : List Markup)
    (program : List Instruction) : Prop :=
  Reads (crosswalk.declarations container).bindings ["targetId"] items program

theorem parts?_space_append (bindings : List (String × String)) (depth : Nat) (breaks : Bool)
    (nodes : List Node) :
    parts? bindings (Markup.space depth breaks ++ nodes) = parts? bindings nodes := by
  cases breaks with
  | true =>
    rw [Markup.space, if_pos rfl, List.singleton_append, parts?, part?,
      if_pos (Markup.isBlank_margin depth), Xml.joined_nil]
  | false => rfl

section

variable (hcheck : (crosswalk.declarations container).check
  (crosswalk.elements ++ container.toList) = .ok ())

include hcheck

theorem expandedName?_xsl (documentId : Element) {localName : String}
    (h : isNCName localName = true) :
    expandedName? (crosswalk.declarations container).bindings
        ((crosswalk.checkedTemplate container documentId).xsl localName) =
      some ⟨xslUri, localName⟩ := by
  have hxsl : ((crosswalk.checkedTemplate container documentId).declared.byUri? xslUri).isSome :=
    crosswalk.byUri?_xslUri_isSome container
  rw [Template.xsl_eq hxsl]
  exact expandedName?_of_stands (oneToOne_of_check hcheck) (stands_xsl crosswalk container h)

theorem instruction?_filled (documentId : Element) {test written select : String}
    {tested selected : List Lexeme} {condition : Test} {name : ExpandedName} {value : Value}
    (htested : lexemes? (crosswalk.declarations container).bindings test = some tested)
    (hcondition : testOf? ["targetId"] tested.length tested = some condition)
    (hname : (crosswalk.declarations container).Stands written name)
    (hselected : lexemes? (crosswalk.declarations container).bindings select = some selected)
    (hvalue : valueOf? selected = some value) (depth : Nat) :
    instruction? (crosswalk.declarations container).bindings ["targetId"]
        (Markup.node depth
          (.element ((crosswalk.checkedTemplate container documentId).xsl "if")
            [("test", test)] [
            .element ((crosswalk.checkedTemplate container documentId).xsl "attribute")
              [("name", written)] [
              .empty ((crosswalk.checkedTemplate container documentId).xsl "value-of")
                [("select", select)]]])) =
      some [Program.filled condition name value] := by
  have htag {localName : String} (h : isNCName localName = true) :=
    expandedName?_xsl hcheck documentId h
  have hvalueOf : xslInstruction? (crosswalk.declarations container).bindings ["targetId"]
      "value-of" [("select", select)] [] (some []) = some (.valueOf value) :=
    xslInstruction?_valueOf hselected hvalue [] []
  have hcopy := instruction?_empty (htag (by decide)) hvalueOf
  have hexpanded := expandedName?_of_stands (oneToOne_of_check hcheck) hname
  have hattribute := instruction?_xsl (htag (by decide : isNCName "attribute" = true))
    (Reads.singleton hcopy) (fun nodes => xslInstruction?_attribute hexpanded nodes _)
  exact instruction?_xsl (htag (by decide)) (Reads.singleton hattribute)
    (fun nodes => xslInstruction?_if htested hcondition nodes _) depth

theorem means_attributeBlocks (documentId : Element) {rule : Rule}
    (hrule : rule ∈ crosswalk.parent :: crosswalk.children) :
    crosswalk.Means container
      ((crosswalk.checkedTemplate container documentId).attributeBlocks rule)
      (Program.copies rule) := by
  have hdeclared := oneToOne_of_check hcheck
  rw [Template.attributeBlocks, Program.copies, ← List.flatMap_pure_eq_map]
  refine Reads.flatMap fun c hc => Reads.comment_singleton _ fun depth => ?_
  have hmem {element : Element} (h : element ∈ c.elements) :
      element ∈ crosswalk.elements ++ container.toList :=
    mem_append_of_mem_canonicalAttributes hrule hc h
  have hsource := stands_of_mem hcheck (hmem List.mem_cons_self)
  have htarget := stands_of_mem hcheck (hmem (List.mem_cons_of_mem _ List.mem_cons_self))
  have hlexemes := lexemes?_attribute hdeclared hsource
  exact instruction?_filled hcheck documentId hlexemes rfl htarget hlexemes rfl depth

theorem means_fallbackBlock (documentId : Element) {rule : Rule} {guarded : Bool}
    (hrule : rule ∈ crosswalk.children)
    (hfallback : rule.fallback = .emitted guarded) :
    crosswalk.Means container
      ((crosswalk.checkedTemplate container documentId).fallbackBlock guarded)
      (Program.fallback rule) := by
  have hdeclared := oneToOne_of_check hcheck
  have hneeds : container = none ∨ crosswalk.fallsBack :=
    Or.inr (fallsBack_of_mem hrule hfallback)
  have hconcept : (crosswalk.declarations container).Stands _ ⟨skosUri, "Concept"⟩ :=
    stands_skos hrule hfallback (by decide)
  have habout : (crosswalk.declarations container).Stands _ ⟨rdfUri, "about"⟩ :=
    stands_rdf hneeds (by decide)
  have hresource : (crosswalk.declarations container).Stands _ ⟨rdfUri, "resource"⟩ :=
    stands_rdf hneeds (by decide)
  have hrdf (localName : String) :
      (crosswalk.declarations container).qualified Namespace.rdf localName =
        (crosswalk.declarations container).nameOf ⟨rdfUri, localName⟩ :=
    qualified_eq_nameOf (byUri?_rdfUri_isSome hneeds) localName
  have hskos : (crosswalk.declarations container).qualified Namespace.skos "Concept" =
      (crosswalk.declarations container).nameOf ⟨skosUri, "Concept"⟩ :=
    qualified_eq_nameOf (byUri?_skosUri_isSome hrule hfallback) "Concept"
  have hemitted : rule.fallback.isEmitted = true := by rw [hfallback]; rfl
  have hguarded := Rule.guarded_eq hfallback
  have hdeclared' : (crosswalk.checkedTemplate container documentId).declared =
      crosswalk.declarations container := rfl
  rw [Template.fallbackBlock, Program.fallback, if_pos hemitted, hdeclared', hrdf, hrdf, hskos]
  refine Reads.comment_singleton _ fun depth => ?_
  have hselect := lexemes?_firstAbout hdeclared hconcept habout
  by_cases hnone : rule.resourceAttributes = []
  · have hguarded : guarded = false := by simp [hguarded, hnone]
    have htest := lexemes?_concepts hdeclared hconcept habout
    simp only [hnone, hguarded, if_true]
    exact instruction?_filled hcheck documentId htest rfl hresource hselect rfl depth
  · have hguarded : guarded = true := by simp [hguarded, hnone]
    have htest := lexemes?_guarded hdeclared hconcept habout hresource
    simp only [hnone, hguarded, if_true, if_false]
    exact instruction?_filled hcheck documentId htest rfl hresource hselect rfl depth

theorem means_textBlock (documentId : Element) {rule : Rule} (htext : rule.keepsText = true) :
    crosswalk.Means container (crosswalk.checkedTemplate container documentId).textBlock
      (Program.texts rule) := by
  have htag {localName : String} (h : isNCName localName = true) :=
    expandedName?_xsl hcheck documentId h
  have hnodes : lexemes? (crosswalk.declarations container).bindings "text()[normalize-space()]" =
      some [.word "text", .mark '(', .mark ')', .mark '[', .word "normalize-space", .mark '(',
        .mark ')', .mark ']'] := by
    rw [lexemes?, tokens?_textNodes]
    rfl
  have hfirst : lexemes? (crosswalk.declarations container).bindings "position() > 1" =
      some [.word "position", .mark '(', .mark ')', .mark '>', .number "1"] := by
    rw [lexemes?, tokens?_notFirst]
    rfl
  have hvalue : lexemes? (crosswalk.declarations container).bindings "normalize-space(.)" =
      some [.word "normalize-space", .mark '(', .mark '.', .mark ')'] := by
    rw [lexemes?, tokens?_normalized]
    rfl
  rw [Template.textBlock, Program.texts, if_pos htext]
  refine Reads.comment_singleton _ fun depth => ?_
  have hspace : ∀ depth, instruction? (crosswalk.declarations container).bindings ["targetId"]
      (Markup.node depth (.element ((crosswalk.checkedTemplate container documentId).xsl "text") []
        [.text " "])) = some [.text " "] := by
    intro depth
    rw [Markup.node, instruction?, htag (by decide)]
    rfl
  have hif := instruction?_xsl (htag (by decide)) (Reads.singleton hspace)
    (fun nodes => xslInstruction?_if hfirst rfl nodes _)
  have hvalueOf : xslInstruction? (crosswalk.declarations container).bindings ["targetId"]
      "value-of" [("select", "normalize-space(.)")] [] (some []) =
        some (.valueOf (.normalized .here)) :=
    xslInstruction?_valueOf hvalue rfl [] []
  have hcopy := instruction?_empty (htag (by decide)) hvalueOf
  exact instruction?_xsl (htag (by decide)) (Reads.cons hif (Reads.singleton hcopy))
    (fun nodes => xslInstruction?_forEach hnodes rfl nodes _) depth

theorem means_childBlock (documentId : Element) {rule : Rule} (hrule : rule ∈ crosswalk.children)
    (htarget : rule.tag.target.space.uri ≠ xslUri) :
    crosswalk.Means container ((crosswalk.checkedTemplate container documentId).childBlock rule)
      [Program.child rule] := by
  have hdeclared := oneToOne_of_check hcheck
  have hrules := List.mem_cons_of_mem crosswalk.parent hrule
  have hsource := stands_of_mem hcheck (mem_append_of_mem_rule hrules rule.source_mem_elements)
  have htag := expandedName?_of_stands hdeclared
    (stands_of_mem hcheck (mem_append_of_mem_rule hrules rule.target_mem_elements))
  rw [Template.childBlock, Program.child]
  refine Reads.comment_singleton _ fun depth => ?_
  refine instruction?_xsl (expandedName?_xsl hcheck documentId (by decide))
    (Reads.singleton fun depth => instruction?_literal htag htarget ?_ depth)
    (fun nodes => xslInstruction?_forEach (lexemes?_children hdeclared hsource) rfl nodes _) depth
  refine ((means_attributeBlocks hcheck documentId hrules).append ?_).append ?_
  · split
    next guarded hfallback => exact means_fallbackBlock hcheck documentId hrule hfallback
    next hfallback =>
      rw [Program.fallback, if_neg (Fallback.not_isEmitted hfallback)]
      exact Reads.nil
  · split
    next htext => exact means_textBlock hcheck documentId htext
    next htext =>
      rw [Program.texts, if_neg htext]
      exact Reads.nil

theorem means_parentBlock {documentId : Element} (hid : crosswalk.documentId = some documentId)
    (htargets : ∀ rule ∈ crosswalk.parent :: crosswalk.children,
      rule.tag.target.space.uri ≠ xslUri) :
    crosswalk.Means container (crosswalk.checkedTemplate container documentId).parentBlock
      [Program.record crosswalk documentId] := by
  have hdeclared := oneToOne_of_check hcheck
  have hrules : crosswalk.parent ∈ crosswalk.parent :: crosswalk.children := List.mem_cons_self
  have hsource := stands_of_mem hcheck
    (mem_append_of_mem_rule hrules crosswalk.parent.source_mem_elements)
  have htag := expandedName?_of_stands hdeclared
    (stands_of_mem hcheck (mem_append_of_mem_rule hrules crosswalk.parent.target_mem_elements))
  have hidentifier := stands_of_mem hcheck
    (List.mem_append_left container.toList (mem_elements_of_documentId hid))
  have hchildren : crosswalk.Means container
      (crosswalk.children.flatMap (crosswalk.checkedTemplate container documentId).childBlock)
      (crosswalk.children.map Program.child) := by
    rw [← List.flatMap_pure_eq_map]
    refine Reads.flatMap fun rule hrule => ?_
    exact means_childBlock hcheck documentId hrule (htargets rule (List.mem_cons_of_mem _ hrule))
  have hbody := (means_attributeBlocks hcheck documentId hrules).append hchildren
  rw [Template.parentBlock, Program.record]
  refine Reads.comment_singleton _ fun depth => ?_
  have hliteral := instruction?_literal htag (htargets _ hrules) hbody
  have hif := instruction?_xsl (expandedName?_xsl hcheck documentId (by decide))
    (Reads.singleton hliteral)
    (fun nodes => xslInstruction?_if (lexemes?_isTarget hdeclared hidentifier) rfl nodes _)
  exact instruction?_xsl (expandedName?_xsl hcheck documentId (by decide)) (Reads.singleton hif)
    (fun nodes => xslInstruction?_forEach (lexemes?_children hdeclared hsource) rfl nodes _) depth

/-! ## The whole stylesheet -/

theorem parts?_root (documentId : Element) :
    parts? (crosswalk.declarations container).bindings
        (Markup.nodes 0 true [
          .empty ((crosswalk.checkedTemplate container documentId).xsl "param")
            [("name", "targetId"), ("select", "")],
          .empty ((crosswalk.checkedTemplate container documentId).xsl "output")
            [("indent", "yes"), ("encoding", "UTF-8")],
          .element ((crosswalk.checkedTemplate container documentId).xsl "template")
            [("match", "/" ++ (crosswalk.checkedTemplate container documentId).container)]
            (crosswalk.checkedTemplate container documentId).parentBlock]) =
      some [.parameter "targetId", .output,
        .template (container.elim ⟨rdfUri, "RDF"⟩ Element.expanded)
          (Markup.nodes 1 true (crosswalk.checkedTemplate container documentId).parentBlock)] := by
  have hdeclared := oneToOne_of_check hcheck
  have htag {localName : String} (h : isNCName localName = true) :=
    expandedName?_xsl hcheck documentId h
  have hname : (crosswalk.declarations container).Stands
      (crosswalk.checkedTemplate container documentId).container
      (container.elim ⟨rdfUri, "RDF"⟩ Element.expanded) := by
    have hcontainer : (crosswalk.checkedTemplate container documentId).container = _ :=
      crosswalk.containerName_eq container
    rw [hcontainer]
    exact stands_container hcheck
  have hmatch := lexemes?_root hdeclared hname
  have hparameter : part? (crosswalk.declarations container).bindings
      (Markup.node 1 (.empty ((crosswalk.checkedTemplate container documentId).xsl "param")
        [("name", "targetId"), ("select", "")])) = some [.parameter "targetId"] := by
    rw [Markup.node, part?, htag (by decide)]
    rfl
  have houtput : part? (crosswalk.declarations container).bindings
      (Markup.node 1 (.empty ((crosswalk.checkedTemplate container documentId).xsl "output")
        [("indent", "yes"), ("encoding", "UTF-8")])) = some [.output] := by
    rw [Markup.node, part?, htag (by decide)]
    rfl
  have htemplate : part? (crosswalk.declarations container).bindings
      (Markup.node 1 (.element ((crosswalk.checkedTemplate container documentId).xsl "template")
        [("match", "/" ++ (crosswalk.checkedTemplate container documentId).container)]
        (crosswalk.checkedTemplate container documentId).parentBlock)) =
      some [.template (container.elim ⟨rdfUri, "RDF"⟩ Element.expanded)
        (Markup.nodes 1 true (crosswalk.checkedTemplate container documentId).parentBlock)] := by
    rw [Markup.node, part?, htag (by decide)]
    simp [valueOfKey?, hmatch, patternOf?]
  simp only [Markup.nodes, parts?_space_append, parts?, hparameter, houtput, htemplate]
  rfl

end

/-- The bytes of a stylesheet stand for the program of the crosswalk. -/
theorem ofBytes?_eq_program {documentId : Element} {text : String} {root : Node}
    (hreads : crosswalk.ReadsAs container documentId text root)
    (htargets : ∀ rule ∈ crosswalk.parent :: crosswalk.children,
      rule.tag.target.space.uri ≠ xslUri) :
    Transform.ofBytes? text.toUTF8 = some (crosswalk.program container documentId) := by
  have hcheck := hreads.check_eq
  have hbindings := (crosswalk.declarations container).filterMap_binding?
  have htag := expandedName?_xsl hcheck documentId (by decide : isNCName "stylesheet" = true)
  have hbody := (means_parentBlock hcheck hreads.documentId_eq htargets).instructions?_nodes 1 true
  have hparts := parts?_root hcheck documentId
  have hdeclared : (crosswalk.checkedTemplate container documentId).declared =
      crosswalk.declarations container := rfl
  -- the parts come first: the parameter that the template may use is one of them
  rw [Transform.ofBytes?, hreads.ofBytes?_eq, Option.bind_some, hreads.root_eq, Template.root,
    Markup.node, transformation?, Node.bindings, hdeclared, hbindings, htag]
  simp only [Option.bind_eq_bind, Option.bind_some, if_true, hparts]
  change (instructions? _ ["targetId"] _).bind _ = _
  rw [hbody]
  rfl

end Crosswalk

end Concordance
