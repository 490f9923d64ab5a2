import Concordance.Proofs.Stylesheet.Written
import Concordance.Proofs.Xml.Steady

/-!
# Characters of a stylesheet

Names are made of letters, numerals and a few marks of ASCII, all of them legal characters, and
everything else that a template writes of its own is ASCII.  So a template is steady but for the
URIs that its root declares.
-/

namespace Concordance

open Xml (Markup Steady isSteady)
open Xml.Grammar (isChar)

/-! ## Steady names -/

/-- Beyond the control characters, only the two noncharacters of the first plane are illegal. -/
theorem Xml.Grammar.isChar_of_le {c : Char} (h : 0x20 ≤ c.toNat) (hne : c.toNat ≠ 0xFFFE)
    (hne' : c.toNat ≠ 0xFFFF) : isChar c = true := by
  have hvalid : c.toNat < 0xD800 ∨ (0xDFFF < c.toNat ∧ c.toNat < 0x110000) := c.valid
  simp only [isChar, Text.inRanges, charRanges, List.any_cons, List.any_nil, Bool.or_eq_true,
    Bool.and_eq_true, decide_eq_true_eq]
  omega

theorem isSteady_of_isNamePart {c : Char} (h : isNamePart c = true) : isSteady c = true := by
  have hcontrol : ∀ n < 0x20, isNamePart (Char.ofNat n) = false := by decide
  have hnone : isNamePart (Char.ofNat 0xFFFE) = false ∧ isNamePart (Char.ofNat 0xFFFF) = false := by
    decide +kernel
  have hfree : ∀ n, isNamePart (Char.ofNat n) = false → c.toNat ≠ n := by
    rintro n hn rfl
    rw [Char.ofNat_toNat, h] at hn
    cases hn
  have hlow : 0x20 ≤ c.toNat := by
    apply Nat.le_of_not_lt
    intro hlt
    exact hfree c.toNat (hcontrol c.toNat hlt) rfl
  have hreturn : c ≠ '\r' := by
    rintro rfl
    revert hlow
    decide
  have hlegal := Xml.Grammar.isChar_of_le hlow (hfree _ hnone.1) (hfree _ hnone.2)
  rw [isSteady, hlegal, Bool.true_and]
  exact bne_iff_ne.2 hreturn

theorem steady_of_isNCName {name : String} (h : isNCName name = true) : Steady name :=
  fun _ hc => isSteady_of_isNamePart (isNamePart_of_mem h hc)

@[simp] theorem Element.steady_qualifiedName (element : Element) :
    Steady element.qualifiedName := by
  rw [qualifiedName, Xml.steady_append, Xml.steady_append]
  have hlabel := steady_of_isNCName element.space.label_isName
  have hlocal := steady_of_isNCName element.localName_isName
  exact ⟨⟨hlabel, by decide⟩, hlocal⟩

theorem Declarations.steady_qualified (declared : Declarations) (space : Namespace)
    {localName : String} (h : isNCName localName = true) :
    Steady (declared.qualified space localName) := by
  rw [qualified, Xml.steady_append, Xml.steady_append]
  exact ⟨⟨steady_of_isNCName (Namespace.label_isName _), by decide⟩, steady_of_isNCName h⟩

theorem Correspondence.steady_shown (c : Correspondence) : Steady c.shown := by
  rw [shown]
  simp only [Xml.steady_append, Element.steady_qualifiedName, true_and, and_true]
  decide

/-! ## Steady templates -/

namespace Template

variable (template : Template)

theorem steady_xsl {localName : String} (h : isNCName localName = true) :
    Steady (template.xsl localName) :=
  template.declared.steady_qualified Namespace.xsl h

/-- An element with one attribute is steady with its name, its value and its content. -/
theorem isSteady_xsl {localName key value : String} {content : List Markup}
    (hlocal : isNCName localName = true) (hkey : isNCName key = true) (hvalue : Steady value)
    (hcontent : Markup.IsSteadyAll content) :
    (Markup.element (template.xsl localName) [(key, value)] content).IsSteady :=
  ⟨⟨template.steady_xsl hlocal,
    List.forall_mem_singleton.2 ⟨steady_of_isNCName hkey, hvalue⟩⟩, hcontent⟩

theorem isSteady_select {value : String} (hvalue : Steady value) :
    (Markup.empty (template.xsl "value-of") [("select", value)]).IsSteady :=
  have hkey : Steady "select" := by decide
  ⟨template.steady_xsl (by decide), List.forall_mem_singleton.2 ⟨hkey, hvalue⟩⟩

theorem isSteadyAll_filled {remark test name select : String} (hremark : Steady remark)
    (htest : Steady test) (hname : Steady name) (hselect : Steady select) :
    Markup.IsSteadyAll [.comment remark,
      .element (template.xsl "if") [("test", test)] [
        .element (template.xsl "attribute") [("name", name)] [
          .empty (template.xsl "value-of") [("select", select)]]]] := by
  refine ⟨hremark, template.isSteady_xsl (by decide) (by decide) htest ⟨?_, trivial⟩, trivial⟩
  refine template.isSteady_xsl (by decide) (by decide) hname ⟨?_, trivial⟩
  exact template.isSteady_select hselect

theorem isSteadyAll_attributeBlocks (rule : Rule) :
    Markup.IsSteadyAll (template.attributeBlocks rule) := by
  refine Markup.isSteadyAll_flatMap fun c _ => ?_
  have hsource : Steady ("@" ++ c.source.qualifiedName) :=
    Xml.steady_append.2 ⟨by decide, c.source.steady_qualifiedName⟩
  refine template.isSteadyAll_filled ?_ hsource c.target.steady_qualifiedName hsource
  simp only [Xml.steady_append]
  exact ⟨⟨by decide, c.steady_shown⟩, by decide⟩

theorem isSteadyAll_fallbackBlock (guarded : Bool) :
    Markup.IsSteadyAll (template.fallbackBlock guarded) := by
  have hresource : Steady (template.declared.qualified Namespace.rdf "resource") :=
    template.declared.steady_qualified _ (by decide)
  have habout : Steady (template.declared.qualified Namespace.rdf "about") :=
    template.declared.steady_qualified _ (by decide)
  have hconcept : Steady (template.declared.qualified Namespace.skos "Concept") :=
    template.declared.steady_qualified _ (by decide)
  refine template.isSteadyAll_filled (by decide) ?_ hresource ?_
  · split
    · simp only [Xml.steady_append, hresource, habout, hconcept, and_true]
      decide
    · simp only [Xml.steady_append, habout, hconcept, and_true]
      decide
  · simp only [Xml.steady_append, habout, hconcept, and_true]
    decide

theorem isSteadyAll_textBlock : Markup.IsSteadyAll template.textBlock := by
  refine ⟨(by decide : Steady _), ?_, trivial⟩
  refine template.isSteady_xsl (by decide) (by decide) (by decide) ⟨?_, ?_, trivial⟩
  · refine template.isSteady_xsl (by decide) (by decide) (by decide) ⟨?_, trivial⟩
    exact ⟨⟨template.steady_xsl (by decide), List.forall_mem_nil _⟩, (by decide : Steady " "),
      trivial⟩
  · exact template.isSteady_select (by decide)

theorem isSteadyAll_childBlock (rule : Rule) :
    Markup.IsSteadyAll (template.childBlock rule) := by
  have hselect : Steady ("./" ++ rule.tag.source.qualifiedName) :=
    Xml.steady_append.2 ⟨by decide, rule.tag.source.steady_qualifiedName⟩
  refine ⟨?_, template.isSteady_xsl (by decide) (by decide) hselect ⟨?_, trivial⟩, trivial⟩
  · simp only [Markup.IsSteady, Xml.steady_append]
    exact ⟨⟨by decide, rule.tag.steady_shown⟩, by decide⟩
  · refine ⟨⟨rule.tag.target.steady_qualifiedName, List.forall_mem_nil _⟩, ?_⟩
    refine Markup.isSteadyAll_append (Markup.isSteadyAll_append ?_ ?_) ?_
    · exact template.isSteadyAll_attributeBlocks rule
    · split
      · exact template.isSteadyAll_fallbackBlock _
      · trivial
    · split
      · exact template.isSteadyAll_textBlock
      · trivial

theorem isSteadyAll_parentBlock : Markup.IsSteadyAll template.parentBlock := by
  have hselect : Steady ("./" ++ template.crosswalk.parent.tag.source.qualifiedName) :=
    Xml.steady_append.2 ⟨by decide, Element.steady_qualifiedName _⟩
  have htest : Steady ("@" ++ template.documentId.qualifiedName ++ "=$targetId") := by
    simp only [Xml.steady_append]
    exact ⟨⟨by decide, Element.steady_qualifiedName _⟩, by decide⟩
  refine ⟨?_, template.isSteady_xsl (by decide) (by decide) hselect ⟨?_, trivial⟩, trivial⟩
  · simp only [Markup.IsSteady, Xml.steady_append]
    exact ⟨⟨by decide, Correspondence.steady_shown _⟩, by decide⟩
  · refine template.isSteady_xsl (by decide) (by decide) htest ⟨?_, trivial⟩
    refine ⟨⟨Element.steady_qualifiedName _, List.forall_mem_nil _⟩, ?_⟩
    refine Markup.isSteadyAll_append (template.isSteadyAll_attributeBlocks _) ?_
    exact Markup.isSteadyAll_flatMap fun rule _ => template.isSteadyAll_childBlock rule

end Template

end Concordance
