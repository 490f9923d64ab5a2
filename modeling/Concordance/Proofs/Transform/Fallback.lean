import Concordance.Proofs.Stylesheet.Fallback
import Concordance.Proofs.Transform.Blocks
import Concordance.Proofs.Transform.Running

/-!
# The fallback beside the copies

In the block of a child rule that has a fallback, two instructions may set `rdf:resource`: the copy
of the attribute as it is, and the fallback to a nested concept.  The test of the fallback leaves
out the tags for which the copy is made, so that for every tag at most one of the two sets it.
-/

namespace Concordance

open Namespace (rdfUri xslUri)

/-! ## What an attribute is set by -/

namespace Transform

variable {values : String → String} {name : ExpandedName} {position : Nat}

/-- The value that an addition gives to an attribute. -/
def Addition.value? (name : ExpandedName) : Addition → Option String
  | .attribute key value => if key = name then some value else none
  | .tree _ => none

/-- The instructions that set an attribute when they are carried out for a node, each with the value
that it sets. -/
def firings (values : String → String) (name : ExpandedName) (position : Nat) (item : Item)
    (body : List Instruction) : List (Instruction × String) :=
  body.flatMap fun instruction =>
    (((run values instruction position item).getD []).filterMap (Addition.value? name)).map
      (instruction, ·)

theorem firings_append (item : Item) (first second : List Instruction) :
    firings values name position item (first ++ second) =
      firings values name position item first ++ firings values name position item second :=
  List.flatMap_append

/-- What a single instruction adds shows what it sets. -/
theorem firings_singleton {item : Item} {instruction : Instruction} {additions : List Addition}
    (h : runAll values [instruction] position item = some additions) :
    firings values name position item [instruction] =
      (additions.filterMap (Addition.value? name)).map (instruction, ·) := by
  rw [runAll_singleton] at h
  rw [firings, List.flatMap_singleton, h, Option.getD_some]

theorem firings_filled (test : Test) (key : ExpandedName) (value : Value) (item : Item) :
    firings values name position item [Program.filled test key value] =
      if test.eval values position item = true ∧ key = name then
        [(Program.filled test key value, value.eval item)] else [] := by
  rw [firings_singleton ((runAll_singleton _ position item).trans (run_filled test key value _ _))]
  by_cases htest : test.eval values position item = true
  · by_cases hkey : key = name <;> simp [htest, hkey, Addition.value?]
  · simp [htest]

end Transform

/-! ## The copies -/

/-- The copy of an attribute. -/
def Program.copy (c : Correspondence) : Transform.Instruction :=
  filled (.holds (.attribute .here c.source.expanded)) c.target.expanded
    (.string (.attribute .here c.source.expanded))

namespace Transform

variable {values : String → String} {name : ExpandedName} {position : Nat}

theorem firings_copy (c : Correspondence) (tag : Tree) :
    firings values name position (.tree tag) [Program.copy c] =
      if c.target.expanded = name then
        (tag.attribute? c.source.expanded).toList.map (Program.copy c, ·) else [] := by
  rw [Program.copy, firings_filled, Test.eval, select_attribute]
  cases hvalue : tag.attribute? c.source.expanded with
  | none => simp
  | some value =>
    rw [eval_attribute hvalue]
    simp

theorem firings_copies (rule : Rule) (tag : Tree) :
    firings values ⟨rdfUri, "resource"⟩ position (.tree tag) (Program.copies rule) =
      rule.resourceAttributes.flatMap fun c =>
        (tag.attribute? c.source.expanded).toList.map (Program.copy c, ·) := by
  have hcopies : Program.copies rule = rule.canonicalAttributes.map Program.copy := rfl
  rw [hcopies, Rule.resourceAttributes]
  induction rule.canonicalAttributes with
  | nil => rfl
  | cons c rest ih =>
    rw [List.map_cons, List.filter_cons, ← List.singleton_append, firings_append, firings_copy, ih]
    by_cases htarget : c.target.isResource = true
    · rw [if_pos htarget, if_pos (Element.isResource_iff.1 htarget), List.flatMap_cons]
    · rw [if_neg htarget, if_neg (mt Element.isResource_iff.2 htarget), List.nil_append]

/-! ## The fallback and the text -/

theorem fst_of_borrowed_eq_some {rule : Rule} {tag : Tree} {pair : ExpandedName × String}
    (h : rule.borrowed tag = some pair) : pair.1 = ⟨rdfUri, "resource"⟩ := by
  rw [Rule.borrowed] at h
  split at h
  next =>
    obtain ⟨about, -, rfl⟩ := Option.map_eq_some_iff.1 h
    rfl
  next => cases h

theorem exists_fallback_eq {rule : Rule} (h : rule.fallback.isEmitted = true) :
    ∃ instruction, Program.fallback rule = [instruction] := by
  rw [Program.fallback, if_pos h]
  exact ⟨_, rfl⟩

theorem firings_fallback (rule : Rule) (tag : Tree) :
    firings values ⟨rdfUri, "resource"⟩ position (.tree tag) (Program.fallback rule) =
      (rule.borrowed tag).toList.flatMap fun pair => (Program.fallback rule).map (·, pair.2) := by
  have hrun : runAll values (Program.fallback rule) position (.tree tag) = _ :=
    runAll_fallback rule position tag
  by_cases hemitted : rule.fallback.isEmitted = true
  · obtain ⟨instruction, hinstruction⟩ := exists_fallback_eq hemitted
    rw [hinstruction] at hrun ⊢
    rw [firings_singleton hrun]
    cases hborrowed : rule.borrowed tag with
    | none => rfl
    | some pair =>
      have hname := fst_of_borrowed_eq_some hborrowed
      simp [Addition.ofAttribute, Addition.value?, hname]
  · rw [Rule.borrowed, if_neg fun h => hemitted h.1, Program.fallback, if_neg hemitted]
    rfl

theorem exists_of_mem_textAdditions {texts : List String} {addition : Addition}
    (h : addition ∈ textAdditions texts) : ∃ tree, addition = .tree tree := by
  cases texts with
  | nil => cases h
  | cons first rest =>
    rcases List.mem_cons.1 h with rfl | h
    · exact ⟨_, rfl⟩
    · obtain ⟨text, -, h⟩ := List.mem_flatMap.1 h
      rcases List.mem_pair.1 h with rfl | rfl
      · exact ⟨_, rfl⟩
      · exact ⟨_, rfl⟩

theorem firings_texts (rule : Rule) (tag : Tree) :
    firings values name position (.tree tag) (Program.texts rule) = [] := by
  have hrun : runAll values (Program.texts rule) position (.tree tag) = _ :=
    runAll_texts rule position tag
  have hadditions : ∀ texts, (textAdditions texts).filterMap (Addition.value? name) = [] := by
    intro texts
    refine List.filterMap_eq_nil_iff.2 fun addition haddition => ?_
    obtain ⟨tree, rfl⟩ := exists_of_mem_textAdditions haddition
    rfl
  by_cases htext : rule.keepsText = true
  · rw [if_pos htext] at hrun
    rw [Program.texts, if_pos htext] at hrun ⊢
    rw [firings_singleton hrun, hadditions]
    rfl
  · rw [Program.texts, if_neg htext]
    rfl

/-! ## One of them at most -/

/-- In the body that is made for a tag, at most one instruction sets `rdf:resource`: the copy of the
attribute where the rule copies it and the tag has it, and else the fallback where the tag has a
nested concept with a name. -/
structure FiresOnce (rule : Rule) (body : List Instruction) (values : String → String)
    (position : Nat) (tag : Tree) : Prop where
  carried_out : (runAll values body position (.tree tag)).isSome = true
  length_le_one :
    (firings values ⟨rdfUri, "resource"⟩ position (.tree tag) body).length ≤ 1
  copied : rule.copiesResource = true → ∀ resource,
    tag.attribute? ⟨rdfUri, "resource"⟩ = some resource →
      ∃ c ∈ rule.attributes.toList, c.source.isResource = true ∧ c.target.isResource = true ∧
        firings values ⟨rdfUri, "resource"⟩ position (.tree tag) body =
          [(Program.copy c, resource)]
  fallen_back : (rule.copiesResource = true → tag.attribute? ⟨rdfUri, "resource"⟩ = none) →
    ∀ about, tag.nestedConcept? = some about →
      ∃ instruction, Program.fallback rule = [instruction] ∧
        firings values ⟨rdfUri, "resource"⟩ position (.tree tag) body = [(instruction, about)]
  none_fires : (rule.copiesResource = true → tag.attribute? ⟨rdfUri, "resource"⟩ = none) →
    tag.nestedConcept? = none →
      firings values ⟨rdfUri, "resource"⟩ position (.tree tag) body = []

section Emitted

variable {rule : Rule} (hemitted : rule.fallback.isEmitted = true)

include hemitted

/-- Where the attribute is copied and there, the fallback gives way to the copy. -/
theorem firings_body_of_copied {resource : String} {tag : Tree}
    (hcopies : rule.copiesResource = true)
    (hresource : tag.attribute? ⟨rdfUri, "resource"⟩ = some resource) :
    ∃ c ∈ rule.attributes.toList, c.source.isResource = true ∧ c.target.isResource = true ∧
      firings values ⟨rdfUri, "resource"⟩ position (.tree tag)
          (Program.copies rule ++ Program.fallback rule ++ Program.texts rule) =
        [(Program.copy c, resource)] := by
  rcases Rule.resourceAttributes_of_isEmitted hemitted with
    ⟨-, hnot⟩ | ⟨c, hlist, -, hsource, htarget⟩
  · rw [hnot] at hcopies
    cases hcopies
  · have hborrowed : rule.borrowed tag = none := by
      rw [Rule.borrowed, if_neg]
      simp [hlist, hresource]
    have hmem : c ∈ rule.resourceAttributes := by
      rw [hlist]
      exact List.mem_cons_self
    refine ⟨c, (Rule.mem_resourceAttributes.1 hmem).1, Element.isResource_iff.2 hsource,
      Element.isResource_iff.2 htarget, ?_⟩
    rw [firings_append, firings_append, firings_copies, firings_fallback, firings_texts, hlist,
      hborrowed, List.flatMap_singleton, hsource, hresource]
    rfl

/-- Where the attribute is not copied or not there, the fallback is left to set it. -/
theorem firings_body_of_not_copied {tag : Tree}
    (hfree : rule.copiesResource = true → tag.attribute? ⟨rdfUri, "resource"⟩ = none) :
    firings values ⟨rdfUri, "resource"⟩ position (.tree tag)
        (Program.copies rule ++ Program.fallback rule ++ Program.texts rule) =
      tag.nestedConcept?.toList.flatMap fun about => (Program.fallback rule).map (·, about) := by
  have hcopies : firings values ⟨rdfUri, "resource"⟩ position (.tree tag)
      (Program.copies rule) = [] := by
    rw [firings_copies]
    rcases Rule.resourceAttributes_of_isEmitted hemitted with
      ⟨hnone, -⟩ | ⟨c, hlist, hcopied, hsource, -⟩
    · rw [hnone]
      rfl
    · rw [hlist, List.flatMap_singleton, hsource, hfree hcopied]
      rfl
  have hborrowed : rule.borrowed tag =
      tag.nestedConcept?.map fun about => (⟨rdfUri, "resource"⟩, about) := by
    rw [Rule.borrowed, if_pos]
    refine ⟨hemitted, ?_⟩
    rcases Rule.resourceAttributes_of_isEmitted hemitted with ⟨hnone, -⟩ | ⟨-, -, hcopied, -⟩
    · exact Or.inl hnone
    · exact Or.inr (hfree hcopied)
  rw [firings_append, firings_append, hcopies, firings_fallback, firings_texts, hborrowed,
    List.nil_append, List.append_nil]
  cases tag.nestedConcept? <;> rfl

theorem firesOnce (values : String → String) (position : Nat) (tag : Tree) :
    FiresOnce rule (Program.copies rule ++ Program.fallback rule ++ Program.texts rule) values
      position tag := by
  obtain ⟨instruction, hinstruction⟩ := exists_fallback_eq hemitted
  constructor
  case carried_out =>
    rw [runAll_append, runAll_append, runAll_copies, runAll_fallback, runAll_texts]
    rfl
  case length_le_one =>
    by_cases hfree : rule.copiesResource = true → tag.attribute? ⟨rdfUri, "resource"⟩ = none
    · rw [firings_body_of_not_copied hemitted hfree, hinstruction]
      cases tag.nestedConcept? <;> simp
    · obtain ⟨hcopies, hsome⟩ := Classical.not_imp.1 hfree
      obtain ⟨resource, hresource⟩ := Option.ne_none_iff_exists'.1 hsome
      obtain ⟨c, -, -, -, hfirings⟩ := firings_body_of_copied hemitted hcopies hresource
      rw [hfirings]
      exact Nat.le_refl 1
  case copied => exact fun hcopies resource => firings_body_of_copied hemitted hcopies
  case fallen_back =>
    intro hfree about habout
    refine ⟨instruction, hinstruction, ?_⟩
    rw [firings_body_of_not_copied hemitted hfree, hinstruction, habout]
    rfl
  case none_fires =>
    intro hfree hnone
    rw [firings_body_of_not_copied hemitted hfree, hnone]
    rfl

end Emitted

end Transform

/-! ## The blocks of stylesheets -/

namespace Outline

/-- The loop over the tags of a child rule, which makes an element with the given content. -/
def loop (declared : Declarations) (rule : Rule) (content : List Xml.Node) : Xml.Node :=
  xsl declared "for-each" [("select", "./" ++ rule.tag.source.qualifiedName)] [
    .element rule.tag.target.qualifiedName [] content]

end Outline

theorem Rule.target_uri_of_isEmitted {rule : Rule} (h : rule.fallback.isEmitted = true) :
    rule.tag.target.space.uri ≠ xslUri := by
  have hrelates := (Rule.isEmitted_iff.1 h).1.2
  rw [Element.isRelationship, Bool.and_eq_true, beq_iff_eq] at hrelates
  rw [hrelates.1]
  decide

/-- What becomes of the fallback of a rule is as it is said to be.  The block that a stylesheet has
for the rule holds no fallback where some other correspondence fills `rdf:resource`; and where it
holds one, at most one of its instructions sets that attribute, whatever the tag. -/
theorem Rule.fallback_never_competes (rule : Rule) :
    rule.FallbackExact ∧
      ∀ {crosswalk : Crosswalk} {container : Option Element} {text : String},
        crosswalk.stylesheet container = .ok text → rule ∈ crosswalk.children →
          ∃ block, Emitted text block ∧
            block.tidy = Outline.loop (crosswalk.declarations container) rule
              (Outline.copies (crosswalk.declarations container) rule ++
                Outline.fallback (crosswalk.declarations container) rule ++
                  Outline.texts (crosswalk.declarations container) rule) ∧
            ((∃ c, rule.Competes c) →
              block.tidy = Outline.loop (crosswalk.declarations container) rule
                (Outline.copies (crosswalk.declarations container) rule ++
                  Outline.texts (crosswalk.declarations container) rule)) ∧
            (rule.fallback.isEmitted = true →
              ∃ body, readIn? text block =
                  some [.forEach (.children .here rule.tag.source.expanded)
                    [.literal rule.tag.target.expanded body]] ∧
                ∀ (values : String → String) (position : Nat) (tag : Transform.Tree),
                  Transform.FiresOnce rule body values position tag) := by
  refine ⟨rule.fallbackExact, fun h hrule => ?_⟩
  obtain ⟨block, hemitted, ⟨remark, htidy⟩, hread⟩ := Crosswalk.exists_childBlock h hrule
  have hloop := (List.cons.inj (List.cons.inj htidy).2).1.symm
  refine ⟨block, hemitted, hloop, ?_, fun hfallback => ?_⟩
  · intro hcompetes
    have hnone : ¬rule.fallback.isEmitted = true :=
      fun hfallback => Rule.not_competes_of_isEmitted hfallback hcompetes
    rw [Outline.fallback, if_neg hnone, List.append_nil] at hloop
    exact hloop
  · exact ⟨_, hread (Rule.target_uri_of_isEmitted hfallback), fun values position tag =>
      Transform.firesOnce hfallback values position tag⟩

/-- The rule that relates concepts to broader ones as it finds them. -/
def Rule.resourceCopied : Rule :=
  Crosswalk.broader.withAttribute
    ⟨⟨Crosswalk.foo, "resource", .refl true⟩, ⟨Crosswalk.foo, "resource", .refl true⟩⟩

/-- The rule that takes the related concept from another attribute. -/
def Rule.resourceFilled : Rule :=
  Crosswalk.broader.withAttribute
    ⟨⟨Crosswalk.foo, "about", .refl true⟩, ⟨Crosswalk.foo, "resource", .refl true⟩⟩

/-- A crosswalk of concepts that writes RDF with another prefix than the usual one. -/
def Crosswalk.relations : Crosswalk where
  parent := .ofTag
    ⟨⟨Namespace.skos, "Concept", .refl true⟩, ⟨Namespace.skos, "Concept", .refl true⟩⟩
  children := [Rule.resourceCopied, Rule.resourceFilled]
  documentId := some ⟨Crosswalk.foo, "about", .refl true⟩

theorem Rule.fallback_never_competes_relations :
    ∃ text, Crosswalk.relations.stylesheet none = .ok text ∧
      (∃ block body, Emitted text block ∧ resourceCopied.fallback.isEmitted = true ∧
        readIn? text block = some [.forEach (.children .here resourceCopied.tag.source.expanded)
          [.literal resourceCopied.tag.target.expanded body]] ∧
        ∀ (values : String → String) (position : Nat) (tag : Transform.Tree),
          Transform.FiresOnce resourceCopied body values position tag) ∧
      ∃ block c, Emitted text block ∧ resourceFilled.Competes c ∧
        block.tidy = Outline.loop (Crosswalk.relations.declarations none) resourceFilled
          (Outline.copies (Crosswalk.relations.declarations none) resourceFilled ++
            Outline.texts (Crosswalk.relations.declarations none) resourceFilled) := by
  obtain ⟨text, h⟩ : ∃ text, Crosswalk.relations.stylesheet none = .ok text := by
    refine Crosswalk.exists_stylesheet_iff.2 ⟨by decide, ?_⟩
    refine (Crosswalk.check_declarations_eq_ok_iff Crosswalk.relations none).2 ?_
    decide
  have hemitted : resourceCopied.fallback.isEmitted = true :=
    isEmitted_iff.2 ⟨⟨by decide, by decide⟩, by decide⟩
  have hcompetes : resourceFilled.Competes
      ⟨⟨Crosswalk.foo, "about", .refl true⟩, ⟨Crosswalk.foo, "resource", .refl true⟩⟩ :=
    ⟨List.mem_cons_self, by decide, by decide⟩
  obtain ⟨block, hblock, -, -, hfires⟩ :=
    (fallback_never_competes resourceCopied).2 h List.mem_cons_self
  obtain ⟨body, hread, hfires⟩ := hfires hemitted
  obtain ⟨other, hother, -, hloop, -⟩ :=
    (fallback_never_competes resourceFilled).2 h (List.mem_cons_of_mem _ List.mem_cons_self)
  exact ⟨text, h, ⟨block, body, hblock, hemitted, hread, hfires⟩,
    other, _, hother, hcompetes, hloop ⟨_, hcompetes⟩⟩

end Concordance
