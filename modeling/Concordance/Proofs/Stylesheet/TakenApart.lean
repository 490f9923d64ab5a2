import Concordance.Proofs.Stylesheet.Binding

/-!
# Taking an outline apart

What a rule says can be read off the items that it becomes in an outline: the copied attributes are
told from a fallback by how their tests begin, and the child rules by their paths.  What is found
there are written names.  Under one set of declarations a written name stands for one element only,
so that rules that are written alike are the same.
-/

namespace Concordance

open Xml (Node)

/-! ## Written names -/

theorem eq_of_qualified_eq {label localName label' localName' : String}
    (hlabel : isNCName label = true) (hlocal : isNCName localName = true)
    (hlabel' : isNCName label' = true) (hlocal' : isNCName localName' = true)
    (h : label ++ ":" ++ localName = label' ++ ":" ++ localName') :
    label = label' ∧ localName = localName' := by
  have htokens := Xpath.tokens?_qualified hlabel hlocal Xpath.endsName_nil
  rw [h, Xpath.tokens?_qualified hlabel' hlocal' Xpath.endsName_nil, Xpath.tokens?_nil] at htokens
  simp only [Option.map_some, Option.some.injEq, List.cons.injEq, Xpath.Token.name.injEq,
    and_true] at htokens
  exact ⟨htokens.1.symm, htokens.2.symm⟩

namespace Element

theorem label_eq_of_qualifiedName_eq {a b : Element} (h : a.qualifiedName = b.qualifiedName) :
    a.space.label = b.space.label ∧ a.localName = b.localName :=
  eq_of_qualified_eq a.space.label_isName a.localName_isName b.space.label_isName
    b.localName_isName h

theorem eq_of_qualifiedName_of_uri {a b : Element} (hname : a.qualifiedName = b.qualifiedName)
    (huri : a.space.uri = b.space.uri) : a = b := by
  obtain ⟨hlabel, hlocal⟩ := label_eq_of_qualifiedName_eq hname
  have hspace := Namespace.eq_of_label_of_uri hlabel huri
  cases a
  cases b
  simp_all

end Element

namespace Declarations

variable {declared : Declarations}

/-- Under one set of declarations a written name stands for one thing only. -/
theorem Stands.eq (hdeclared : declared.OneToOne) {written : String} {name other : ExpandedName}
    (h : declared.Stands written name) (h' : declared.Stands written other) : name = other := by
  have hwritten := h.written_eq.symm.trans h'.written_eq
  obtain ⟨hlabel, hlocal⟩ := eq_of_qualified_eq h.isNCName_prefixOf h.isNCName_localName
    h'.isNCName_prefixOf h'.isNCName_localName hwritten
  have hpair : declared.pair name = declared.pair other := Prod.ext hlabel hlocal
  have hresolved := resolve?_pair hdeclared h.bound
  rw [hpair, resolve?_pair hdeclared h'.bound] at hresolved
  exact (Option.some.inj hresolved).symm

theorem eq_of_stands (hdeclared : declared.OneToOne) {a b : Element}
    (ha : declared.Stands a.qualifiedName a.expanded)
    (hb : declared.Stands b.qualifiedName b.expanded)
    (h : a.qualifiedName = b.qualifiedName) : a = b := by
  rw [h] at ha
  have hexpanded := ha.eq hdeclared hb
  exact Element.eq_of_qualifiedName_of_uri h (congrArg ExpandedName.uri hexpanded)

theorem eq_of_byUri?_eq {other : Declarations}
    (h : ∀ uri, declared.byUri? uri = other.byUri? uri) : declared = other := by
  have hmem : ∀ (set : Declarations) space,
      space ∈ set.toList ↔ set.byUri? space.uri = some space := by
    intro set space
    rw [byUri?_eq_some_iff]
    simp
  refine Ascending.eq_of_mem_iff fun space => ?_
  rw [hmem, hmem, h]

end Declarations

/-! ## Taking an outline apart -/

namespace Outline

/-- The attribute that an item copies and the name that it copies it to, both as written. -/
def copied? : Node → Option (String × String)
  | .element _ [("test", test)] [.element _ [("name", name)] _] =>
    match test.toList with
    | '@' :: source => some (String.ofList source, name)
    | _ => none
  | _ => none

/-- The path that an item goes along, with what it makes of each thing there. -/
def selected? : Node → Option (String × List Node)
  | .element _ [("select", path)] content => some (path, content)
  | _ => none

variable (declared : Declarations)

theorem copied?_filled (test name select : String) :
    copied? (filled declared test name select) =
      match test.toList with
      | '@' :: source => some (String.ofList source, name)
      | _ => none := rfl

theorem copied?_remark (text : String) : copied? (remark text) = none := rfl

theorem selected?_filled (test name select : String) :
    selected? (filled declared test name select) = none := rfl

theorem selected?_remark (text : String) : selected? (remark text) = none := rfl

theorem filterMap_copied?_copies (rule : Rule) :
    (copies declared rule).filterMap copied? =
      rule.canonicalAttributes.map fun c => (c.source.qualifiedName, c.target.qualifiedName) := by
  rw [copies]
  induction rule.canonicalAttributes with
  | nil => rfl
  | cons c rest ih =>
    have htest : ("@" ++ c.source.qualifiedName).toList = '@' :: c.source.qualifiedName.toList := by
      simp
    have hcopied : copied? (filled declared ("@" ++ c.source.qualifiedName)
        c.target.qualifiedName ("@" ++ c.source.qualifiedName)) =
          some (c.source.qualifiedName, c.target.qualifiedName) := by
      rw [copied?_filled, htest]
      simp only [String.ofList_toList]
    rw [List.flatMap_cons, List.filterMap_append, ih,
      List.filterMap_cons_none (copied?_remark _), List.filterMap_cons_some hcopied]
    rfl

theorem filterMap_selected?_copies (rule : Rule) :
    (copies declared rule).filterMap selected? = [] := by
  refine List.filterMap_eq_nil_iff.2 fun item hitem => ?_
  obtain ⟨c, -, hitem⟩ := List.mem_flatMap.1 hitem
  rcases List.mem_pair.1 hitem with rfl | rfl
  · exact selected?_remark _
  · exact selected?_filled declared _ _ _

/-- No test of a fallback begins like that of a copy. -/
theorem filterMap_copied?_fallback (rule : Rule) :
    (fallback declared rule).filterMap copied? = [] := by
  refine List.filterMap_eq_nil_iff.2 fun item hitem => ?_
  rw [fallback] at hitem
  split at hitem
  next =>
    rcases List.mem_pair.1 hitem with rfl | rfl
    · exact copied?_remark _
    · rw [copied?_filled]
      by_cases hguard : rule.resourceAttributes = []
      · simp [hguard, concepts]
      · simp [hguard]
  next => cases hitem

theorem filterMap_selected?_fallback (rule : Rule) :
    (fallback declared rule).filterMap selected? = [] := by
  refine List.filterMap_eq_nil_iff.2 fun item hitem => ?_
  rw [fallback] at hitem
  split at hitem
  next =>
    rcases List.mem_pair.1 hitem with rfl | rfl
    · exact selected?_remark _
    · exact selected?_filled declared _ _ _
  next => cases hitem

theorem filterMap_copied?_texts (rule : Rule) : (texts declared rule).filterMap copied? = [] := by
  rw [texts]
  split <;> rfl

theorem filterMap_selected?_texts (rule : Rule) :
    ((texts declared rule).filterMap selected?).isEmpty = !rule.keepsText := by
  rw [texts]
  cases rule.keepsText <;> rfl

/-- What a child rule makes of one tag of its kind. -/
def childContent (rule : Rule) : List Node :=
  copies declared rule ++ fallback declared rule ++ texts declared rule

theorem filterMap_copied?_childContent (rule : Rule) :
    (childContent declared rule).filterMap copied? =
      rule.canonicalAttributes.map fun c => (c.source.qualifiedName, c.target.qualifiedName) := by
  rw [childContent, List.filterMap_append, List.filterMap_append, filterMap_copied?_copies,
    filterMap_copied?_fallback, filterMap_copied?_texts, List.append_nil, List.append_nil]

theorem filterMap_selected?_childContent (rule : Rule) :
    ((childContent declared rule).filterMap selected?).isEmpty = !rule.keepsText := by
  rw [childContent, List.filterMap_append, List.filterMap_append, filterMap_selected?_copies,
    filterMap_selected?_fallback, List.nil_append, List.nil_append, filterMap_selected?_texts]

/-- What the parent rule makes of a record. -/
def recordContent (crosswalk : Crosswalk) : List Node :=
  copies declared crosswalk.parent ++ crosswalk.children.flatMap (child declared)

theorem filterMap_copied?_recordContent (crosswalk : Crosswalk) :
    (recordContent declared crosswalk).filterMap copied? =
      crosswalk.parent.canonicalAttributes.map
        fun c => (c.source.qualifiedName, c.target.qualifiedName) := by
  have hchildren : (crosswalk.children.flatMap (child declared)).filterMap copied? = [] := by
    refine List.filterMap_eq_nil_iff.2 fun item hitem => ?_
    obtain ⟨rule, -, hitem⟩ := List.mem_flatMap.1 hitem
    rcases List.mem_pair.1 hitem with rfl | rfl <;> rfl
  rw [recordContent, List.filterMap_append, filterMap_copied?_copies, hchildren, List.append_nil]

theorem filterMap_selected?_recordContent (crosswalk : Crosswalk) :
    (recordContent declared crosswalk).filterMap selected? =
      crosswalk.children.map fun rule => ("./" ++ rule.tag.source.qualifiedName,
        [.element rule.tag.target.qualifiedName [] (childContent declared rule)]) := by
  rw [recordContent, List.filterMap_append, filterMap_selected?_copies, List.nil_append]
  induction crosswalk.children with
  | nil => rfl
  | cons rule rest ih =>
    rw [List.flatMap_cons, List.filterMap_append, ih]
    rfl

end Outline

/-! ## Rules that are written alike -/

theorem eq_of_map_eq {α β : Type} {f : α → β} {as bs : List α}
    (hinj : ∀ a ∈ as, ∀ b ∈ bs, f a = f b → a = b) (h : as.map f = bs.map f) : as = bs := by
  induction as generalizing bs with
  | nil =>
    cases bs with
    | nil => rfl
    | cons b rest => cases h
  | cons a rest ih =>
    cases bs with
    | nil => cases h
    | cons b others =>
      obtain ⟨hab, hrest⟩ := List.cons.inj h
      rw [hinj a List.mem_cons_self b List.mem_cons_self hab]
      congr 1
      exact ih (fun x hx y hy => hinj x (List.mem_cons_of_mem a hx) y (List.mem_cons_of_mem b hy))
        hrest

/-- Every element of the rule is written with a prefix that is declared for it. -/
def Rule.Stands (declared : Declarations) (rule : Rule) : Prop :=
  ∀ element ∈ rule.elements, declared.Stands element.qualifiedName element.expanded

namespace Rule.Stands

variable {declared : Declarations} {rule other : Rule}

theorem attributes_eq (hdeclared : declared.OneToOne) (hrule : rule.Stands declared)
    (hother : other.Stands declared)
    (h : (rule.canonicalAttributes.map fun c => (c.source.qualifiedName, c.target.qualifiedName)) =
      other.canonicalAttributes.map fun c => (c.source.qualifiedName, c.target.qualifiedName)) :
    rule.attributes = other.attributes := by
  have hstands : ∀ {r : Rule}, r.Stands declared → ∀ c ∈ r.canonicalAttributes,
      declared.Stands c.source.qualifiedName c.source.expanded ∧
        declared.Stands c.target.qualifiedName c.target.expanded := by
    intro r hr c hc
    have hmem : ∀ element ∈ c.elements, element ∈ r.elements := fun element =>
      Rule.mem_elements_of_mem_attributes (Rule.mem_canonicalAttributes.1 hc)
    exact ⟨hr _ (hmem c.source List.mem_cons_self),
      hr _ (hmem c.target (List.mem_cons_of_mem _ List.mem_cons_self))⟩
  have hcanonical : rule.canonicalAttributes = other.canonicalAttributes := by
    refine eq_of_map_eq (fun a ha b hb hab => ?_) h
    obtain ⟨hsource, htarget⟩ := Prod.mk.inj hab
    obtain ⟨ha, ha'⟩ := hstands hrule a ha
    obtain ⟨hb, hb'⟩ := hstands hother b hb
    have hs := Declarations.eq_of_stands hdeclared ha hb hsource
    have ht := Declarations.eq_of_stands hdeclared ha' hb' htarget
    cases a
    cases b
    simp_all
  refine Ascending.eq_of_mem_iff fun c => ?_
  rw [← Rule.mem_canonicalAttributes, ← Rule.mem_canonicalAttributes, hcanonical]

theorem tag_eq (hdeclared : declared.OneToOne) (hrule : rule.Stands declared)
    (hother : other.Stands declared)
    (hsource : rule.tag.source.qualifiedName = other.tag.source.qualifiedName)
    (htarget : rule.tag.target.qualifiedName = other.tag.target.qualifiedName) :
    rule.tag = other.tag := by
  have hs := Declarations.eq_of_stands hdeclared (hrule _ rule.source_mem_elements)
    (hother _ other.source_mem_elements) hsource
  have ht := Declarations.eq_of_stands hdeclared (hrule _ rule.target_mem_elements)
    (hother _ other.target_mem_elements) htarget
  cases htag : rule.tag
  cases htag' : other.tag
  simp_all

/-- Child rules that make the same of the same tags are the same. -/
theorem eq_of_childContent (hdeclared : declared.OneToOne) (hrule : rule.Stands declared)
    (hother : other.Stands declared)
    (hsource : rule.tag.source.qualifiedName = other.tag.source.qualifiedName)
    (htarget : rule.tag.target.qualifiedName = other.tag.target.qualifiedName)
    (hcontent : Outline.childContent declared rule = Outline.childContent declared other) :
    rule = other := by
  have htag := tag_eq hdeclared hrule hother hsource htarget
  have hattributes : rule.attributes = other.attributes := by
    refine attributes_eq hdeclared hrule hother ?_
    rw [← Outline.filterMap_copied?_childContent declared rule, hcontent,
      Outline.filterMap_copied?_childContent]
  have htext : rule.keepsText = other.keepsText := by
    have hempty := Outline.filterMap_selected?_childContent declared rule
    rw [hcontent, Outline.filterMap_selected?_childContent] at hempty
    simpa using hempty.symm
  cases rule
  cases other
  simp_all

end Rule.Stands

end Concordance
