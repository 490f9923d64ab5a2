import Concordance.Proofs.Stylesheet.Determined

/-!
# Crosswalks that say the same

What a crosswalk says does not depend on its prefixes, but how its stylesheet is written does.  Two
crosswalks that say the same have the same stylesheet exactly when they write each namespace with
the same prefix: then they are one crosswalk, in whatever order it was put together, and otherwise
their stylesheets declare different prefixes.
-/

namespace Concordance

/-! ## What prefixes leave open -/

theorem Element.eq_of_expanded_of_label {a b : Element} (hexpanded : a.expanded = b.expanded)
    (hlabel : a.space.label = b.space.label) : a = b := by
  obtain ⟨huri, hlocal⟩ := ExpandedName.mk.inj hexpanded
  have hname : a.qualifiedName = b.qualifiedName := by
    rw [qualifiedName, qualifiedName, hlabel, hlocal]
  exact eq_of_qualifiedName_of_uri hname huri

/-- Elements of the one list are written with the same prefixes as those of the other that are of
the same namespaces. -/
def SamePrefixes (elements others : List Element) : Prop :=
  ∀ element ∈ elements, ∀ other ∈ others, element.space.uri = other.space.uri →
    element.space.label = other.space.label

namespace SamePrefixes

variable {elements others : List Element}

theorem mono (h : SamePrefixes elements others) {some some' : List Element}
    (hsome : some ⊆ elements) (hsome' : some' ⊆ others) : SamePrefixes some some' :=
  fun element hmem other hmem' => h element (hsome hmem) other (hsome' hmem')

theorem eq_of_expanded (h : SamePrefixes elements others) {a b : Element} (ha : a ∈ elements)
    (hb : b ∈ others) (hexpanded : a.expanded = b.expanded) : a = b :=
  Element.eq_of_expanded_of_label hexpanded
    (h a ha b hb (congrArg ExpandedName.uri hexpanded))

end SamePrefixes

theorem Correspondence.eq_of_expanded {c d : Correspondence}
    (h : SamePrefixes c.elements d.elements) (hexpanded : c.expanded = d.expanded) : c = d := by
  obtain ⟨hsource, htarget⟩ := Prod.mk.inj hexpanded
  have hsources : c.source = d.source := h.eq_of_expanded (by simp [elements])
    (by simp [elements]) hsource
  have htargets : c.target = d.target := h.eq_of_expanded (by simp [elements])
    (by simp [elements]) htarget
  cases c
  cases d
  simp_all

theorem Rule.eq_of_expanded {rule other : Rule} (h : SamePrefixes rule.elements other.elements)
    (hexpanded : rule.expanded = other.expanded) : rule = other := by
  obtain ⟨htag, hrest⟩ := Prod.mk.inj hexpanded
  obtain ⟨hattributes, htext⟩ := Prod.mk.inj hrest
  have htags : rule.tag = other.tag := by
    apply Correspondence.eq_of_expanded _ htag
    exact h.mono (List.subset_append_left _ _) (List.subset_append_left _ _)
  have hsets : rule.attributes = other.attributes := by
    apply Ascending.ext
    refine eq_of_map_eq (fun c hc d hd heq => ?_) hattributes
    apply Correspondence.eq_of_expanded _ heq
    apply h.mono
    · exact fun element hmem => mem_elements_of_mem_attributes hc hmem
    · exact fun element hmem => mem_elements_of_mem_attributes hd hmem
  cases rule
  cases other
  simp_all

namespace Crosswalk

variable {a b : Crosswalk} {container : Option Element}

/-- Crosswalks that say the same with the same prefixes are the same. -/
theorem eq_of_same (hsame : a.same b = true) (h : SamePrefixes a.elements b.elements) : a = b := by
  obtain ⟨hparent, hrest⟩ := Prod.mk.inj (beq_iff_eq.mp hsame)
  obtain ⟨hchildren, hid⟩ := Prod.mk.inj hrest
  have hrules : ∀ rule ∈ a.parent :: a.children, ∀ other ∈ b.parent :: b.children,
      rule.expanded = other.expanded → rule = other := by
    intro rule hrule other hother
    apply Rule.eq_of_expanded
    apply h.mono
    · exact fun element hmem => mem_elements_of_mem_rule hrule hmem
    · exact fun element hmem => mem_elements_of_mem_rule hother hmem
  have hparents : a.parent = b.parent :=
    hrules _ List.mem_cons_self _ List.mem_cons_self hparent
  have hlists : a.children = b.children := by
    refine eq_of_map_eq (fun rule hrule other hother heq => ?_) hchildren
    exact hrules rule (List.mem_cons_of_mem _ hrule) other (List.mem_cons_of_mem _ hother) heq
  have hids : a.documentId = b.documentId := by
    cases hfirst : a.documentId with
    | none =>
      cases hsecond : b.documentId with
      | none => rfl
      | some other => simp [hfirst, hsecond] at hid
    | some element =>
      cases hsecond : b.documentId with
      | none => simp [hfirst, hsecond] at hid
      | some other =>
        have hexpanded : element.expanded = other.expanded := by
          simpa [hfirst, hsecond] using hid
        rw [h.eq_of_expanded (mem_elements_of_documentId hfirst)
          (mem_elements_of_documentId hsecond) hexpanded]
  cases a
  cases b
  simp_all

/-! ## What stylesheets show of prefixes -/

/-- In a crosswalk that passed its checks every element has the prefix that goes with its URI. -/
theorem label_eq_prefixOf
    (hcheck : (a.declarations container).check (a.elements ++ container.toList) = .ok ())
    {element : Element} (hmem : element ∈ a.elements) :
    element.space.label = (a.declarations container).prefixOf element.space.uri := by
  have hstands := stands_of_mem hcheck (List.mem_append_left container.toList hmem)
  exact (eq_of_qualified_eq element.space.label_isName element.localName_isName
    hstands.isNCName_prefixOf hstands.isNCName_localName hstands.written_eq).1

/-- Stylesheets with the same bytes are written with the same prefixes. -/
theorem samePrefixes_of_toUTF8_eq {first second : String}
    (ha : a.stylesheet container = .ok first) (hb : b.stylesheet container = .ok second)
    (hbytes : first.toUTF8 = second.toUTF8) : SamePrefixes a.elements b.elements := by
  obtain ⟨documentId, root, hreads⟩ := exists_readsAs ha
  obtain ⟨documentId', root', hreads'⟩ := exists_readsAs hb
  have hroot : root = root' := by
    have hread := hreads.ofBytes?_eq
    rw [hbytes, hreads'.ofBytes?_eq] at hread
    exact (Option.some.inj hread).symm
  have houtline : a.outline container documentId = b.outline container documentId' := by
    rw [← hreads.tidy_eq, ← hreads'.tidy_eq, hroot]
  have hdeclared := (writtenAlike_of_outline_eq houtline).declarations_eq
  intro element hmem other hmem' huri
  rw [label_eq_prefixOf hreads.check_eq hmem, label_eq_prefixOf hreads'.check_eq hmem', hdeclared,
    huri]

/-- A crosswalk of terms whose namespace is written with the given prefix. -/
def termsUnder (label : String) (hlabel : isNCName label = true) : Crosswalk where
  parent := .ofTag ⟨⟨⟨label, "http://example.org/terms#", hlabel, by decide⟩, "Term", by decide⟩,
    concepts.parent.tag.source⟩
  children := []
  documentId := concepts.documentId

theorem isOk_stylesheet_terms :
    ((termsUnder "a" (by decide)).stylesheet none).isOk = true ∧
      ((termsUnder "b" (by decide)).stylesheet none).isOk = true := by
  decide +kernel

/-- Crosswalks that say the same have stylesheets with the same bytes exactly when they write each
namespace with the same prefix. -/
theorem stylesheet_eq_iff_samePrefixes {first second : String} (hsame : a.same b = true)
    (ha : a.stylesheet container = .ok first) (hb : b.stylesheet container = .ok second) :
    first.toUTF8 = second.toUTF8 ↔ SamePrefixes a.elements b.elements := by
  constructor
  · exact samePrefixes_of_toUTF8_eq ha hb
  · intro hprefixes
    rw [eq_of_same hsame hprefixes, hb] at ha
    rw [Except.ok.inj ha]

/-- One crosswalk under two prefixes has two stylesheets, which only their prefixes tell apart. -/
theorem terms_eq_iff_samePrefixes :
    ∃ first second, (termsUnder "a" (by decide)).same (termsUnder "b" (by decide)) = true ∧
      (termsUnder "a" (by decide)).stylesheet none = .ok first ∧
      (termsUnder "b" (by decide)).stylesheet none = .ok second ∧
      (first.toUTF8 = second.toUTF8 ↔
        SamePrefixes (termsUnder "a" (by decide)).elements
          (termsUnder "b" (by decide)).elements) := by
  have hsame : (termsUnder "a" (by decide)).same (termsUnder "b" (by decide)) = true := by decide
  obtain ⟨first, hfirst⟩ := exists_eq_ok_of_isOk isOk_stylesheet_terms.1
  obtain ⟨second, hsecond⟩ := exists_eq_ok_of_isOk isOk_stylesheet_terms.2
  exact ⟨first, second, hsame, hfirst, hsecond,
    stylesheet_eq_iff_samePrefixes hsame hfirst hsecond⟩

/-- Crosswalks may say the same and still have different stylesheets. -/
theorem same_but_written_apart :
    ∃ first second, (termsUnder "a" (by decide)).same (termsUnder "b" (by decide)) = true ∧
      (termsUnder "a" (by decide)).stylesheet none = .ok first ∧
      (termsUnder "b" (by decide)).stylesheet none = .ok second ∧
      first.toUTF8 ≠ second.toUTF8 := by
  obtain ⟨first, hfirst⟩ := exists_eq_ok_of_isOk isOk_stylesheet_terms.1
  obtain ⟨second, hsecond⟩ := exists_eq_ok_of_isOk isOk_stylesheet_terms.2
  refine ⟨first, second, by decide, hfirst, hsecond, fun hbytes => ?_⟩
  have hprefixes := samePrefixes_of_toUTF8_eq hfirst hsecond hbytes
  have hlabel := hprefixes _ (mem_elements_of_mem_rule List.mem_cons_self
    (Rule.source_mem_elements _)) _ (mem_elements_of_mem_rule List.mem_cons_self
    (Rule.source_mem_elements _)) rfl
  exact absurd hlabel (by decide)

end Crosswalk

end Concordance
