import Concordance.Proofs.Stylesheet.TakenApart

/-!
# What determines a stylesheet

Two stylesheets have the same bytes exactly when they are those of crosswalks that agree, prefixes
included, in everything but whether the parent rule keeps its text, with record containers of the
same written name and URI.

That the bytes say as much is shown by reading the outline back and taking it apart; that nothing
else is said, by the stylesheet being a function of what the crosswalks agree in.
-/

namespace Concordance

open Namespace (xslUri rdfUri)
open Xml (Node)

/-! ## Crosswalks that are written alike -/

namespace Crosswalk

/-- Two crosswalks with record containers agree in everything that a stylesheet shows: in all
elements with their prefixes, in the order of the child rules, and in how the container is written
and what its URI is.  Whether the parent rule keeps its text is left open. -/
structure Agrees (a b : Crosswalk) (container other : Option Element) : Prop where
  tag_eq : a.parent.tag = b.parent.tag
  mem_attributes_iff : ∀ c, c ∈ a.parent.attributes.toList ↔ c ∈ b.parent.attributes.toList
  children_eq : a.children = b.children
  documentId_eq : a.documentId = b.documentId
  containerName_eq : a.containerName container = b.containerName other
  containerUri_eq : (containerSpace container).uri = (containerSpace other).uri

variable {a b : Crosswalk} {container other : Option Element}

/-- What two equal outlines have in common, as it is written. -/
structure WrittenAlike (a b : Crosswalk) (container other : Option Element)
    (documentId documentId' : Element) : Prop where
  declarations_eq : a.declarations container = b.declarations other
  containerName_eq : a.containerName container = b.containerName other
  source_eq : a.parent.tag.source.qualifiedName = b.parent.tag.source.qualifiedName
  target_eq : a.parent.tag.target.qualifiedName = b.parent.tag.target.qualifiedName
  documentId_eq : documentId.qualifiedName = documentId'.qualifiedName
  recordContent_eq : Outline.recordContent (a.declarations container) a =
    Outline.recordContent (b.declarations other) b

theorem writtenAlike_of_outline_eq {documentId documentId' : Element}
    (h : a.outline container documentId = b.outline other documentId') :
    a.WrittenAlike b container other documentId documentId' := by
  simp only [outline, Outline.xsl, Node.element.injEq, List.cons.injEq, Prod.mk.injEq, and_true,
    true_and, String.append_right_inj, String.append_left_inj] at h
  obtain ⟨-, hroot, -, -, -, hcontainer, -, -, hsource, -, hid, htarget, hcontent⟩ := h
  rw [← containerName_eq, ← containerName_eq] at hcontainer
  refine ⟨?_, hcontainer, hsource, htarget, hid, hcontent⟩
  refine Ascending.ext (eq_of_map_eq (fun space _ space' _ heq => ?_) hroot)
  obtain ⟨hlabel, huri⟩ := Prod.mk.inj heq
  exact Namespace.eq_of_label_of_uri ((String.append_right_inj _).1 hlabel) huri

theorem containerSpace_uri (container : Option Element) :
    (containerSpace container).uri = (container.elim ⟨rdfUri, "RDF"⟩ Element.expanded).uri := by
  cases container <;> rfl

/-- Under the declarations that both have, what is written alike is the same. -/
theorem agrees_of_writtenAlike {documentId documentId' : Element}
    (hid : a.documentId = some documentId) (hid' : b.documentId = some documentId')
    (hcheck : (a.declarations container).check (a.elements ++ container.toList) = .ok ())
    (hcheck' : (b.declarations other).check (b.elements ++ other.toList) = .ok ())
    (h : a.WrittenAlike b container other documentId documentId') :
    a.Agrees b container other := by
  have hdeclared := oneToOne_of_check hcheck
  have hstands : ∀ element ∈ b.elements ++ other.toList,
      (a.declarations container).Stands element.qualifiedName element.expanded := by
    intro element hmem
    rw [h.declarations_eq]
    exact stands_of_mem hcheck' hmem
  have hrules : ∀ rule ∈ a.parent :: a.children, rule.Stands (a.declarations container) :=
    fun rule hrule element hmem => stands_of_mem hcheck (mem_append_of_mem_rule hrule hmem)
  have hrules' : ∀ rule ∈ b.parent :: b.children, rule.Stands (a.declarations container) :=
    fun rule hrule element hmem => hstands element (mem_append_of_mem_rule hrule hmem)
  have hcontent : Outline.recordContent (a.declarations container) a =
      Outline.recordContent (a.declarations container) b := by
    rw [h.recordContent_eq, h.declarations_eq]
  refine ⟨?_, ?_, ?_, ?_, h.containerName_eq, ?_⟩
  · exact (hrules _ List.mem_cons_self).tag_eq hdeclared (hrules' _ List.mem_cons_self)
      h.source_eq h.target_eq
  · intro c
    have hcopied := congrArg (List.filterMap Outline.copied?) hcontent
    rw [Outline.filterMap_copied?_recordContent, Outline.filterMap_copied?_recordContent]
      at hcopied
    rw [(hrules _ List.mem_cons_self).attributes_eq hdeclared (hrules' _ List.mem_cons_self)
      hcopied]
  · have hselected := congrArg (List.filterMap Outline.selected?) hcontent
    rw [Outline.filterMap_selected?_recordContent, Outline.filterMap_selected?_recordContent]
      at hselected
    refine eq_of_map_eq (fun rule hrule rule' hrule' heq => ?_) hselected
    simp only [Prod.mk.injEq, String.append_right_inj, List.cons.injEq, Node.element.injEq,
      and_true, true_and] at heq
    exact (hrules rule (List.mem_cons_of_mem _ hrule)).eq_of_childContent hdeclared
      (hrules' rule' (List.mem_cons_of_mem _ hrule')) heq.1 heq.2.1 heq.2.2
  · have hmem := List.mem_append_left container.toList (mem_elements_of_documentId hid)
    have hmem' := List.mem_append_left other.toList (mem_elements_of_documentId hid')
    rw [hid, hid', Declarations.eq_of_stands hdeclared (stands_of_mem hcheck hmem)
      (hstands _ hmem') h.documentId_eq]
  · have hname := stands_container hcheck
    have hname' := stands_container hcheck'
    rw [← containerName_eq] at hname hname'
    rw [← h.declarations_eq, ← h.containerName_eq] at hname'
    rw [containerSpace_uri, containerSpace_uri, hname.eq hdeclared hname']

/-! ## Crosswalks that agree -/

/-- A record container that is left out counts as the one that is written in its place. -/
theorem declarations_none_eq {crosswalk : Crosswalk} {element : Element}
    (hname : crosswalk.containerName none = element.qualifiedName)
    (huri : rdfUri = element.space.uri) :
    crosswalk.declarations none = crosswalk.declarations (some element) := by
  refine Declarations.eq_of_byUri?_eq fun uri => ?_
  have hlookup := byUri?_declarations crosswalk none uri
  rw [byUri?_declarations crosswalk (some element)]
  rw [hlookup]
  split
  next => rfl
  next hxml =>
    by_cases hrdf : rdfUri = uri
    · rw [if_neg hxml] at hlookup
      have hdefault : (containerSpace none).uri = uri := hrdf
      have hgiven : (containerSpace (some element)).uri = uri := huri.symm.trans hrdf
      rw [if_pos hdefault] at hlookup ⊢
      rw [if_pos hgiven]
      generalize ((lastSpace? crosswalk.elements uri).or
        (if crosswalk.fallsBack ∧ uri = rdfUri then some Namespace.rdf else none)).or
          (if uri = xslUri then some Namespace.xsl else none) = found at hlookup ⊢
      cases found with
      | some space => rfl
      | none =>
        -- nothing else declares the URI, so the default prefix is written
        have hwritten : crosswalk.containerName none = "rdf" ++ ":" ++ "RDF" := by
          have hfound : (crosswalk.declarations none).byUri? Namespace.rdf.uri =
              some Namespace.rdf := by
            rw [← hrdf] at hlookup
            exact hlookup
          rw [containerName, Declarations.qualified, hfound]
          rfl
        have hlabel : "rdf" = element.space.label :=
          (eq_of_qualified_eq (by decide) (by decide) element.space.label_isName
            element.localName_isName (hwritten.symm.trans hname)).1
        have hspace : Namespace.rdf = element.space := Namespace.eq_of_label_of_uri hlabel huri
        rw [containerSpace, containerSpace, hspace]
    · have hdefault : ¬(containerSpace none).uri = uri := hrdf
      have hgiven : ¬(containerSpace (some element)).uri = uri := fun h => hrdf (huri.trans h)
      rw [if_neg hdefault, if_neg hgiven]

theorem declarations_eq_of_container {crosswalk : Crosswalk} {container other : Option Element}
    (hname : crosswalk.containerName container = crosswalk.containerName other)
    (huri : (containerSpace container).uri = (containerSpace other).uri) :
    crosswalk.declarations container = crosswalk.declarations other := by
  cases container with
  | none =>
    cases other with
    | none => rfl
    | some element => exact declarations_none_eq hname huri
  | some element =>
    cases other with
    | none => exact (declarations_none_eq hname.symm huri.symm).symm
    | some element' => rw [Element.eq_of_qualifiedName_of_uri hname huri]

theorem stylesheet_eq (crosswalk : Crosswalk) (container : Option Element) :
    crosswalk.stylesheet container =
      match crosswalk.documentId with
      | none => .error (.unidentified crosswalk.parent.tag.shown)
      | some documentId =>
        ((crosswalk.declarations container).check (crosswalk.elements ++ container.toList)).map
          fun _ => (crosswalk.checkedTemplate container documentId).root.document := by
  rw [stylesheet, template]
  cases crosswalk.documentId with
  | none => rfl
  | some documentId =>
    cases hcheck : (crosswalk.declarations container).check
        (crosswalk.elements ++ container.toList) with
    | ok => simp only [hcheck]; rfl
    | error error => simp only [hcheck]; rfl

/-- Nothing is written of whether the parent rule keeps its text. -/
theorem stylesheet_withText (crosswalk : Crosswalk) (container : Option Element)
    (keepsText : Bool) :
    ({ crosswalk with parent := crosswalk.parent.withText keepsText } : Crosswalk).stylesheet
      container = crosswalk.stylesheet container := by
  rw [stylesheet_eq, stylesheet_eq]
  rfl

theorem stylesheet_eq_of_container {crosswalk : Crosswalk} {container other : Option Element}
    {first second : String} (h : crosswalk.stylesheet container = .ok first)
    (h' : crosswalk.stylesheet other = .ok second)
    (hname : crosswalk.containerName container = crosswalk.containerName other)
    (huri : (containerSpace container).uri = (containerSpace other).uri) : first = second := by
  obtain ⟨template, htemplate, rfl⟩ := map_eq_ok_iff.1 h
  obtain ⟨template', htemplate', rfl⟩ := map_eq_ok_iff.1 h'
  obtain ⟨documentId, hid, -, rfl⟩ := template_eq_ok_iff.1 htemplate
  obtain ⟨documentId', hid', -, rfl⟩ := template_eq_ok_iff.1 htemplate'
  rw [hid] at hid'
  rw [checkedTemplate, checkedTemplate, declarations_eq_of_container hname huri, hname,
    Option.some.inj hid']

/-- Crosswalks that agree differ at most in whether the parent rule keeps its text. -/
theorem Agrees.eq (h : a.Agrees b container other) :
    a = { b with parent := b.parent.withText a.parent.keepsText } := by
  have hattributes : a.parent.attributes = b.parent.attributes :=
    Ascending.eq_of_mem_iff h.mem_attributes_iff
  have hparent : a.parent = b.parent.withText a.parent.keepsText := by
    rw [Rule.withText, ← h.tag_eq, ← hattributes]
  rw [← hparent, ← h.children_eq, ← h.documentId_eq]

/-- Two stylesheets have the same bytes exactly when their crosswalks agree, and whether the parent
rule keeps its text is without influence. -/
theorem stylesheet_determines_crosswalk {first second : String}
    (ha : a.stylesheet container = .ok first) (hb : b.stylesheet other = .ok second) :
    (first.toUTF8 = second.toUTF8 ↔ a.Agrees b container other) ∧
      ∀ keepsText, ({ a with parent := a.parent.withText keepsText } : Crosswalk).stylesheet
        container = .ok first := by
  refine ⟨⟨?_, ?_⟩, fun keepsText => (stylesheet_withText a container keepsText).trans ha⟩
  · intro hbytes
    obtain ⟨documentId, root, hreads⟩ := exists_readsAs ha
    obtain ⟨documentId', root', hreads'⟩ := exists_readsAs hb
    have hroot : root = root' := by
      have hread := hreads.ofBytes?_eq
      rw [hbytes, hreads'.ofBytes?_eq] at hread
      exact (Option.some.inj hread).symm
    have houtline : a.outline container documentId = b.outline other documentId' := by
      rw [← hreads.tidy_eq, ← hreads'.tidy_eq, hroot]
    exact agrees_of_writtenAlike hreads.documentId_eq hreads'.documentId_eq hreads.check_eq
      hreads'.check_eq (writtenAlike_of_outline_eq houtline)
  · intro hagrees
    have hsame : b.stylesheet container = .ok first := by
      rw [← stylesheet_withText b container a.parent.keepsText, ← hagrees.eq]
      exact ha
    have hname : b.containerName container = b.containerName other :=
      calc b.containerName container = a.containerName container := by rw [hagrees.eq]; rfl
        _ = b.containerName other := hagrees.containerName_eq
    rw [stylesheet_eq_of_container hsame hb hname hagrees.containerUri_eq]

/-- The crosswalk of concepts, where the parent rule keeps its text as well. -/
def conceptsWithText : Crosswalk :=
  { concepts with parent := concepts.parent.withText true }

/-- The record container that counts where none is given. -/
def rdfContainer : Element :=
  ⟨Namespace.rdf, "RDF", by decide⟩

theorem exists_stylesheet_conceptsWithText :
    ∃ text, conceptsWithText.stylesheet (some rdfContainer) = .ok text := by
  have hcheck : (concepts.declarations (some rdfContainer)).check
      (concepts.elements ++ [rdfContainer]) = .ok () := by
    refine (check_declarations_eq_ok_iff concepts (some rdfContainer)).2 ⟨?_, ?_, ?_, ?_⟩
    · decide
    · decide
    · decide
    · decide
  have htemplate := template_eq_ok_iff.2 ⟨_, rfl, hcheck, rfl⟩
  rw [conceptsWithText, stylesheet_withText]
  exact ⟨_, map_eq_ok_iff.2 ⟨_, htemplate, rfl⟩⟩

theorem concepts_determined :
    ∃ first second, concepts.stylesheet none = .ok first ∧
      conceptsWithText.stylesheet (some rdfContainer) = .ok second ∧
        (first.toUTF8 = second.toUTF8 ↔
          concepts.Agrees conceptsWithText none (some rdfContainer)) ∧
        ∀ keepsText, ({ concepts with parent := concepts.parent.withText keepsText } :
          Crosswalk).stylesheet none = .ok first := by
  obtain ⟨first, hfirst⟩ := exists_stylesheet_concepts
  obtain ⟨second, hsecond⟩ := exists_stylesheet_conceptsWithText
  exact ⟨first, second, hfirst, hsecond, stylesheet_determines_crosswalk hfirst hsecond⟩

end Crosswalk

end Concordance
