import Concordance.Proofs.Stylesheet.Names

/-!
# Every name is bound and every binding is used

The names that a stylesheet is meant to use are in namespaces that it declares, and each of these
namespaces is that of some name.  So its names resolve to what is meant under the bindings of its
root, and no binding is missing or in excess.
-/

namespace Concordance

open Namespace (xmlUri xslUri rdfUri skosUri)

namespace Crosswalk

variable {crosswalk : Crosswalk} {container : Option Element}

/-! ## The namespaces of the names -/

theorem mem_meant_of_mem_copies {rule : Rule}
    (hrule : rule ∈ crosswalk.parent :: crosswalk.children) {documentId : Element}
    {name : ExpandedName} (h : name ∈ Meant.copies rule) :
    name ∈ crosswalk.meant container documentId := by
  rw [meant, List.mem_append, List.mem_append]
  rcases List.mem_cons.1 hrule with rfl | hrule
  · exact Or.inl (Or.inr h)
  · refine Or.inr (List.mem_flatMap.2 ⟨rule, hrule, ?_⟩)
    simp [Meant.child, h]

theorem mem_meant_of_mem_rule {rule : Rule}
    (hrule : rule ∈ crosswalk.parent :: crosswalk.children) {documentId element : Element}
    (h : element ∈ rule.elements) : element.expanded ∈ crosswalk.meant container documentId := by
  rcases List.mem_append.1 h with h | h
  · rw [meant, List.mem_append, List.mem_append]
    rcases List.mem_cons.1 hrule with rfl | hrule
    · refine Or.inl (Or.inl ?_)
      rcases List.mem_pair.1 h with rfl | rfl <;> simp
    · refine Or.inr (List.mem_flatMap.2 ⟨rule, hrule, ?_⟩)
      rcases List.mem_pair.1 h with rfl | rfl <;> simp [Meant.child]
  · obtain ⟨c, hc, h⟩ := List.mem_flatMap.1 h
    refine mem_meant_of_mem_copies hrule ?_
    refine List.mem_flatMap.2 ⟨c, Rule.mem_canonicalAttributes.2 hc, ?_⟩
    rcases List.mem_pair.1 h with rfl | rfl <;> simp [Meant.filled]

theorem expanded_mem_meant {documentId : Element} (hid : crosswalk.documentId = some documentId)
    {element : Element} (h : element ∈ crosswalk.elements ++ container.toList) :
    element.expanded ∈ crosswalk.meant container documentId := by
  rcases List.mem_append.1 h with h | h
  · rcases List.mem_append.1 h with h | h
    · rcases List.mem_append.1 h with h | h
      · exact mem_meant_of_mem_rule List.mem_cons_self h
      · obtain ⟨rule, hrule, h⟩ := List.mem_flatMap.1 h
        exact mem_meant_of_mem_rule (List.mem_cons_of_mem _ hrule) h
    · rw [hid] at h
      rw [List.mem_singleton.1 h]
      simp [meant]
  · rw [Option.mem_toList] at h
    simp [meant, Option.mem_def.1 h]

/-- Every declared namespace is that of some name. -/
theorem exists_mem_meant_of_mem_declarations {documentId : Element}
    (hid : crosswalk.documentId = some documentId) {space : Namespace}
    (h : space ∈ (crosswalk.declarations container).toList) :
    ∃ name ∈ crosswalk.meant container documentId, name.uri = space.uri := by
  have hspace := mem_bindings_of_byUri?_eq_some (Declarations.byUri?_uri_of_mem h)
  rcases mem_bindings_iff.1 hspace with ⟨-, element, hmem, rfl⟩ | ⟨⟨-, hneeds⟩, rfl⟩ | ⟨-, rfl⟩
  · exact ⟨element.expanded, expanded_mem_meant hid hmem, rfl⟩
  · rcases hneeds with rfl | hfalls
    · exact ⟨⟨rdfUri, "RDF"⟩, by simp [meant], rfl⟩
    · obtain ⟨rule, hrule, hemitted⟩ := List.any_eq_true.1 hfalls
      refine ⟨⟨rdfUri, "resource"⟩, ?_, rfl⟩
      refine List.mem_append_right _ (List.mem_flatMap.2 ⟨rule, hrule, ?_⟩)
      simp [Meant.child, Meant.fallback, Meant.filled, hemitted]
  · exact ⟨Meant.xsl "stylesheet", by simp [meant], rfl⟩

theorem bound_expanded {element : Element} (h : element ∈ crosswalk.elements ++ container.toList) :
    (crosswalk.declarations container).Bound element.expanded :=
  byUri?_isSome_of_mem h

theorem bound_xsl (localName : String) :
    (crosswalk.declarations container).Bound (Meant.xsl localName) :=
  fun _ => byUri?_xslUri_isSome crosswalk container

theorem bound_of_mem_filled {tested selected : List ExpandedName} {target : ExpandedName}
    (htested : ∀ name ∈ tested, (crosswalk.declarations container).Bound name)
    (htarget : (crosswalk.declarations container).Bound target)
    (hselected : ∀ name ∈ selected, (crosswalk.declarations container).Bound name) :
    ∀ name ∈ Meant.filled tested target selected,
      (crosswalk.declarations container).Bound name := by
  rw [Meant.filled, List.cons_append, List.forall_mem_cons, List.forall_mem_append]
  refine ⟨bound_xsl _, htested, ?_⟩
  exact List.forall_mem_cons.2 ⟨bound_xsl _, List.forall_mem_cons.2 ⟨htarget,
    List.forall_mem_cons.2 ⟨bound_xsl _, hselected⟩⟩⟩

theorem bound_of_mem_copies {rule : Rule} (hrule : rule ∈ crosswalk.parent :: crosswalk.children) :
    ∀ name ∈ Meant.copies rule, (crosswalk.declarations container).Bound name := by
  intro name hname
  obtain ⟨c, hc, hname⟩ := List.mem_flatMap.1 hname
  have hmem {element : Element} (h : element ∈ c.elements) :
      element ∈ crosswalk.elements ++ container.toList :=
    mem_append_of_mem_canonicalAttributes hrule hc h
  have hsource := bound_expanded (hmem (List.mem_cons_self))
  have htarget := bound_expanded (hmem (List.mem_cons_of_mem _ List.mem_cons_self))
  refine bound_of_mem_filled ?_ htarget ?_ name hname
  · exact List.forall_mem_singleton.2 hsource
  · exact List.forall_mem_singleton.2 hsource

theorem bound_of_mem_fallback {rule : Rule} (hrule : rule ∈ crosswalk.children) :
    ∀ name ∈ Meant.fallback rule, (crosswalk.declarations container).Bound name := by
  rw [Meant.fallback]
  cases hcase : rule.fallback with
  | notApplicable => exact List.forall_mem_nil _
  | deferred explicit => exact List.forall_mem_nil _
  | emitted guarded =>
    have hrdf (localName : String) :
        (crosswalk.declarations container).Bound ⟨rdfUri, localName⟩ :=
      fun _ => byUri?_rdfUri_isSome (Or.inr (fallsBack_of_mem hrule hcase))
    have hskos (localName : String) :
        (crosswalk.declarations container).Bound ⟨skosUri, localName⟩ :=
      fun _ => byUri?_skosUri_isSome hrule hcase
    refine bound_of_mem_filled ?_ (hrdf "resource") ?_
    · rw [List.forall_mem_append]
      refine ⟨?_, List.forall_mem_cons.2 ⟨hskos _, List.forall_mem_singleton.2 (hrdf _)⟩⟩
      split
      · exact List.forall_mem_nil _
      · exact List.forall_mem_singleton.2 (hrdf _)
    · exact List.forall_mem_cons.2 ⟨hskos _, List.forall_mem_cons.2 ⟨hrdf _,
        List.forall_mem_singleton.2 (hrdf _)⟩⟩

theorem bound_of_mem_child {rule : Rule} (hrule : rule ∈ crosswalk.children) :
    ∀ name ∈ Meant.child rule, (crosswalk.declarations container).Bound name := by
  have hrules := List.mem_cons_of_mem crosswalk.parent hrule
  have htexts : ∀ name ∈ Meant.texts rule, (crosswalk.declarations container).Bound name := by
    rw [Meant.texts]
    split
    · simp only [List.forall_mem_cons]
      exact ⟨bound_xsl _, bound_xsl _, bound_xsl _, bound_xsl _, List.forall_mem_nil _⟩
    · exact List.forall_mem_nil _
  simp only [Meant.child, List.forall_mem_cons, List.forall_mem_append]
  refine ⟨bound_xsl _, ?_, ?_, ⟨bound_of_mem_copies hrules, bound_of_mem_fallback hrule⟩, htexts⟩
  · exact bound_expanded (mem_append_of_mem_rule hrules rule.source_mem_elements)
  · exact bound_expanded (mem_append_of_mem_rule hrules rule.target_mem_elements)

/-- Every name is in a namespace that is declared, or in that of XML. -/
theorem bound_of_mem_meant {documentId : Element} (hid : crosswalk.documentId = some documentId) :
    ∀ name ∈ crosswalk.meant container documentId,
      (crosswalk.declarations container).Bound name := by
  have hroot : (crosswalk.declarations container).Bound
      (container.elim ⟨rdfUri, "RDF"⟩ Element.expanded) := by
    cases container with
    | none => exact fun _ => byUri?_rdfUri_isSome (Or.inl rfl)
    | some element => exact bound_expanded (by simp)
  have hrules : crosswalk.parent ∈ crosswalk.parent :: crosswalk.children := List.mem_cons_self
  simp only [meant, List.forall_mem_append, List.forall_mem_cons]
  refine ⟨⟨⟨bound_xsl _, bound_xsl _, bound_xsl _, bound_xsl _, hroot, bound_xsl _, ?_, bound_xsl _,
    ?_, ?_, List.forall_mem_nil _⟩, bound_of_mem_copies hrules⟩, ?_⟩
  · exact bound_expanded (mem_append_of_mem_rule hrules crosswalk.parent.source_mem_elements)
  · exact bound_expanded (List.mem_append_left _ (mem_elements_of_documentId hid))
  · exact bound_expanded (mem_append_of_mem_rule hrules crosswalk.parent.target_mem_elements)
  · intro name hname
    obtain ⟨rule, hrule, hname⟩ := List.mem_flatMap.1 hname
    exact bound_of_mem_child hrule name hname

/-! ## Soundness of the names -/

/-- Among items with different keys, one item has the key of a given one. -/
theorem length_filter_key {α : Type} {key : α → String} {items : List α}
    (hnodup : (items.map key).Nodup) {item : α} (hmem : item ∈ items) :
    (items.filter (key · == key item)).length = 1 := by
  rw [← List.countP_eq_length_filter]
  have hcount := List.count_eq_one_of_mem hnodup (List.mem_map_of_mem hmem)
  rw [List.count, List.countP_map] at hcount
  exact hcount

theorem bindings_outline (crosswalk : Crosswalk) (container : Option Element)
    (documentId : Element) :
    (crosswalk.outline container documentId).bindings =
      (crosswalk.declarations container).bindings := by
  rw [outline, Outline.xsl, Xml.Node.bindings, Declarations.filterMap_binding?]

/-- What is true of the names of a stylesheet under the bindings of its root: they resolve to the
names that are meant; each prefix is bound once, but for that of XML, which is never bound; each
bound prefix is used; and every namespace that is looked up is declared. -/
structure NamesBound (crosswalk : Crosswalk) (container : Option Element) (documentId : Element)
    (bindings names : List (String × String)) : Prop where
  resolve?_eq : names.map (Xml.resolve? bindings) =
    (crosswalk.meant container documentId).map some
  bound_once : ∀ name ∈ names,
    name.1 = "xml" ∨ (bindings.filter (·.1 == name.1)).length = 1
  used : ∀ bound ∈ bindings, ∃ name ∈ names, name.1 = bound.1
  xsl_once : (bindings.filter (·.2 == xslUri)).length = 1
  xml_never : ∀ bound ∈ bindings, bound.1 ≠ "xml" ∧ bound.2 ≠ xmlUri
  declared : ∀ name ∈ crosswalk.meant container documentId, name.uri ≠ xmlUri →
    ((crosswalk.declarations container).byUri? name.uri).isSome

theorem namesBound
    (hcheck : (crosswalk.declarations container).check
      (crosswalk.elements ++ container.toList) = .ok ())
    {documentId : Element} (hid : crosswalk.documentId = some documentId) :
    crosswalk.NamesBound container documentId (crosswalk.declarations container).bindings
      ((crosswalk.meant container documentId).map (crosswalk.declarations container).pair) := by
  have hdeclared := oneToOne_of_check hcheck
  have hbound : ∀ name ∈ crosswalk.meant container documentId,
      (crosswalk.declarations container).Bound name := bound_of_mem_meant hid
  have hlabels' : ((crosswalk.declarations container).bindings.map Prod.fst).Nodup := by
    rw [Declarations.bindings, List.map_map, List.Nodup, List.pairwise_map]
    exact hdeclared.label_ne
  have huris : ((crosswalk.declarations container).bindings.map Prod.snd).Nodup := by
    rw [Declarations.bindings, List.map_map, List.Nodup, List.pairwise_map]
    exact (crosswalk.declarations container).pairwise_uri_ne
  constructor
  case resolve?_eq =>
    rw [List.map_map]
    refine List.map_congr_left fun name hname => ?_
    exact Declarations.resolve?_pair hdeclared (hbound name hname)
  case bound_once =>
    intro pair hpair
    obtain ⟨name, hname, rfl⟩ := List.mem_map.1 hpair
    by_cases hxml : name.uri = xmlUri
    · left
      rw [Declarations.pair, Declarations.prefixOf, if_pos hxml]
    · right
      obtain ⟨space, hspace⟩ := Option.isSome_iff_exists.1 (hbound name hname hxml)
      have hmem : (space.label, space.uri) ∈ (crosswalk.declarations container).bindings :=
        List.mem_map_of_mem (Declarations.byUri?_eq_some_iff.1 hspace).1
      rw [Declarations.pair, Declarations.prefixOf_eq hxml hspace]
      have hone := length_filter_key hlabels' hmem
      exact hone
  case used =>
    intro bound hmem
    obtain ⟨space, hspace, rfl⟩ := List.mem_map.1 hmem
    obtain ⟨name, hname, huri⟩ := exists_mem_meant_of_mem_declarations hid hspace
    refine ⟨_, List.mem_map_of_mem hname, ?_⟩
    rw [Declarations.pair, huri]
    exact Declarations.prefixOf_eq (uri_ne_xmlUri_of_mem hspace)
      (Declarations.byUri?_uri_of_mem hspace)
  case xsl_once =>
    obtain ⟨space, hspace⟩ := Option.isSome_iff_exists.1
      (crosswalk.byUri?_xslUri_isSome container)
    obtain ⟨hspace, huri⟩ := Declarations.byUri?_eq_some_iff.1 hspace
    have hmem : (space.label, space.uri) ∈ (crosswalk.declarations container).bindings :=
      List.mem_map_of_mem hspace
    have hone := length_filter_key huris hmem
    rw [← huri]
    exact hone
  case xml_never =>
    intro bound hmem
    obtain ⟨space, hspace, rfl⟩ := List.mem_map.1 hmem
    exact ⟨fun h => hdeclared.not_reserved space hspace (Or.inl h), uri_ne_xmlUri_of_mem hspace⟩
  case declared => exact hbound

/-- Under the bindings of its root, every name of a stylesheet stands for the name that is meant,
and no binding is left out or in excess. -/
theorem stylesheet_names_bound {text : String} (h : crosswalk.stylesheet container = .ok text) :
    ∃ documentId root names, crosswalk.documentId = some documentId ∧
      Xml.ofBytes? text.toUTF8 = some root ∧ root.names? = some names ∧
        crosswalk.NamesBound container documentId root.bindings names := by
  obtain ⟨documentId, root, hreads⟩ := exists_readsAs h
  have hnames := says_outline hreads.check_eq hreads.documentId_eq
  rw [← hreads.tidy_eq, Xml.names?_tidy] at hnames
  have hbindings : root.bindings = (crosswalk.declarations container).bindings := by
    rw [← Xml.bindings_tidy, hreads.tidy_eq, bindings_outline]
  refine ⟨documentId, root, _, hreads.documentId_eq, hreads.ofBytes?_eq, hnames, ?_⟩
  rw [hbindings]
  exact namesBound hreads.check_eq hreads.documentId_eq

theorem concepts_names_bound :
    ∃ text, concepts.stylesheet none = .ok text ∧
      ∃ documentId root names, concepts.documentId = some documentId ∧
        Xml.ofBytes? text.toUTF8 = some root ∧ root.names? = some names ∧
          concepts.NamesBound none documentId root.bindings names := by
  obtain ⟨text, h⟩ := exists_stylesheet_concepts
  exact ⟨text, h, stylesheet_names_bound h⟩

end Crosswalk

end Concordance
