import Concordance.Proofs.Definition.Checks

/-!
# Written names read back

In a registry an element and its written form belong together: a text is read as an element exactly
when it is the written form of the element, with white space around it or not, and the prefix of the
element is bound to its namespace.  So the written form is read back, and two elements of one
registry with one written form are the same.  A text that is not read as an element fails at its
first colon, at its prefix or at its local name, whichever comes first.

The registries are those that calls of `register` make from the empty one or from the builtin one.
A refused call makes none, so that the registry before it is the one after it.
-/

namespace Concordance

/-! ## White space around texts -/

/-- The second text is the first one with white space around it. -/
def Padded (text padded : String) : Prop :=
  ∃ before after : String, (∀ c ∈ before.toList, Text.isSpace c = true) ∧
    (∀ c ∈ after.toList, Text.isSpace c = true) ∧ padded = before ++ text ++ after

namespace Text

theorem trimEnd_append {cs after : List Char} (h : ∀ c ∈ after, isSpace c = true) :
    trimEnd (cs ++ after) = trimEnd cs := by
  have hreverse : ∀ c ∈ after.reverse, isSpace c = true := by
    intro c hc
    exact h c (List.mem_reverse.1 hc)
  rw [trimEnd, trimEnd, List.reverse_append, List.dropWhile_append_of_pos hreverse]

/-- White space around a text is trimmed away. -/
theorem trim_of_padded {text padded : String} (h : Padded text padded) :
    trim padded = trim text := by
  obtain ⟨before, after, hbefore, hafter, rfl⟩ := h
  have hnone : after.toList.dropWhile isSpace = [] := List.dropWhile_eq_nil_iff.2 hafter
  rw [trim, trim, String.toList_append, String.toList_append, List.append_assoc,
    List.dropWhile_append_of_pos hbefore, List.dropWhile_append]
  by_cases hblank : (text.toList.dropWhile isSpace).isEmpty = true
  · rw [if_pos hblank, hnone, List.isEmpty_iff.1 hblank]
  · rw [if_neg hblank, trimEnd_append hafter]

end Text

/-! ## Splitting at the first colon -/

theorem exists_splitsAt {text : String} (h : ':' ∈ text.toList) :
    ∃ label localName, SplitsAt text label localName := by
  obtain ⟨label, localName, htext, hcolon⟩ := List.eq_append_cons_of_mem h
  refine ⟨String.ofList label, String.ofList localName, splitsAt_iff.2 ?_⟩
  rw [String.toList_ofList, String.toList_ofList]
  exact ⟨htext, hcolon⟩

theorem SplitsAt.colon_mem {text label localName : String} (h : SplitsAt text label localName) :
    ':' ∈ text.toList := by
  rw [(splitsAt_iff.1 h).1]
  exact List.mem_append_right _ List.mem_cons_self

/-- A text splits in one way only. -/
theorem SplitsAt.unique {text label localName label' localName' : String}
    (h : SplitsAt text label localName) (h' : SplitsAt text label' localName') :
    label = label' ∧ localName = localName' := by
  have hafter : ':' :: localName.toList = ':' :: localName'.toList :=
    h.dropWhile_eq.symm.trans h'.dropWhile_eq
  refine ⟨String.toList_inj.1 (h.takeWhile_eq.symm.trans h'.takeWhile_eq), ?_⟩
  exact String.toList_inj.1 (List.cons.inj hafter).2

/-- The text has no colon, or nothing stands on one side of the first one. -/
def Unsplit (text : String) : Prop :=
  ':' ∉ text.toList ∨ ∃ label localName, SplitsAt text label localName ∧
    (label = "" ∨ localName = "")

theorem unsplit_iff {text : String} :
    Unsplit text ↔
      ∀ label localName, SplitsAt text label localName → label = "" ∨ localName = "" := by
  constructor
  · rintro (hcolon | ⟨label', localName', hsplit', hempty⟩) label localName hsplit
    · exact absurd hsplit.colon_mem hcolon
    · obtain ⟨rfl, rfl⟩ := hsplit.unique hsplit'
      exact hempty
  · intro h
    by_cases hcolon : ':' ∈ text.toList
    · obtain ⟨label, localName, hsplit⟩ := exists_splitsAt hcolon
      exact Or.inr ⟨label, localName, hsplit, h label localName hsplit⟩
    · exact Or.inl hcolon

/-! ## Registries made by calls -/

namespace Registry

/-- The registries that calls make from the empty one or from the builtin one. -/
inductive Built : Registry → Prop where
  | empty : Built .empty
  | builtin : Built .builtin
  | register {registry registry' : Registry} {space : Namespace} (h : Built registry)
    (hregister : registry.register space = (.ok (), registry')) : Built registry'

variable {registry : Registry}

theorem Built.linked (h : registry.Built) : registry.Linked := by
  induction h with
  | empty => exact linked_empty
  | builtin => exact linked_builtin
  | register _ hregister ih => exact ih.register hregister

theorem Built.registerAll {registry' : Registry} {spaces : List Namespace} (h : registry.Built)
    (hregister : registry.registerAll spaces = .ok registry') : registry'.Built := by
  induction spaces generalizing registry with
  | nil =>
    cases hregister
    exact h
  | cons space rest ih =>
    obtain ⟨next, hnext, hrest⟩ := registerAll_cons_eq_ok_iff.1 hregister
    exact ih (h.register hnext) hrest

/-- The pairs of prefix and URI that a registry binds. -/
theorem Linked.binds (hlinked : registry.Linked) :
    registry.Binds (registry.toList.map fun space => (space.label, space.uri)) where
  linked := hlinked
  mem_iff label uri := by simp

/-- The registry makes the element, from a prefix and a local name. -/
def Makes (registry : Registry) (element : Element) : Prop :=
  ∃ label localName, registry.element label localName = .ok element

theorem Linked.makes_iff (hlinked : registry.Linked) {element : Element} :
    registry.Makes element ↔ element.BoundIn registry := by
  constructor
  · rintro ⟨label, localName, helement⟩
    exact hlinked.boundIn_of_element helement
  · intro h
    refine ⟨element.space.label, element.localName, ?_⟩
    rw [Registry.element, h]
    exact element.inSpace_localName

theorem Linked.boundIn_iff_mem (hlinked : registry.Linked) {element : Element} :
    element.BoundIn registry ↔ element.space ∈ registry.toList := by
  rw [Element.BoundIn, hlinked.byLabel?_eq_some_iff, mem_toList_iff]
  exact and_iff_right rfl

/-- Two elements of one registry with one written form are the same. -/
theorem eq_of_qualifiedName_eq {a b : Element} (ha : a.BoundIn registry) (hb : b.BoundIn registry)
    (h : a.qualifiedName = b.qualifiedName) : a = b := by
  have hread := resolve_qualifiedName ha ""
  rw [h, resolve_qualifiedName hb ""] at hread
  exact (Except.ok.inj hread).symm

/-! ## Reading -/

/-- The text is read as the element: trimmed, it is the written form of the element, whose prefix is
bound to its namespace. -/
structure Names (registry : Registry) (written : String) (element : Element) : Prop where
  trim_eq : Text.trim written = element.qualifiedName
  boundIn : element.BoundIn registry

theorem Names.resolve_eq_ok {written : String} {element : Element}
    (h : registry.Names written element) (place : String) :
    registry.resolve written place = .ok element := by
  have hbound : registry.byLabel? element.space.label = some element.space := h.boundIn
  rw [resolve, h.trim_eq, element.splitName?_qualifiedName]
  simp only [hbound, element.inSpace_localName]
  rfl

theorem Linked.resolve_eq_ok_iff (hlinked : registry.Linked) {written place : String}
    {element : Element} :
    registry.resolve written place = .ok element ↔ registry.Names written element := by
  constructor
  · intro h
    rw [resolve] at h
    split at h
    next => cases h
    next label localName hsplit =>
      split at h
      next => cases h
      next space hspace =>
        obtain ⟨hspaces, hlocal⟩ := Element.eq_of_inSpace (mapError_eq_ok_iff.1 h)
        have hlabel : element.space.label = label := by
          rw [hspaces]
          exact (hlinked.byLabel?_eq_some_iff.1 hspace).1
        constructor
        · rw [Element.qualifiedName, hlabel, hlocal]
          exact (splitName?_eq_some_iff.1 hsplit).1.1
        · rw [Element.BoundIn, hlabel, hspaces]
          exact hspace
  · intro h
    exact h.resolve_eq_ok place

/-- What a text is read as is not changed by white space around it. -/
theorem Names.padded {written padded : String} {element : Element}
    (h : registry.Names written element) (hpadded : Padded written padded) :
    registry.Names padded element :=
  ⟨(Text.trim_of_padded hpadded).trans h.trim_eq, h.boundIn⟩

theorem names_qualifiedName {element : Element} (h : element.BoundIn registry) :
    registry.Names element.qualifiedName element :=
  ⟨Text.trim_eq element.isSpace_of_mem_qualifiedName, h⟩

/-! ## Failing -/

/-- How a text fails to be read: at its first colon, or else at its prefix, or else at its local
name. -/
inductive Refuses (registry : Registry) (written place : String) : ResolveError → Prop where
  | colon (hsplit : Unsplit (Text.trim written)) : Refuses registry written place
      (.invalidName written)
  | label {label localName : String} (hsplit : SplitsAt (Text.trim written) label localName)
      (hlabel : label ≠ "") (hlocal : localName ≠ "") (hfree : registry.byLabel? label = none) :
      Refuses registry written place (.unknownPrefix label place)
  | localName {label localName : String} {space : Namespace}
      (hsplit : SplitsAt (Text.trim written) label localName) (hlocal : localName ≠ "")
      (hbound : registry.byLabel? label = some space) (hname : isNCName localName = false) :
      Refuses registry written place (.fault (.invalidLocalName localName))

section Failing

variable (hlinked : registry.Linked)

include hlinked

theorem Linked.byLabel?_eq_none_iff {label : String} :
    registry.byLabel? label = none ↔
      ∀ uri, (label, uri) ∉ registry.toList.map fun space => (space.label, space.uri) := by
  rw [← not_exists, ← hlinked.binds.byLabel?_isSome_iff, Option.eq_none_iff_forall_ne_some,
    not_exists]

theorem Linked.resolve_eq_error_iff {written place : String} {error : ResolveError} :
    registry.resolve written place = .error error ↔ registry.Refuses written place error := by
  rw [(hlinked.binds.decides_resolve written place).error_iff, firstFailure_singleton_iff]
  constructor
  · intro hfails
    cases hfails with
    | invalidName hsplit => exact .colon (unsplit_iff.2 hsplit)
    | unknownPrefix hsplit hlabel hlocal hfree =>
      exact .label hsplit hlabel hlocal (hlinked.byLabel?_eq_none_iff.2 hfree)
    | invalidLocalName hsplit hlocal hbound hname =>
      obtain ⟨space, hspace⟩ := hlinked.binds.byLabel?_isSome_iff.2 ⟨_, hbound⟩
      exact .localName hsplit hlocal hspace hname
  · intro hrefuses
    cases hrefuses with
    | colon hsplit => exact .invalidName (unsplit_iff.1 hsplit)
    | label hsplit hlabel hlocal hfree =>
      exact .unknownPrefix hsplit hlabel hlocal (hlinked.byLabel?_eq_none_iff.1 hfree)
    | localName hsplit hlocal hbound hname =>
      obtain ⟨uri, huri⟩ := hlinked.binds.byLabel?_isSome_iff.1 ⟨_, hbound⟩
      exact .invalidLocalName hsplit hlocal huri hname

end Failing

/-! ## Both directions -/

/-- What holds of reading and writing names in a registry: a text is read as an element exactly when
it is, trimmed, the written form of the element, which the registry makes and whose prefix and URI
are bound to each other; a written form is read back in any white space and belongs to one element
only; and a text that is not read fails at the first of its parts that is wrong. -/
structure NamesExact (registry : Registry) : Prop where
  resolve_eq_ok_iff : ∀ written place element, registry.resolve written place = .ok element ↔
    Text.trim written = element.qualifiedName ∧ registry.Makes element
  makes_iff : ∀ element, registry.Makes element ↔
    registry.byLabel? element.space.label = some element.space
  byUri?_eq : ∀ element, registry.Makes element →
    registry.byUri? element.space.uri = some element.space
  resolve_padded : ∀ element, registry.Makes element → ∀ written,
    Padded element.qualifiedName written → ∀ place, registry.resolve written place = .ok element
  eq_of_qualifiedName_eq : ∀ a b, registry.Makes a → registry.Makes b →
    a.qualifiedName = b.qualifiedName → a = b
  resolve_eq_error_iff : ∀ written place error, registry.resolve written place = .error error ↔
    registry.Refuses written place error

/-- In every registry that calls make, written names are read back as what they were written from,
and nothing else is read. -/
theorem names_exact (h : registry.Built) : registry.NamesExact := by
  have hlinked := h.linked
  constructor
  · intro written place element
    rw [hlinked.resolve_eq_ok_iff, hlinked.makes_iff]
    exact ⟨fun hnames => ⟨hnames.trim_eq, hnames.boundIn⟩, fun hnames => ⟨hnames.1, hnames.2⟩⟩
  · intro element
    exact hlinked.makes_iff
  · intro element hmakes
    exact (hlinked.byLabel?_eq_some_iff.1 (hlinked.makes_iff.1 hmakes)).2
  · intro element hmakes written hpadded place
    have hnames := names_qualifiedName (hlinked.makes_iff.1 hmakes)
    exact (hnames.padded hpadded).resolve_eq_ok place
  · intro a b ha hb
    exact eq_of_qualifiedName_eq (hlinked.makes_iff.1 ha) (hlinked.makes_iff.1 hb)
  · intro written place error
    exact hlinked.resolve_eq_error_iff

/-- A registry with a namespace that is not builtin, in which a name of that namespace is read
inside white space of several kinds. -/
theorem names_exact_terms :
    let registry := Registry.builtin.insert Definition.termSpace
    registry.Built ∧ registry.NamesExact ∧
      registry.resolve "\u2003voc:label\t\n" "mapping.parent" =
        .ok ⟨Definition.termSpace, "label", by decide⟩ := by
  intro registry
  have hbuilt : registry.Built := Built.builtin.registerAll Definition.registerAll_termSpace
  have hexact := names_exact hbuilt
  have hmem : Definition.termSpace ∈ registry.toList :=
    (mem_toList_registerAll Definition.registerAll_termSpace).2 (Or.inr List.mem_cons_self)
  have hpadded : Padded "voc:label" "\u2003voc:label\t\n" :=
    ⟨"\u2003", "\t\n", List.all_eq_true.1 (by decide), List.all_eq_true.1 (by decide), by decide⟩
  refine ⟨hbuilt, hexact, ?_⟩
  apply hexact.resolve_padded
  · exact hbuilt.linked.makes_iff.2 (hbuilt.linked.boundIn_iff_mem.2 hmem)
  · exact hpadded

end Registry

end Concordance
