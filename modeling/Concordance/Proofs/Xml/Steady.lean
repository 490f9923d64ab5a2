import Concordance.Proofs.Xml.Comment
import Concordance.Proofs.Xml.Conforming

/-!
# Characters of written documents

A document is steady but for the values of its root when every word in it, from the names down to
the texts, has legal characters only and no carriage return.  Then the values of the root decide
alone whether the document has an illegal character, and unifying its line ends comes to writing it
with unified values.
-/

namespace Concordance.Xml

/-! ## Steady words -/

/-- A legal character that is no carriage return. -/
def isSteady (c : Char) : Bool :=
  Grammar.isChar c && c != '\r'

/-- A text of steady characters. -/
def Steady (text : String) : Prop :=
  ∀ c ∈ text.toList, isSteady c = true

instance (text : String) : Decidable (Steady text) :=
  List.decidableBAll (isSteady · = true) text.toList

@[simp] theorem steady_append {first second : String} :
    Steady (first ++ second) ↔ Steady first ∧ Steady second := by
  rw [Steady, String.toList_append, List.forall_mem_append]
  rfl

theorem isChar_of_isSteady {c : Char} (h : isSteady c = true) : Grammar.isChar c = true :=
  (Bool.and_eq_true_iff.1 h).1

theorem return_notMem {cs : List Char} (h : ∀ c ∈ cs, isSteady c = true) : '\r' ∉ cs := by
  intro hmem
  have hfalse := h '\r' hmem
  cases hfalse

/-- A character and its form in markup are legal together. -/
theorem isChar_escapeChar (c : Char) :
    (∀ d ∈ escapeChar c, Grammar.isChar d = true) ↔ Grammar.isChar c = true := by
  unfold escapeChar
  split
  · exact iff_of_true (List.all_eq_true.1 rfl) rfl
  · exact iff_of_true (List.all_eq_true.1 rfl) rfl
  · exact iff_of_true (List.all_eq_true.1 rfl) rfl
  · exact iff_of_true (List.all_eq_true.1 rfl) rfl
  · exact iff_of_true (List.all_eq_true.1 rfl) rfl
  · exact List.forall_mem_singleton

theorem isChar_flatMap_escapeChar (cs : List Char) :
    (∀ d ∈ cs.flatMap escapeChar, Grammar.isChar d = true) ↔
      ∀ c ∈ cs, Grammar.isChar c = true := by
  rw [List.forall_mem_flatMap]
  exact forall₂_congr fun c _ => isChar_escapeChar c

theorem steady_escape {text : String} (h : Steady text) : Steady (escape text) := by
  intro d hd
  rw [escape, String.toList_ofList] at hd
  obtain ⟨c, hc, hd⟩ := List.mem_flatMap.1 hd
  have hlegal := (isChar_escapeChar c).2 (isChar_of_isSteady (h c hc)) d hd
  have hne : c ≠ '\r' := bne_iff_ne.1 (Bool.and_eq_true_iff.1 (h c hc)).2
  have hreturn : d ≠ '\r' := fun heq => return_notMem_escapeChar hne (heq ▸ hd)
  rw [isSteady, hlegal, Bool.true_and]
  exact bne_iff_ne.2 hreturn

/-! ## Comments -/

theorem steady_commentBody {text : String} (h : Steady text) : Steady (commentBody text) := by
  have hspace : isSteady ' ' = true := by decide
  intro c hc
  rcases mem_of_mem_commentBody hc with hmem | rfl
  · exact h c hmem
  · exact hspace

/-! ## Events -/

theorem steady_attributeMarkup {a : String × String} (hkey : Steady a.1) (hvalue : Steady a.2) :
    ∀ c ∈ attributeMarkup a, isSteady c = true := by
  have hescape := steady_escape hvalue
  simp only [attributeMarkup, List.forall_mem_cons, List.forall_mem_append]
  exact ⟨by decide, hkey, by decide, by decide, hescape, by decide, List.forall_mem_nil _⟩

theorem steady_tagBody {name : String} {attributes : Attributes} (hname : Steady name)
    (hattributes : ∀ a ∈ attributes, Steady a.1 ∧ Steady a.2) :
    Steady (tagBody name attributes) := by
  intro c hc
  rw [toList_tagBody, List.mem_append] at hc
  rcases hc with hc | hc
  · exact hname c hc
  · obtain ⟨a, ha, hc⟩ := List.mem_flatMap.1 hc
    obtain ⟨hkey, hvalue⟩ := hattributes a ha
    exact steady_attributeMarkup hkey hvalue c hc

namespace Markup

mutual

/-- An item with steady names, values, comments and texts. -/
def IsSteady : Markup → Prop
  | .element name attributes content =>
    (Steady name ∧ ∀ a ∈ attributes, Steady a.1 ∧ Steady a.2) ∧ IsSteadyAll content
  | .empty name attributes => Steady name ∧ ∀ a ∈ attributes, Steady a.1 ∧ Steady a.2
  | .comment body => Steady body
  | .text content => Steady content

def IsSteadyAll : List Markup → Prop
  | [] => True
  | item :: rest => IsSteady item ∧ IsSteadyAll rest

end

theorem isSteadyAll_append {first second : List Markup} (hfirst : IsSteadyAll first)
    (hsecond : IsSteadyAll second) : IsSteadyAll (first ++ second) := by
  induction first with
  | nil => exact hsecond
  | cons item rest ih => exact ⟨hfirst.1, ih hfirst.2⟩

theorem isSteadyAll_flatMap {α : Type} {f : α → List Markup} {items : List α}
    (h : ∀ a ∈ items, IsSteadyAll (f a)) : IsSteadyAll (items.flatMap f) := by
  induction items with
  | nil => trivial
  | cons a rest ih =>
    obtain ⟨ha, hrest⟩ := List.forall_mem_cons.1 h
    rw [List.flatMap_cons]
    exact isSteadyAll_append ha (ih hrest)

mutual

theorem steady_markup_of_mem_events {item : Markup} (h : item.IsSteady) :
    ∀ event ∈ item.events, Steady event.markup := by
  cases item with
  | element name attributes content =>
    obtain ⟨⟨hname, hattributes⟩, hcontent⟩ := h
    have hbody := steady_tagBody hname hattributes
    have hevents := steady_markup_of_mem_eventsAll hcontent
    rw [events, List.forall_mem_cons, List.forall_mem_append, List.forall_mem_singleton]
    refine ⟨?_, hevents, ?_⟩
    · simp only [Event.markup, steady_append]
      exact ⟨⟨by decide, hbody⟩, by decide⟩
    · simp only [Event.markup, steady_append]
      exact ⟨⟨by decide, hname⟩, by decide⟩
  | empty name attributes =>
    have hbody := steady_tagBody h.1 h.2
    rw [events, List.forall_mem_singleton]
    simp only [Event.markup, steady_append]
    exact ⟨⟨by decide, hbody⟩, by decide⟩
  | comment body =>
    have hbody := steady_commentBody h
    rw [events, List.forall_mem_singleton]
    simp only [Event.markup, steady_append]
    exact ⟨⟨by decide, hbody⟩, by decide⟩
  | text content =>
    rw [events, List.forall_mem_singleton]
    exact steady_escape h

theorem steady_markup_of_mem_eventsAll {items : List Markup} (h : IsSteadyAll items) :
    ∀ event ∈ eventsAll items, Steady event.markup := by
  cases items with
  | nil => exact List.forall_mem_nil _
  | cons item rest =>
    rw [eventsAll, List.forall_mem_append]
    exact ⟨steady_markup_of_mem_events h.1, steady_markup_of_mem_eventsAll h.2⟩

end

end Markup

/-! ## Documents -/

theorem steady_margin (depth : Nat) : Steady (Layout.margin depth) := by
  intro c hc
  rw [Layout.margin, String.toList_append, String.toList_ofList, String.toList_ofList,
    List.mem_append] at hc
  rcases hc with hc | hc
  · rw [List.mem_singleton.1 hc]
    decide
  · rw [List.eq_of_mem_replicate hc]
    decide

/-- The layout adds nothing that is not steady. -/
theorem Layout.isSteady_of_mem_spaced {layout : Layout} {events : List Event}
    (h : ∀ event ∈ events, Steady event.markup) :
    ∀ event ∈ layout.spaced events, Steady event.markup := by
  induction events generalizing layout with
  | nil => exact List.forall_mem_nil _
  | cons event rest ih =>
    obtain ⟨hevent, hrest⟩ := List.forall_mem_cons.1 h
    rw [spaced, List.forall_mem_append, List.forall_mem_cons]
    refine ⟨?_, hevent, ih hrest⟩
    rw [lead]
    split
    · exact List.forall_mem_singleton.2 (steady_escape (steady_margin _))
    · exact List.forall_mem_nil _

namespace Markup

/-- What stands in a document before the name of its root. -/
def opening : List Char :=
  Event.declaration.markup.toList ++ ['\n', '<']

/-- What stands in a document behind the start tag of its root. -/
def remainder (name : String) (content : List Markup) : List Char :=
  (Layout.spaced ⟨1, true⟩ (eventsAll content ++ [.finish name])).flatMap fun event =>
    event.markup.toList

theorem toList_document (name : String) (attributes : Attributes) (content : List Markup) :
    (document (.element name attributes content)).toList =
      opening ++ (name.toList ++ (attributes.flatMap attributeMarkup ++
        '>' :: remainder name content)) := by
  have hstart : (Event.start name attributes).markup.toList =
      '<' :: ((name.toList ++ attributes.flatMap attributeMarkup) ++ ['>']) := by
    rw [← toList_tagBody, Event.markup, String.toList_append, String.toList_append]
    rfl
  have hmargin : (Event.text (Layout.margin 0)).markup.toList = ['\n'] := rfl
  have hspaced : Layout.initial.spaced (.declaration :: .start name attributes ::
      (eventsAll content ++ [.finish name])) =
        .declaration :: .text (Layout.margin 0) :: .start name attributes ::
          Layout.spaced ⟨1, true⟩ (eventsAll content ++ [.finish name]) := rfl
  rw [document, render, documentEvents_eq, events, Layout.toList_join_pieces, hspaced,
    List.flatMap_cons, List.flatMap_cons, List.flatMap_cons, hmargin, hstart, opening, remainder]
  simp

variable {name : String} {attributes : Attributes} {content : List Markup}

theorem isSteady_of_mem_remainder (hname : Steady name) (hcontent : IsSteadyAll content) :
    ∀ c ∈ remainder name content, isSteady c = true := by
  have hevents : ∀ event ∈ eventsAll content ++ [.finish name], Steady event.markup := by
    rw [List.forall_mem_append, List.forall_mem_singleton]
    refine ⟨steady_markup_of_mem_eventsAll hcontent, ?_⟩
    simp only [Event.markup, steady_append]
    exact ⟨⟨by decide, hname⟩, by decide⟩
  rw [remainder, List.forall_mem_flatMap]
  exact Layout.isSteady_of_mem_spaced hevents

/-- The values of the root decide whether all characters are legal. -/
theorem isChar_document_iff (hname : Steady name) (hkeys : ∀ a ∈ attributes, Steady a.1)
    (hcontent : IsSteadyAll content) :
    (∀ c ∈ (document (.element name attributes content)).toList, Grammar.isChar c = true) ↔
      ∀ a ∈ attributes, ∀ c ∈ a.2.toList, Grammar.isChar c = true := by
  have hopening : ∀ c ∈ opening, Grammar.isChar c = true := List.all_eq_true.1 rfl
  have hname' : ∀ c ∈ name.toList, Grammar.isChar c = true :=
    fun c hc => isChar_of_isSteady (hname c hc)
  have hremainder : ∀ c ∈ remainder name content, Grammar.isChar c = true :=
    fun c hc => isChar_of_isSteady (isSteady_of_mem_remainder hname hcontent c hc)
  have hbracket : Grammar.isChar '>' = true := by decide
  rw [toList_document]
  simp only [List.forall_mem_append, List.forall_mem_cons]
  constructor
  · rintro ⟨-, -, hattributes, -⟩ a ha
    have hmarkup : ∀ c ∈ attributeMarkup a, Grammar.isChar c = true :=
      fun c hc => hattributes c (List.mem_flatMap.2 ⟨a, ha, hc⟩)
    simp only [attributeMarkup, List.forall_mem_cons, List.forall_mem_append] at hmarkup
    obtain ⟨-, -, -, -, hescape, -⟩ := hmarkup
    rw [escape, String.toList_ofList] at hescape
    exact (isChar_flatMap_escapeChar a.2.toList).1 hescape
  · intro hvalues
    refine ⟨hopening, hname', ?_, hbracket, hremainder⟩
    rw [List.forall_mem_flatMap]
    intro a ha
    have hkey : ∀ c ∈ a.1.toList, Grammar.isChar c = true :=
      fun c hc => isChar_of_isSteady (hkeys a ha c hc)
    have hescape : ∀ c ∈ (escape a.2).toList, Grammar.isChar c = true := by
      rw [escape, String.toList_ofList]
      exact (isChar_flatMap_escapeChar a.2.toList).2 (hvalues a ha)
    simp only [attributeMarkup, List.forall_mem_cons, List.forall_mem_append]
    exact ⟨by decide, hkey, by decide, by decide, hescape, by decide, List.forall_mem_nil _⟩

/-- Attributes with unified line ends in their values. -/
def unifiedValues (attributes : Attributes) : Attributes :=
  attributes.map fun a => (a.1, String.ofList (lineEnds a.2.toList))

theorem lineEnds_attributes (hkeys : ∀ a ∈ attributes, Steady a.1) (rest : List Char) :
    lineEnds (attributes.flatMap attributeMarkup ++ rest) =
      (unifiedValues attributes).flatMap attributeMarkup ++ lineEnds rest := by
  induction attributes with
  | nil => rfl
  | cons a others ih =>
    obtain ⟨ha, hothers⟩ := List.forall_mem_cons.1 hkeys
    have hbefore : '\r' ∉ ' ' :: (a.1.toList ++ ['=', '"']) := by
      have hkey := return_notMem ha
      simpa using hkey
    have htext : (a :: others).flatMap attributeMarkup ++ rest =
        (' ' :: (a.1.toList ++ ['=', '"'])) ++ (a.2.toList.flatMap escapeChar ++
          '"' :: (others.flatMap attributeMarkup ++ rest)) := by
      simp [attributeMarkup, escape]
    rw [htext, lineEnds_append hbefore, lineEnds_escape, ih hothers]
    simp [unifiedValues, attributeMarkup, escape]

/-- Unifying line ends changes nothing but the values of the root. -/
theorem lineEnds_document (hname : Steady name) (hkeys : ∀ a ∈ attributes, Steady a.1)
    (hcontent : IsSteadyAll content) :
    lineEnds (document (.element name attributes content)).toList =
      (document (.element name (unifiedValues attributes) content)).toList := by
  have hopening : '\r' ∉ opening := by decide
  have hremainder := return_notMem (isSteady_of_mem_remainder hname hcontent)
  have hbracket : '>' ≠ '\r' := by decide
  rw [toList_document, toList_document, lineEnds_append hopening,
    lineEnds_append (return_notMem hname), lineEnds_attributes hkeys, lineEnds_cons hbracket,
    lineEnds_eq_self hremainder]

theorem isTag_unifiedValues (h : IsTag name attributes) :
    IsTag name (unifiedValues attributes) := by
  have hkeys : (unifiedValues attributes).map Prod.fst = attributes.map Prod.fst := by
    rw [unifiedValues, List.map_map]
    rfl
  refine ⟨h.isName, ?_, ?_⟩
  · intro a ha
    obtain ⟨b, hb, rfl⟩ := List.mem_map.1 ha
    exact h.isName_of_mem b hb
  · rw [hkeys]
    exact h.nodup

/-- A written document is read back with the values of its root read as they stand in it. -/
theorem conforming?_toUTF8_document (hreadable : Readable (.element name attributes content))
    (hname : Steady name) (hkeys : ∀ a ∈ attributes, Steady a.1)
    (hcontent : IsSteadyAll content) :
    conforming? (document (.element name attributes content)).toUTF8 =
      some (.element name (attributes.map fun a => (a.1, readValue a.2))
        (Node.normalizedAll (nodes 0 true content))) := by
  have hunified : Readable (.element name (unifiedValues attributes) content) :=
    ⟨isTag_unifiedValues hreadable.1, hreadable.2⟩
  rw [conforming?, Text.fromUTF8?_toUTF8, Option.bind_some]
  change (document? (String.ofList (lineEnds (document _).toList))).map _ = _
  rw [lineEnds_document hname hkeys hcontent, String.ofList_toList, document?_document hunified,
    Option.map_some, Node.normalized, unifiedValues, List.map_map]
  simp only [Function.comp_def, readValue, String.toList_ofList]

end Markup

end Concordance.Xml
