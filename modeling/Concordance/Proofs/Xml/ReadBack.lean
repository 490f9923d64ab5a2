import Concordance.Proofs.Text.Encoding
import Concordance.Proofs.Xml.Pieces
import Concordance.Proofs.Xml.Scope

/-!
# Reading written documents back

Written markup is read back to the tree that it was written from, with the white space of the
layout between the items.  The way leads through the events: the writer gives events with matching
tags, the layout adds a text of white space before most of them, the text of these events is read
back event by event, and the events build the tree.
-/

namespace Concordance.Xml

/-! ## Lists of events -/

/-- Events that can be read back one after another. -/
def ReadableEvents : List Event → Prop
  | [] => True
  | event :: rest =>
    event.Readable ∧ (event.isText = true → ∀ next ∈ rest.head?, next.isText = false) ∧
      ReadableEvents rest

theorem exists_markup_cons {event : Event} (h : event.isText = false) :
    ∃ cs, event.markup.toList = '<' :: cs := by
  cases event with
  | declaration => exact ⟨_, rfl⟩
  | start name attributes =>
    exact ⟨(tagBody name attributes).toList ++ ['>'], by simp [Event.markup]⟩
  | finish name => exact ⟨'/' :: name.toList ++ ['>'], by simp [Event.markup]⟩
  | empty name attributes =>
    exact ⟨(tagBody name attributes).toList ++ ['/', '>'], by simp [Event.markup]⟩
  | comment body =>
    exact ⟨'!' :: '-' :: '-' :: body.toList ++ ['-', '-', '>'], by simp [Event.markup]⟩
  | text content => cases h

theorem events?_flatMap_markup {events : List Event} (h : ReadableEvents events) :
    events? (events.flatMap fun event => event.markup.toList) = some events := by
  induction events with
  | nil => simp [events?]
  | cons event rest ih =>
    obtain ⟨hevent, hnext, hrest⟩ := h
    have hstop : event.isText = true →
        ∀ c ∈ (rest.flatMap fun event => event.markup.toList).head?, c = '<' := by
      intro htext c hc
      cases rest with
      | nil => simp at hc
      | cons next others =>
        obtain ⟨cs, hcs⟩ := exists_markup_cons (hnext htext next (by simp))
        simpa [hcs, eq_comm] using hc
    have hread := event?_markup hevent hstop
    have hne := markup_ne_nil hevent
    rw [List.flatMap_cons, events?, if_neg (by simp [hne]), hread]
    have hlength : (rest.flatMap fun event => event.markup.toList).length <
        (event.markup.toList ++ rest.flatMap fun event => event.markup.toList).length := by
      have := List.length_pos_iff.2 hne
      rw [List.length_append]
      omega
    simp only [if_pos hlength, ih hrest, Option.map_some]

/-! ## Layout -/

namespace Layout

/-- The text of white space that stands before an event, if any. -/
def lead (layout : Layout) (event : Event) : List Event :=
  if layout.breaks && !event.isText then [.text (margin (layout.depthOf event))] else []

/-- The events with the white space of the layout as events of their own. -/
def spaced : Layout → List Event → List Event
  | _, [] => []
  | layout, event :: rest => layout.lead event ++ event :: spaced (layout.after event) rest

theorem escape_margin (depth : Nat) : escape (margin depth) = margin depth := by
  have hspaces : ∀ n, (List.replicate n ' ').flatMap escapeChar = List.replicate n ' ' := by
    intro n
    induction n with
    | zero => rfl
    | succ n ih => rw [List.replicate_succ, List.flatMap_cons, ih]; rfl
  have hbreak : ['\n'].flatMap escapeChar = ['\n'] := rfl
  have htext : (margin depth).toList = ['\n'] ++ List.replicate (2 * depth) ' ' := by
    rw [margin, String.toList_append, String.toList_ofList, String.toList_ofList]
  rw [escape, htext, List.flatMap_append, hspaces, hbreak, ← htext, String.ofList_toList]

theorem place_eq (layout : Layout) (event : Event) :
    layout.place event =
      (if layout.breaks && !event.isText then margin (layout.depthOf event) else "") ++
        event.markup := by
  cases event with
  | text content => simp [place, Event.isText]
  | _ => simp only [place, Event.isText, Bool.not_false, Bool.and_true]

theorem toList_place (layout : Layout) (event : Event) :
    (layout.place event).toList =
      (layout.lead event ++ [event]).flatMap fun event => event.markup.toList := by
  rw [place_eq, lead]
  split
  · rw [String.toList_append, List.singleton_append, List.flatMap_cons, List.flatMap_singleton,
      Event.markup, escape_margin]
  · rw [String.toList_append, List.nil_append, List.flatMap_singleton]
    rfl

theorem toList_join_pieces (layout : Layout) (events : List Event) :
    (String.join (layout.pieces events)).toList =
      (layout.spaced events).flatMap fun event => event.markup.toList := by
  induction events generalizing layout with
  | nil => rfl
  | cons event rest ih =>
    rw [pieces, String.join_cons, String.toList_append, ih, toList_place, spaced]
    simp

theorem margin_ne_empty (depth : Nat) : margin depth ≠ "" := by
  simp [margin]

theorem head?_spaced_of_not_breaks (depth : Nat) (events : List Event) :
    (spaced ⟨depth, false⟩ events).head? = events.head? := by
  cases events with
  | nil => rfl
  | cons event rest => simp [spaced, lead]

theorem readableEvents_spaced {layout : Layout} {events : List Event}
    (h : ReadableEvents events) : ReadableEvents (layout.spaced events) := by
  induction events generalizing layout with
  | nil => trivial
  | cons event rest ih =>
    obtain ⟨hevent, hnext, hrest⟩ := h
    rw [spaced, lead]
    cases htext : event.isText with
    | true =>
      -- nothing stands before a text, and the layout after it does not break
      obtain ⟨content, rfl⟩ : ∃ content, event = .text content := by
        cases event <;> simp_all [Event.isText]
      simp only [Bool.not_true, Bool.and_false, Bool.false_eq_true, if_false, List.nil_append]
      refine ⟨hevent, fun _ next hmem => ?_, ih hrest⟩
      rw [after, head?_spaced_of_not_breaks] at hmem
      exact hnext htext next hmem
    | false =>
      have hspaced : ReadableEvents (event :: spaced (layout.after event) rest) :=
        ⟨hevent, fun h => by simp [htext] at h, ih hrest⟩
      split
      · refine ⟨margin_ne_empty _, fun _ next hmem => ?_, hspaced⟩
        have hnext : event = next := Option.some.inj hmem
        rw [← hnext, htext]
      · exact hspaced

end Layout

theorem events?_render {events : List Event} (h : ReadableEvents events) :
    events? (render events).toList = some (Layout.initial.spaced events) := by
  rw [render, Layout.toList_join_pieces]
  exact events?_flatMap_markup (Layout.readableEvents_spaced h)

/-! ## Trees -/

namespace Layout

def afterAll (layout : Layout) (events : List Event) : Layout :=
  events.foldl after layout

theorem afterAll_append (layout : Layout) (first second : List Event) :
    layout.afterAll (first ++ second) = (layout.afterAll first).afterAll second :=
  List.foldl_append

theorem spaced_append (layout : Layout) (first second : List Event) :
    layout.spaced (first ++ second) =
      layout.spaced first ++ (layout.afterAll first).spaced second := by
  induction first generalizing layout with
  | nil => rfl
  | cons event rest ih => simp [spaced, afterAll, ih]

end Layout

namespace Markup

def isText : Markup → Bool
  | .text _ => true
  | _ => false

/-- The white space before an item, or before the end of the element around it. -/
def space (depth : Nat) (breaks : Bool) : List Node :=
  if breaks then [.text (Layout.margin depth)] else []

mutual

/-- The item as it is read back from a document in which it stands at some depth. -/
def node (depth : Nat) : Markup → Node
  | .element name attributes content => .element name attributes (nodes depth true content)
  | .empty name attributes => .element name attributes []
  | .comment body => .comment (commentBody body)
  | .text content => .text content

/-- The content of an element at some depth as it is read back, with the white space before each
item and before the end tag. -/
def nodes (depth : Nat) (breaks : Bool) : List Markup → List Node
  | [] => space depth breaks
  | item :: rest =>
    space (depth + 1) (breaks && !item.isText) ++
      node (depth + 1) item :: nodes depth (!item.isText) rest

end

mutual

/-- Names that can be read back, and texts that are not empty and do not meet. -/
def Readable : Markup → Prop
  | .element name attributes content => IsTag name attributes ∧ ReadableAll content
  | .empty name attributes => IsTag name attributes
  | .comment _ => True
  | .text content => content ≠ ""

/-- Items that can be read back one after another. -/
def ReadableAll : List Markup → Prop
  | [] => True
  | item :: rest =>
    Readable item ∧ (item.isText = true → ∀ next ∈ rest.head?, next.isText = false) ∧
      ReadableAll rest

end

/-- An item that can be read back whatever stands beside it. -/
def Standing (item : Markup) : Prop :=
  item.Readable ∧ item.isText = false

theorem readableAll_of_standing {items : List Markup} (h : ∀ item ∈ items, item.Standing) :
    ReadableAll items := by
  induction items with
  | nil => trivial
  | cons item rest ih =>
    obtain ⟨hitem, hrest⟩ := List.forall_mem_cons.1 h
    refine ⟨hitem.1, fun htext => ?_, ih hrest⟩
    rw [hitem.2] at htext
    cases htext

theorem standing_element {name : String} {attributes : Attributes} {content : List Markup}
    (htag : IsTag name attributes) (hcontent : ∀ item ∈ content, item.Standing) :
    (element name attributes content).Standing :=
  ⟨⟨htag, readableAll_of_standing hcontent⟩, rfl⟩

theorem standing_element_text {name text : String} {attributes : Attributes}
    (htag : IsTag name attributes) (htext : text ≠ "") :
    (element name attributes [.text text]).Standing :=
  ⟨⟨htag, htext, fun _ _ h => (by cases h), trivial⟩, rfl⟩

theorem standing_empty {name : String} {attributes : Attributes} (htag : IsTag name attributes) :
    (empty name attributes).Standing :=
  ⟨htag, rfl⟩

theorem standing_comment (body : String) : (comment body).Standing :=
  ⟨trivial, rfl⟩

theorem head?_events (item : Markup) :
    ∃ event, item.events.head? = some event ∧ event.isText = item.isText := by
  cases item with
  | element => exact ⟨_, rfl, rfl⟩
  | empty => exact ⟨_, rfl, rfl⟩
  | comment => exact ⟨_, rfl, rfl⟩
  | text => exact ⟨_, rfl, rfl⟩

mutual

theorem readableEvents_append {item : Markup} (h : item.Readable) {rest : List Event}
    (hnext : item.isText = true → ∀ next ∈ rest.head?, next.isText = false)
    (hrest : ReadableEvents rest) : ReadableEvents (item.events ++ rest) := by
  cases item with
  | element name attributes content =>
    have hfinish : ReadableEvents (.finish name :: rest) :=
      ⟨h.1.isName, fun h => (by cases h), hrest⟩
    have hnext : ∀ next ∈ (Event.finish name :: rest).head?, next.isText = false := by
      intro next hmem
      rw [← Option.some.inj hmem]
      rfl
    have hcontent := readableEvents_append_all h.2 hnext hfinish
    rw [events, List.cons_append, List.append_assoc]
    exact ⟨h.1, fun h => (by cases h), hcontent⟩
  | empty name attributes => exact ⟨h, fun h => (by cases h), hrest⟩
  | comment body =>
    have hbody := And.intro (hyphenPairs_commentBody body) (getLast?_commentBody body)
    exact ⟨hbody, fun h => (by cases h), hrest⟩
  | text content => exact ⟨h, hnext, hrest⟩

theorem readableEvents_append_all {items : List Markup} (h : ReadableAll items)
    {rest : List Event} (hnext : ∀ next ∈ rest.head?, next.isText = false)
    (hrest : ReadableEvents rest) : ReadableEvents (eventsAll items ++ rest) := by
  cases items with
  | nil => exact hrest
  | cons item others =>
    obtain ⟨hitem, htext, hothers⟩ := h
    have ih := readableEvents_append_all hothers hnext hrest
    rw [eventsAll, List.append_assoc]
    refine readableEvents_append hitem (fun h next hmem => ?_) ih
    cases others with
    | nil => exact hnext next hmem
    | cons other others =>
      obtain ⟨event, hevent, hisText⟩ := head?_events other
      rw [eventsAll, List.append_assoc, List.head?_append, hevent] at hmem
      rw [← Option.some.inj hmem, hisText]
      exact htext h other rfl

end

mutual

theorem afterAll_events (item : Markup) (layout : Layout) :
    layout.afterAll item.events = ⟨layout.depth, !item.isText⟩ := by
  cases item with
  | element name attributes content =>
    -- the content leaves the depth as it found it, so the end tag takes back the start tag's step
    have hdepth := depth_afterAll_eventsAll content (layout.after (.start name attributes))
    rw [events, ← List.cons_append, Layout.afterAll_append]
    change Layout.mk (Layout.depth (Layout.afterAll _ (eventsAll content)) - 1) true = _
    rw [hdepth]
    rfl
  | empty name attributes => rfl
  | comment body => rfl
  | text content => rfl

theorem depth_afterAll_eventsAll (items : List Markup) (layout : Layout) :
    (layout.afterAll (eventsAll items)).depth = layout.depth := by
  cases items with
  | nil => rfl
  | cons item rest =>
    rw [eventsAll, Layout.afterAll_append, afterAll_events item, depth_afterAll_eventsAll rest]

end

theorem build?_append_space (frames : List Frame) (content : List Node) (depth : Nat)
    (breaks : Bool) (rest : List Event) :
    build? frames content
        ((if breaks then [.text (Layout.margin depth)] else []) ++ rest) =
      build? frames (content ++ space depth breaks) rest := by
  cases breaks with
  | true => rw [space, if_pos rfl, if_pos rfl, List.singleton_append, build?]
  | false => simp [space]

mutual

/-- The events of an item with their layout build the item behind its white space. -/
theorem build?_spaced_events (item : Markup) (frames : List Frame) (content : List Node)
    (depth : Nat) (breaks : Bool) (rest : List Event) :
    build? frames content (Layout.spaced ⟨depth, breaks⟩ item.events ++ rest) =
      build? frames (content ++ space depth (breaks && !item.isText) ++ [item.node depth])
        rest := by
  cases item with
  | element name attributes items =>
    rw [events, Layout.spaced, Layout.lead, List.append_assoc, build?_append_space,
      List.cons_append, build?, Layout.after, build?_spaced_eventsAll items, List.nil_append, node]
    rfl
  | empty name attributes =>
    rw [events, Layout.spaced, Layout.spaced, Layout.lead, List.append_assoc, build?_append_space,
      List.singleton_append, build?, node]
    rfl
  | comment body =>
    rw [events, Layout.spaced, Layout.spaced, Layout.lead, List.append_assoc, build?_append_space,
      List.singleton_append, build?, node]
    rfl
  | text text =>
    rw [events, Layout.spaced, Layout.spaced, Layout.lead, List.append_assoc, build?_append_space,
      List.singleton_append, build?, node]
    rfl

/-- The events of the content of an element, up to its end tag, build the element. -/
theorem build?_spaced_eventsAll (items : List Markup) (frame : Frame) (frames : List Frame)
    (content : List Node) (depth : Nat) (breaks : Bool) (rest : List Event) :
    build? (frame :: frames) content
        (Layout.spaced ⟨depth + 1, breaks⟩ (eventsAll items ++ [.finish frame.name]) ++ rest) =
      build? frames
        (frame.before ++
          [.element frame.name frame.attributes (content ++ nodes depth breaks items)]) rest := by
  cases items with
  | nil =>
    rw [eventsAll, List.nil_append, Layout.spaced, Layout.spaced, Layout.lead, List.append_assoc,
      build?_append_space, List.singleton_append, build?, if_pos rfl, nodes]
    simp [Event.isText, Layout.depthOf]
  | cons item others =>
    rw [eventsAll, List.append_assoc, Layout.spaced_append, List.append_assoc,
      build?_spaced_events item, afterAll_events, build?_spaced_eventsAll others, nodes]
    simp

end

theorem isBlank_margin (depth : Nat) : isBlank (Layout.margin depth) = true := by
  rw [isBlank, Layout.margin, String.toList_append, String.toList_ofList, String.toList_ofList]
  simp [isSpace]

/-- A written document is read back to the tree of its root. -/
theorem document?_document {name : String} {attributes : Attributes} {content : List Markup}
    (h : Readable (.element name attributes content)) :
    document? (document (.element name attributes content)) =
      some (.element name attributes (nodes 0 true content)) := by
  have hevents : ReadableEvents (events (.element name attributes content) ++ []) :=
    readableEvents_append h (fun h => by cases h) trivial
  rw [List.append_nil] at hevents
  have hdocument : ReadableEvents (.declaration :: events (.element name attributes content)) :=
    ⟨trivial, fun h => (by cases h), hevents⟩
  have hread := events?_render hdocument
  have hspaced : Layout.initial.spaced (.declaration :: events (.element name attributes content)) =
      .declaration :: Layout.spaced ⟨0, true⟩ (events (.element name attributes content)) := rfl
  have hbuild := build?_spaced_events (.element name attributes content) [] [] 0 true []
  rw [List.append_nil] at hbuild
  rw [hspaced] at hread
  rw [document?, document, documentEvents_eq, hread]
  simp only [hbuild, build?, Option.bind_some]
  simp [space, isText, root?, isBlank_margin, node]

theorem ofBytes?_toUTF8_document {name : String} {attributes : Attributes} {content : List Markup}
    (h : Readable (.element name attributes content)) :
    ofBytes? (document (.element name attributes content)).toUTF8 =
      some (.element name attributes (nodes 0 true content)) := by
  rw [ofBytes?, Text.fromUTF8?_toUTF8, Option.bind_some]
  exact document?_document h

end Markup

end Concordance.Xml
