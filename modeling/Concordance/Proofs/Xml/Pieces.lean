import Concordance.Proofs.Xml.Reader
import Concordance.Xml.Layout
import Concordance.Xml.Comment

/-!
# Reading the pieces of written markup

Each piece of markup that is written is read back from the beginning of a longer text, whatever
follows it, as long as what follows cannot extend it.
-/

namespace Concordance.Xml

/-! ## Names and values -/

theorem takeWhile_append_stop {p : Char → Bool} {cs rest : List Char}
    (hcs : ∀ c ∈ cs, p c = true) (hrest : ∀ c ∈ rest.head?, p c = false) :
    (cs ++ rest).takeWhile p = cs := by
  rw [List.takeWhile_append_of_pos hcs]
  cases rest with
  | nil => simp
  | cons c rest => simp [hrest c (by simp)]

theorem dropWhile_append_stop {p : Char → Bool} {cs rest : List Char}
    (hcs : ∀ c ∈ cs, p c = true) (hrest : ∀ c ∈ rest.head?, p c = false) :
    (cs ++ rest).dropWhile p = rest := by
  rw [List.dropWhile_append_of_pos hcs]
  cases rest with
  | nil => simp
  | cons c rest => simp [hrest c (by simp)]

/-- A word that markup lets stand for a name. -/
structure IsName (name : String) : Prop where
  ne_nil : name.toList ≠ []
  isNameChar_of_mem : ∀ c ∈ name.toList, isNameChar c = true

theorem name?_append {name : String} (hname : IsName name) {rest : List Char}
    (hrest : ∀ c ∈ rest.head?, isNameChar c = false) :
    name? (name.toList ++ rest) = some (name, rest) := by
  rw [name?, takeWhile_append_stop hname.isNameChar_of_mem hrest,
    dropWhile_append_stop hname.isNameChar_of_mem hrest]
  split
  next h => exact absurd h hname.ne_nil
  next h => rw [String.ofList_toList]

theorem name?_eq_none {cs : List Char} (h : ∀ c ∈ cs.head?, isNameChar c = false) :
    name? cs = none := by
  cases cs with
  | nil => rfl
  | cons c rest => simp [name?, h c (by simp)]

theorem unescape?_escapeChar (c : Char) (rest : List Char) :
    unescape? (escapeChar c ++ rest) = (unescape? rest).map (c :: ·) := by
  unfold escapeChar
  split
  · rfl
  · rfl
  · rfl
  · rfl
  · rfl
  next hlt _ hamp _ _ =>
    rw [List.singleton_append, unescape?.eq_def]
    split <;> simp_all

theorem unescape?_flatMap_escapeChar (cs : List Char) :
    unescape? (cs.flatMap escapeChar) = some cs := by
  induction cs with
  | nil => rfl
  | cons c rest ih => rw [List.flatMap_cons, unescape?_escapeChar, ih, Option.map_some]

/-- Neither a bracket nor a quotation mark is left in an escaped text. -/
theorem ne_of_mem_escapeChar {c d : Char} (h : c ∈ escapeChar d) : c ≠ '<' ∧ c ≠ '"' := by
  revert c
  unfold escapeChar
  split
  · simp
  · simp
  · simp
  · simp
  · simp
  next hlt _ _ _ hquot =>
    intro c hc
    rw [List.mem_singleton.1 hc]
    exact ⟨hlt, hquot⟩

theorem ne_of_mem_flatMap_escapeChar {cs : List Char} {c : Char}
    (h : c ∈ cs.flatMap escapeChar) : c ≠ '<' ∧ c ≠ '"' := by
  obtain ⟨d, -, hd⟩ := List.mem_flatMap.1 h
  exact ne_of_mem_escapeChar hd

theorem flatMap_escapeChar_ne_nil {content : String} (h : content ≠ "") :
    content.toList.flatMap escapeChar ≠ [] := by
  intro hnil
  have hback := unescape?_flatMap_escapeChar content.toList
  rw [hnil] at hback
  exact h (String.toList_eq_nil_iff.1 (Option.some.inj hback).symm)

theorem value?_escape (value : String) (rest : List Char) :
    value? '"' ((escape value).toList ++ '"' :: rest) = some (value, rest) := by
  have hcs : ∀ c ∈ value.toList.flatMap escapeChar, (c != '"') = true :=
    fun c hc => by simp [(ne_of_mem_flatMap_escapeChar hc).2]
  have hrest : ∀ c ∈ ('"' :: rest).head?, (c != '"') = false := by simp
  rw [value?, escape, String.toList_ofList, takeWhile_append_stop hcs hrest,
    dropWhile_append_stop hcs hrest, unescape?_flatMap_escapeChar]
  simp

/-! ## Tags -/

/-- An attribute as it stands in a tag. -/
def attributeMarkup (a : String × String) : List Char :=
  ' ' :: (a.1.toList ++ '=' :: '"' :: ((escape a.2).toList ++ ['"']))

theorem toList_tagBody (name : String) (attributes : Attributes) :
    (tagBody name attributes).toList = name.toList ++ attributes.flatMap attributeMarkup := by
  rw [tagBody, String.toList_append]
  congr 1
  induction attributes with
  | nil => rfl
  | cons a rest ih =>
    rw [List.map_cons, String.join_cons, String.toList_append, ih]
    simp [attributeMarkup]

theorem attribute?_append {a : String × String} (ha : IsName a.1) (rest : List Char) :
    attribute? (a.1.toList ++ '=' :: '"' :: ((escape a.2).toList ++ '"' :: rest)) =
      some (a, rest) := by
  have hstop : ∀ c ∈ ('=' :: '"' :: ((escape a.2).toList ++ '"' :: rest)).head?,
      isNameChar c = false := by
    simp [isNameChar]
  rw [attribute?, name?_append ha hstop]
  simp [value?_escape]

/-- What ends the attributes of a tag. -/
def EndsTag (rest : List Char) : Prop :=
  ∀ c ∈ rest.head?, isNameChar c = false ∧ isSpace c = false

theorem isSpace_eq_false_of_isNameChar {c : Char} (h : isNameChar c = true) :
    isSpace c = false := by
  rw [isNameChar] at h
  simp_all

theorem attributes?_append {attributes : Attributes}
    (hnames : ∀ a ∈ attributes, IsName a.1) {rest : List Char} (hrest : EndsTag rest) :
    attributes? (attributes.flatMap attributeMarkup ++ rest) = some (attributes, rest) := by
  induction attributes with
  | nil =>
    have hdrop : rest.dropWhile isSpace = rest := by
      cases rest with
      | nil => rfl
      | cons c rest => simp [(hrest c (by simp)).2]
    have hname : name? rest = none := name?_eq_none fun c hc => (hrest c hc).1
    rw [List.flatMap_nil, List.nil_append, attributes?]
    simp [hdrop, hname]
  | cons a others ih =>
    have ha : IsName a.1 := hnames a List.mem_cons_self
    have ih := ih fun b hb => hnames b (List.mem_cons_of_mem a hb)
    generalize htail : others.flatMap attributeMarkup ++ rest = tail at ih
    -- the text behind the space stays folded, for the length that the reader checks
    obtain ⟨body, hbody⟩ : ∃ body, body =
      a.1.toList ++ '=' :: '"' :: ((escape a.2).toList ++ '"' :: tail) := ⟨_, rfl⟩
    have htext : (a :: others).flatMap attributeMarkup ++ rest = ' ' :: body := by
      simp [attributeMarkup, hbody, ← htail]
    have hdrop : (' ' :: body).dropWhile isSpace = body := by
      obtain ⟨c, cs, hc⟩ := List.exists_cons_of_ne_nil ha.ne_nil
      have hspace := isSpace_eq_false_of_isNameChar (ha.isNameChar_of_mem c (by simp [hc]))
      rw [hbody, hc]
      simp [hspace, show isSpace ' ' = true from rfl]
    have hname : (name? body).isSome = true := by
      rw [hbody, name?_append ha (by simp [isNameChar])]
      rfl
    have hfirst : attribute? body = some (a, tail) := by
      rw [hbody, attribute?_append ha]
    have hlength : tail.length < (' ' :: body).length := by
      simp only [hbody, List.length_cons, List.length_append]
      omega
    rw [htext, attributes?]
    simp only [hdrop, hname, hfirst, ih, if_pos hlength]
    simp

theorem name?_tagBody {name : String} (hname : IsName name) (attributes : Attributes)
    {rest : List Char} (hrest : EndsTag rest) :
    name? ((tagBody name attributes).toList ++ rest) =
      some (name, attributes.flatMap attributeMarkup ++ rest) := by
  rw [toList_tagBody, List.append_assoc]
  apply name?_append hname
  cases attributes with
  | nil => exact fun c hc => (hrest c hc).1
  | cons a others => simp [attributeMarkup, isNameChar, isSpace]

/-- A name and attributes that can be read back. -/
structure IsTag (name : String) (attributes : Attributes) : Prop where
  isName : IsName name
  isName_of_mem : ∀ a ∈ attributes, IsName a.1
  nodup : (attributes.map Prod.fst).Nodup

theorem isTag_nil {name : String} (h : IsName name) : IsTag name [] :=
  ⟨h, by simp, List.nodup_nil⟩

theorem isTag_singleton {name key : String} (h : IsName name) (hkey : IsName key)
    (value : String) : IsTag name [(key, value)] :=
  ⟨h, by simpa using hkey, by simp⟩

theorem isTag_pair {name key other : String} (h : IsName name) (hkey : IsName key)
    (hother : IsName other) (hne : key ≠ other) (value value' : String) :
    IsTag name [(key, value), (other, value')] :=
  ⟨h, by simpa using ⟨hkey, hother⟩, by simpa using hne⟩

theorem tag?_start {name : String} {attributes : Attributes} (h : IsTag name attributes)
    (rest : List Char) :
    tag? ((tagBody name attributes).toList ++ '>' :: rest) =
      some (.start name attributes, rest) := by
  have hrest : EndsTag ('>' :: rest) := by simp [EndsTag, isNameChar, isSpace]
  rw [tag?, name?_tagBody h.isName attributes hrest]
  simp [attributes?_append h.isName_of_mem hrest, h.nodup]

theorem tag?_empty {name : String} {attributes : Attributes} (h : IsTag name attributes)
    (rest : List Char) :
    tag? ((tagBody name attributes).toList ++ '/' :: '>' :: rest) =
      some (.empty name attributes, rest) := by
  have hrest : EndsTag ('/' :: '>' :: rest) := by simp [EndsTag, isNameChar, isSpace]
  rw [tag?, name?_tagBody h.isName attributes hrest]
  simp [attributes?_append h.isName_of_mem hrest, h.nodup]

/-! ## Comments -/

theorem untilHyphens?_cons {c : Char} {cs : List Char}
    (h : ¬(c = '-' ∧ cs.head? = some '-')) :
    untilHyphens? (c :: cs) = (untilHyphens? cs).map fun (body, rest) => (c :: body, rest) := by
  rw [untilHyphens?.eq_def]
  split
  next heq => simp_all
  next heq =>
    obtain ⟨rfl, rfl⟩ := List.cons.inj heq
    rfl
  next heq => cases heq

theorem untilHyphens?_append {body rest : List Char} (hpairs : hyphenPairs body = 0)
    (hlast : body.getLast? ≠ some '-') :
    untilHyphens? (body ++ '-' :: '-' :: rest) = some (body, rest) := by
  induction body with
  | nil => rfl
  | cons c cs ih =>
    cases cs with
    | nil =>
      have hc : c ≠ '-' := by simpa using hlast
      rw [List.singleton_append, untilHyphens?_cons (by simp [hc])]
      rfl
    | cons d cs =>
      have hcd : ¬(c = '-' ∧ d = '-') := by
        intro h
        simp [hyphenPairs, h] at hpairs
      have hpairs : hyphenPairs (d :: cs) = 0 := by simpa [hyphenPairs, hcd] using hpairs
      have hlast : (d :: cs).getLast? ≠ some '-' := by simpa using hlast
      rw [List.cons_append, untilHyphens?_cons (by simpa using hcd), ih hpairs hlast]
      rfl

theorem hyphenPairs_partAllPairs (cs : List Char) : hyphenPairs (partAllPairs cs) = 0 := by
  fun_induction partAllPairs cs with
  | case1 cs h => exact h
  | case2 cs h ih => exact ih

theorem hyphenPairs_append_space {cs : List Char} :
    hyphenPairs (cs ++ [' ']) = hyphenPairs cs := by
  induction cs with
  | nil => rfl
  | cons c cs ih =>
    cases cs with
    | nil => simp [hyphenPairs]
    | cons d cs =>
      rw [List.cons_append, List.cons_append, hyphenPairs, hyphenPairs, ← List.cons_append, ih]

theorem hyphenPairs_commentBody (text : String) : hyphenPairs (commentBody text).toList = 0 := by
  rw [commentBody, String.toList_ofList]
  split
  · rw [hyphenPairs_append_space, hyphenPairs_partAllPairs]
  · exact hyphenPairs_partAllPairs text.toList

theorem getLast?_commentBody (text : String) :
    (commentBody text).toList.getLast? ≠ some '-' := by
  rw [commentBody, String.toList_ofList]
  split
  next => simp
  next h => exact h

/-! ## Events -/

theorem event?_of_isNameChar {c : Char} (h : isNameChar c = true) (rest : List Char) :
    event? ('<' :: c :: rest) = tag? (c :: rest) := by
  have hmarks : c ≠ '?' ∧ c ≠ '!' ∧ c ≠ '/' := by
    refine ⟨?_, ?_, ?_⟩ <;> (rintro rfl; revert h; decide)
  unfold event?
  split <;> simp_all

theorem event?_of_ne {c : Char} (h : c ≠ '<') (rest : List Char) :
    event? (c :: rest) =
      (unescape? ((c :: rest).takeWhile (· != '<'))).map fun content =>
        (.text (String.ofList content), (c :: rest).dropWhile (· != '<')) := by
  unfold event?
  split <;> simp_all

namespace Event

/-- Whether the event is a stretch of text. -/
def isText : Event → Bool
  | .text _ => true
  | _ => false

/-- An event whose markup can be read back. -/
def Readable : Event → Prop
  | .declaration => True
  | .start name attributes => IsTag name attributes
  | .finish name => IsName name
  | .empty name attributes => IsTag name attributes
  | .comment body => hyphenPairs body.toList = 0 ∧ body.toList.getLast? ≠ some '-'
  | .text content => content ≠ ""

end Event

theorem markup_ne_nil {event : Event} (h : event.Readable) : event.markup.toList ≠ [] := by
  cases event with
  | text content =>
    rw [Event.markup, escape, String.toList_ofList]
    exact flatMap_escapeChar_ne_nil h
  | _ => simp [Event.markup]

theorem exists_cons_of_isTag {name : String} {attributes : Attributes}
    (h : IsTag name attributes) (rest : List Char) :
    ∃ c cs, (tagBody name attributes).toList ++ rest = c :: cs ∧ isNameChar c = true := by
  obtain ⟨c, cs, hc⟩ := List.exists_cons_of_ne_nil h.isName.ne_nil
  refine ⟨c, cs ++ attributes.flatMap attributeMarkup ++ rest, ?_, ?_⟩
  · simp [toList_tagBody, hc]
  · exact h.isName.isNameChar_of_mem c (by simp [hc])

/-- The markup of an event is read back, unless it is a text and more text follows. -/
theorem event?_markup {event : Event} (h : event.Readable) {rest : List Char}
    (hrest : event.isText = true → ∀ c ∈ rest.head?, c = '<') :
    event? (event.markup.toList ++ rest) = some (event, rest) := by
  cases event with
  | declaration =>
    have hnames : ∀ a ∈ [("version", "1.0"), ("encoding", "UTF-8")], IsName a.1 := by
      simp only [List.forall_mem_cons, List.not_mem_nil, false_imp_iff, implies_true, and_true]
      exact ⟨⟨by decide, List.all_eq_true.1 rfl⟩, ⟨by decide, List.all_eq_true.1 rfl⟩⟩
    have hrest : EndsTag ('?' :: '>' :: rest) := by simp [EndsTag, isNameChar, isSpace]
    have hattributes := attributes?_append hnames hrest
    have htext : Event.declaration.markup.toList ++ rest =
        '<' :: '?' :: 'x' :: 'm' :: 'l' :: ([("version", "1.0"), ("encoding", "UTF-8")].flatMap
          attributeMarkup ++ '?' :: '>' :: rest) := rfl
    rw [htext, event?, hattributes]
    rfl
  | start name attributes =>
    have htag := tag?_start h rest
    obtain ⟨c, cs, hcons, hc⟩ := exists_cons_of_isTag h ('>' :: rest)
    rw [hcons] at htag
    have htext : (Event.start name attributes).markup.toList ++ rest = '<' :: c :: cs := by
      rw [← hcons]
      simp [Event.markup]
    rw [htext, event?_of_isNameChar hc, htag]
  | finish name =>
    have hstop : ∀ c ∈ ('>' :: rest).head?, isNameChar c = false := by simp [isNameChar]
    have hname := name?_append h hstop
    have htext : (Event.finish name).markup.toList ++ rest =
        '<' :: '/' :: (name.toList ++ '>' :: rest) := by
      simp [Event.markup]
    rw [htext, event?, hname]
    rfl
  | empty name attributes =>
    have htag := tag?_empty h rest
    obtain ⟨c, cs, hcons, hc⟩ := exists_cons_of_isTag h ('/' :: '>' :: rest)
    rw [hcons] at htag
    have htext : (Event.empty name attributes).markup.toList ++ rest = '<' :: c :: cs := by
      rw [← hcons]
      simp [Event.markup]
    rw [htext, event?_of_isNameChar hc, htag]
  | comment body =>
    have hbody : untilHyphens? (body.toList ++ '-' :: '-' :: '>' :: rest) =
        some (body.toList, '>' :: rest) := untilHyphens?_append h.1 h.2
    have htext : (Event.comment body).markup.toList ++ rest =
        '<' :: '!' :: '-' :: '-' :: (body.toList ++ '-' :: '-' :: '>' :: rest) := by
      simp [Event.markup]
    rw [htext, event?, hbody]
    simp
  | text content =>
    have hraw : ∀ c ∈ content.toList.flatMap escapeChar, (c != '<') = true :=
      fun c hc => by simp [(ne_of_mem_flatMap_escapeChar hc).1]
    have hstop : ∀ c ∈ rest.head?, (c != '<') = false := fun c hc => by simp [hrest rfl c hc]
    obtain ⟨c, cs, hc⟩ := List.exists_cons_of_ne_nil (flatMap_escapeChar_ne_nil h)
    have hlt : c ≠ '<' := by simpa using hraw c (by simp [hc])
    have htext : (Event.text content).markup.toList ++ rest =
        content.toList.flatMap escapeChar ++ rest := by
      simp [Event.markup, escape]
    have hread := event?_of_ne hlt (cs ++ rest)
    rw [← List.cons_append, ← hc, takeWhile_append_stop hraw hstop,
      dropWhile_append_stop hraw hstop, unescape?_flatMap_escapeChar] at hread
    rw [htext, hread]
    simp

end Concordance.Xml
