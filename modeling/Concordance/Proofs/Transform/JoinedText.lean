import Concordance.Proofs.Transform.Blocks
import Concordance.Proofs.Transform.Running
import Mathlib.Data.List.Chain

/-!
# Joined texts

The block that copies text takes the texts of an element that are not blank, one after another, and
writes a space before each but the first.  What comes out is the same as if all the texts had been
put together and their white space normalized at once, because the words of texts with a space
between them are the words of the one followed by the words of the other.
-/

namespace Concordance

open Xml (isSpace isBlank)

namespace Transform

/-! ## Words -/

/-- A word is not empty and has no white space in it. -/
structure IsWord (word : String) : Prop where
  ne_empty : word ≠ ""
  isSpace_of_mem : ∀ c ∈ word.toList, isSpace c = false

theorem eq_false_of_mem_splitOnP {p : Char → Bool} {cs piece : List Char}
    (hpiece : piece ∈ cs.splitOnP p) {c : Char} (hc : c ∈ piece) : p c = false := by
  induction cs generalizing piece with
  | nil =>
    rw [List.splitOnP_nil, List.mem_singleton] at hpiece
    rw [hpiece] at hc
    cases hc
  | cons d rest ih =>
    rw [List.splitOnP_cons_eq_if_modifyHead] at hpiece
    obtain ⟨first, others, hsplit⟩ := List.exists_cons_of_ne_nil (List.splitOnP_ne_nil p rest)
    rw [hsplit] at hpiece ih
    by_cases hd : p d = true
    · rw [if_pos hd, List.mem_cons] at hpiece
      rcases hpiece with rfl | hpiece
      · cases hc
      · exact ih hpiece hc
    · rw [if_neg hd, List.modifyHead_cons, List.mem_cons] at hpiece
      -- only the first piece is longer than it was
      rcases hpiece with rfl | hpiece
      · rcases List.mem_cons.1 hc with rfl | hc
        · exact eq_false_of_ne_true hd
        · exact ih List.mem_cons_self hc
      · exact ih (List.mem_cons_of_mem _ hpiece) hc

theorem isWord_of_mem_words {text word : String} (h : word ∈ words text) : IsWord word := by
  obtain ⟨piece, hpiece, rfl⟩ := List.mem_map.1 h
  obtain ⟨hmem, hempty⟩ := List.mem_filter.1 hpiece
  constructor
  · intro hnil
    rw [String.ofList_eq_empty_iff.1 hnil] at hempty
    cases hempty
  · intro c hc
    rw [String.toList_ofList] at hc
    exact eq_false_of_mem_splitOnP hmem hc

theorem filter_splitOnP_eq_nil_iff {p : Char → Bool} {cs : List Char} :
    (cs.splitOnP p).filter (!·.isEmpty) = [] ↔ ∀ c ∈ cs, p c = true := by
  induction cs with
  | nil => simp
  | cons d rest ih =>
    rw [List.splitOnP_cons_eq_if_modifyHead, List.forall_mem_cons, ← ih]
    by_cases hd : p d = true
    · simp [hd]
    · obtain ⟨first, others, hsplit⟩ := List.exists_cons_of_ne_nil (List.splitOnP_ne_nil p rest)
      simp [hd, hsplit]

/-- A text without words is blank. -/
theorem words_eq_nil_iff {text : String} : words text = [] ↔ isBlank text = true := by
  rw [words, List.map_eq_nil_iff, filter_splitOnP_eq_nil_iff, isBlank, List.all_eq_true]

theorem words_append_space (first second : String) :
    words (first ++ " " ++ second) = words first ++ words second := by
  have hsplit : (first ++ " " ++ second).toList.splitOnP isSpace =
      first.toList.splitOnP isSpace ++ second.toList.splitOnP isSpace := by
    rw [String.toList_append, String.toList_append, List.append_assoc]
    exact List.splitOnP_append_cons _ _ (by decide)
  rw [words, hsplit, List.filter_append, List.map_append]
  rfl

theorem words_intercalate (texts : List String) :
    words (" ".intercalate texts) = texts.flatMap words := by
  induction texts with
  | nil => rfl
  | cons first rest ih =>
    cases rest with
    | nil => rw [String.intercalate_singleton, List.flatMap_singleton]
    | cons second others =>
      rw [String.intercalate_cons_cons, words_append_space, ih, ← List.flatMap_cons]

/-! ## Single spaces -/

/-- A text without white space at its ends or in two places one after the other. -/
structure SingleSpaced (text : String) : Prop where
  head : ∀ c ∈ text.toList.head?, isSpace c = false
  last : ∀ c ∈ text.toList.getLast?, isSpace c = false
  between : text.toList.IsChain fun c d => ¬(isSpace c = true ∧ isSpace d = true)

theorem IsWord.singleSpaced {word : String} (h : IsWord word) : SingleSpaced word where
  head c hc := h.isSpace_of_mem c (List.mem_of_mem_head? hc)
  last c hc := h.isSpace_of_mem c (List.mem_of_mem_getLast? hc)
  between := by
    refine (List.pairwise_of_forall_mem_list fun c hc d _ hspaces => ?_).isChain
    rw [h.isSpace_of_mem c hc] at hspaces
    exact Bool.false_ne_true hspaces.1

/-- A word, a space and more of a text that has single spaces. -/
theorem SingleSpaced.word_append {word text : String} (hword : IsWord word)
    (h : SingleSpaced text) (htext : text ≠ "") : SingleSpaced (word ++ " " ++ text) := by
  have hnil : text.toList ≠ [] := fun hnil => htext (String.toList_eq_nil_iff.1 hnil)
  have hnil' : word.toList ≠ [] := fun hnil => hword.ne_empty (String.toList_eq_nil_iff.1 hnil)
  have hchars : (word ++ " " ++ text).toList = word.toList ++ ' ' :: text.toList := by simp
  constructor
  · rw [hchars, List.head?_append_of_ne_nil _ hnil']
    exact hword.singleSpaced.head
  · rw [hchars, List.getLast?_append_cons, List.getLast?_cons_of_ne_nil hnil]
    exact h.last
  · rw [hchars]
    refine hword.singleSpaced.between.append (List.isChain_cons.2 ⟨?_, h.between⟩) ?_
    · intro d hd hspaces
      rw [h.head d hd] at hspaces
      exact Bool.false_ne_true hspaces.2
    · intro c hc d _ hspaces
      rw [hword.singleSpaced.last c hc] at hspaces
      exact Bool.false_ne_true hspaces.1

theorem intercalate_ne_empty {first : String} (h : first ≠ "") (rest : List String) :
    " ".intercalate (first :: rest) ≠ "" := by
  cases rest with
  | nil => rwa [String.intercalate_singleton]
  | cons second others =>
    rw [String.intercalate_cons_cons]
    simp [h]

theorem singleSpaced_intercalate {texts : List String} (h : ∀ text ∈ texts, IsWord text) :
    SingleSpaced (" ".intercalate texts) := by
  induction texts with
  | nil => exact ⟨by simp, by simp, by simp⟩
  | cons first rest ih =>
    obtain ⟨hfirst, hrest⟩ := List.forall_mem_cons.1 h
    cases rest with
    | nil =>
      rw [String.intercalate_singleton]
      exact hfirst.singleSpaced
    | cons second others =>
      rw [String.intercalate_cons_cons]
      have hsecond := (List.forall_mem_cons.1 hrest).1
      exact (ih hrest).word_append hfirst (intercalate_ne_empty hsecond.ne_empty others)

theorem normalizeSpace_eq_empty_iff {text : String} :
    normalizeSpace text = "" ↔ isBlank text = true := by
  rw [← words_eq_nil_iff, normalizeSpace]
  cases hwords : words text with
  | nil => simp
  | cons word rest =>
    have hword : IsWord word := isWord_of_mem_words (by rw [hwords]; exact List.mem_cons_self)
    simp [intercalate_ne_empty hword.ne_empty rest]

theorem intercalate_flatten {groups : List (List String)} (h : ∀ group ∈ groups, group ≠ []) :
    " ".intercalate groups.flatten = " ".intercalate (groups.map (" ".intercalate ·)) := by
  induction groups with
  | nil => rfl
  | cons group rest ih =>
    obtain ⟨hgroup, hrest⟩ := List.forall_mem_cons.1 h
    rw [List.flatten_cons, List.map_cons]
    cases rest with
    | nil => simp
    | cons other others =>
      have hflatten : (other :: others).flatten ≠ [] := by
        rw [List.flatten_cons]
        exact List.append_ne_nil_of_left_ne_nil (hrest other List.mem_cons_self) _
      rw [String.intercalate_append_of_ne_nil hgroup hflatten, ih hrest,
        String.intercalate_cons_of_ne_nil (by simp)]

/-- Normalizing white space after joining texts is joining what they are when normalized, without
the blank ones. -/
theorem normalizeSpace_intercalate (texts : List String) :
    normalizeSpace (" ".intercalate texts) =
      " ".intercalate ((texts.filter (!isBlank ·)).map normalizeSpace) := by
  have hgroups : texts.flatMap words = ((texts.filter (!isBlank ·)).map words).flatten := by
    induction texts with
    | nil => rfl
    | cons first rest ih =>
      rw [List.flatMap_cons, List.filter_cons, ih]
      by_cases hblank : isBlank first = true
      · rw [words_eq_nil_iff.2 hblank]
        simp [hblank]
      · simp [hblank]
  have hfilled : ∀ group ∈ (texts.filter (!isBlank ·)).map words, group ≠ [] := by
    intro group hgroup hnil
    obtain ⟨text, htext, rfl⟩ := List.mem_map.1 hgroup
    have hblank := (List.mem_filter.1 htext).2
    rw [words_eq_nil_iff.1 hnil] at hblank
    cases hblank
  rw [normalizeSpace, words_intercalate, hgroups, intercalate_flatten hfilled, List.map_map]
  rfl

/-! ## The copy of texts -/

/-- The text is made of the normalized texts that are not blank, with one space between each two.
It is what all the texts become when they are put together and normalized. -/
structure Joins (texts : List String) (joined : String) : Prop where
  eq_intercalate : joined = " ".intercalate ((texts.filter (!isBlank ·)).map normalizeSpace)
  eq_normalizeSpace : joined = normalizeSpace (" ".intercalate texts)
  singleSpaced : SingleSpaced joined
  eq_empty_iff : joined = "" ↔ ∀ text ∈ texts, isBlank text = true

theorem joins_normalizeSpace (texts : List String) :
    Joins texts (normalizeSpace (" ".intercalate texts)) where
  eq_intercalate := normalizeSpace_intercalate texts
  eq_normalizeSpace := rfl
  singleSpaced := singleSpaced_intercalate fun _ => isWord_of_mem_words
  eq_empty_iff := by
    rw [normalizeSpace_eq_empty_iff, ← words_eq_nil_iff, words_intercalate,
      List.flatMap_eq_nil_iff]
    simp only [words_eq_nil_iff]

theorem text?_textAdditions (texts : List String) :
    text? (textAdditions texts) = some (" ".intercalate texts) := by
  cases texts with
  | nil => rfl
  | cons first rest =>
    rw [textAdditions]
    induction rest generalizing first with
    | nil => simp [text?]
    | cons second others ih =>
      rw [List.flatMap_cons, List.cons_append, List.singleton_append, text?, text?, ih,
        String.intercalate_cons_cons, String.append_assoc]
      rfl

theorem runAll_texts_joins {values : String → String} {rule : Rule} (h : rule.keepsText = true)
    (position : Nat) (tag : Tree) :
    ∃ joined, (runAll values (Program.texts rule) position (.tree tag)).bind text? = some joined ∧
      Joins tag.texts joined := by
  have hblank : (fun text => normalizeSpace text != "") = fun text => !isBlank text := by
    funext text
    rw [bne, Bool.eq_iff_iff]
    simp [normalizeSpace_eq_empty_iff]
  have hfilter : (tag.texts.map normalizeSpace).filter (· != "") =
      (tag.texts.filter (!isBlank ·)).map normalizeSpace := by
    rw [List.filter_map, ← hblank]
    rfl
  refine ⟨_, ?_, joins_normalizeSpace tag.texts⟩
  rw [runAll_texts, if_pos h, Option.bind_some, text?_textAdditions, hfilter,
    normalizeSpace_intercalate]

end Transform

/-- Wherever a child rule keeps the text of a tag, the stylesheet has a block that joins the texts
of every element by single spaces, in whatever position the element is met. -/
theorem Crosswalk.textBlock_joins_texts {crosswalk : Crosswalk} {container : Option Element}
    {text : String} (h : crosswalk.stylesheet container = .ok text) {rule : Rule}
    (hrule : rule ∈ crosswalk.children) (htext : rule.keepsText = true) :
    ∃ block, Emitted text block ∧
      (∃ remark, Outline.texts (crosswalk.declarations container) rule = [remark, block.tidy]) ∧
        ∃ program, readIn? text block = some program ∧
          ∀ (values : String → String) (position : Nat) (tag : Transform.Tree),
            ∃ joined, (Transform.runAll values program position (.tree tag)).bind
                Transform.text? = some joined ∧
              Transform.Joins tag.texts joined := by
  obtain ⟨block, hemitted, htidy, hread⟩ := exists_textBlock h hrule htext
  refine ⟨block, hemitted, htidy, _, hread, fun values position tag => ?_⟩
  exact Transform.runAll_texts_joins htext position tag

theorem Crosswalk.concepts_joins_texts :
    ∃ text, concepts.stylesheet none = .ok text ∧
      ∃ rule ∈ concepts.children, rule.keepsText = true ∧
        ∃ block, Emitted text block ∧
          (∃ remark, Outline.texts (concepts.declarations none) rule = [remark, block.tidy]) ∧
            ∃ program, readIn? text block = some program ∧
              ∀ (values : String → String) (position : Nat) (tag : Transform.Tree),
                ∃ joined, (Transform.runAll values program position (.tree tag)).bind
                    Transform.text? = some joined ∧
                  Transform.Joins tag.texts joined := by
  obtain ⟨text, h⟩ := exists_stylesheet_concepts
  exact ⟨text, h, _, List.mem_cons_self, rfl, textBlock_joins_texts h List.mem_cons_self rfl⟩

end Concordance
