import Concordance.Proofs.Definition.Toml.Layout
import Concordance.Proofs.Definition.Toml.Values

/-!
# Texts of TOML

How the lines of a document are written, with blank lines and comments between them.  Reading such a
text gives a reading that holds the value that the lines lay out.
-/

namespace Concordance

namespace Toml

/-! ## Lines -/

/-- How a line is written, without the white space around it. -/
inductive WritesLine : Line → List Char → Prop
  | header {path : List String} {cs spaces spaces' : List Char} (h : WritesPath path cs)
      (hparts : path.length ≤ depthLimit) (hspaces : IsSpaces spaces)
      (hspaces' : IsSpaces spaces') :
      WritesLine (.header path) ('[' :: (spaces ++ cs ++ spaces' ++ [']']))
  | element {path : List String} {cs spaces spaces' : List Char} (h : WritesPath path cs)
      (hparts : path.length ≤ depthLimit) (hspaces : IsSpaces spaces)
      (hspaces' : IsSpaces spaces') :
      WritesLine (.element path) ('[' :: '[' :: (spaces ++ cs ++ spaces' ++ [']', ']']))
  | assignment {path : List String} {value : Datum} {before cs : List Char}
      (hpath : WritesBefore path before) (hvalue : Writes 0 (.value value) cs) :
      WritesLine (.assignment path value) (before ++ cs)

/-- A character that may begin a line. -/
def BeginsLine (c : Char) : Prop :=
  c = '[' ∨ BeginsKey c

theorem BeginsLine.isFirm {c : Char} (h : BeginsLine c) : IsFirm c := by
  rcases h with rfl | h
  · decide
  · exact h.isFirm

theorem BeginsLine.ne_mark {c : Char} (h : BeginsLine c) : c ≠ '\ufeff' := by
  rcases h with rfl | h
  · decide
  · exact h.ne (by decide) (by decide) (by decide)

theorem WritesLine.exists_cons {line : Line} {cs : List Char} (h : WritesLine line cs) :
    ∃ c rest, cs = c :: rest ∧ BeginsLine c := by
  cases h with
  | header | element => exact ⟨'[', _, rfl, Or.inl rfl⟩
  | assignment hpath =>
    obtain ⟨c, rest, rfl, hc⟩ := hpath.exists_cons
    exact ⟨c, _, rfl, Or.inr hc⟩

/-- The key between the brackets of a header, with the white space around it. -/
theorem WritesPath.key?_spaces {path : List String} {cs : List Char} (h : WritesPath path cs)
    (hparts : path.length ≤ depthLimit) {spaces spaces' : List Char} (hspaces : IsSpaces spaces)
    (hspaces' : IsSpaces spaces') (rest : List Char) :
    ∃ keys, keys.map Prod.fst = path ∧
      Toml.key? depthLimit (skipSpace (spaces ++ (cs ++ (spaces' ++ ']' :: rest)))) =
        some (keys, ']' :: rest) := by
  obtain ⟨keys, hnames, hkeys⟩ := h.key? hparts hspaces' (Or.inr rfl) rest
  obtain ⟨c, more, rfl, hc⟩ := h.exists_cons
  refine ⟨keys, hnames, ?_⟩
  rw [← hkeys]
  exact congrArg (Toml.key? depthLimit) (skipSpace_append_cons hspaces hc.isSpace)

/-- A key behind one bracket does not look like a second one. -/
theorem spaces_append_ne_bracket {spaces : List Char} (hspaces : IsSpaces spaces) {c : Char}
    (hc : BeginsKey c) (rest more : List Char) : spaces ++ c :: rest ≠ '[' :: more := by
  intro heq
  cases spaces with
  | nil => exact hc.ne (by decide) (by decide) (by decide) (List.cons.inj heq).1
  | cons first spaces =>
    have hfirst := hspaces first List.mem_cons_self
    rw [(List.cons.inj heq).1] at hfirst
    cases hfirst

theorem WritesLine.statement? {line : Line} {cs : List Char} (h : WritesLine line cs)
    {rest : List Char} (hrest : Ends rest) :
    ∃ statement, statement? (cs ++ rest) = some (statement, rest) ∧ Says statement line := by
  cases h with
  | @header path cs spaces spaces' h hparts hspaces hspaces' =>
    obtain ⟨keys, hnames, hkeys⟩ := h.key?_spaces hparts hspaces hspaces' rest
    obtain ⟨c, more, rfl, hc⟩ := h.exists_cons
    refine ⟨.header ⟨'[' :: (spaces ++ (c :: more ++ (spaces' ++ ']' :: rest))), rest⟩ keys,
      ?_, .header hnames⟩
    simp only [List.append_assoc, List.cons_append, List.nil_append] at hkeys ⊢
    rw [Toml.statement?, hkeys]
    · rfl
    · exact fun others heq =>
        spaces_append_ne_bracket hspaces hc _ others heq
  | @element path cs spaces spaces' h hparts hspaces hspaces' =>
    obtain ⟨keys, hnames, hkeys⟩ := h.key?_spaces hparts hspaces hspaces' (']' :: rest)
    refine ⟨.element ⟨'[' :: '[' :: (spaces ++ (cs ++ (spaces' ++ ']' :: ']' :: rest))), rest⟩ keys,
      ?_, .element hnames⟩
    simp only [List.append_assoc, List.cons_append, List.nil_append]
    rw [Toml.statement?, hkeys]
    rfl
  | @assignment path value before cs hpath hvalue =>
    obtain ⟨read, hread, hholds⟩ := hvalue.isRead (2 * (cs ++ rest).length + 1) rest
      (by rw [List.length_append]; omega) hrest
    obtain ⟨c, more, rfl, hc, -⟩ := hvalue.exists_value
    obtain ⟨keys, hnames, hkeys⟩ := hpath.keyBefore? hc.1.1 (more ++ rest)
    obtain ⟨first, others, rfl, hfirst⟩ := hpath.exists_cons
    have hbracket : first ≠ '[' := hfirst.ne (by decide) (by decide) (by decide)
    refine ⟨.assignment keys read, ?_, .assignment ⟨hnames, hholds⟩⟩
    simp only [List.append_assoc, List.cons_append] at hkeys hread ⊢
    rw [Toml.statement?]
    · simp only [hkeys, hread, bind, Option.bind]
    · exact fun _ heq => hbracket (List.cons.inj heq).1
    · exact fun _ heq => hbracket (List.cons.inj heq).1

/-! ## Documents -/

/-- What may stand behind a line: white space and a comment. -/
inductive IsTrail : List Char → Prop
  | spaces {spaces : List Char} (h : IsSpaces spaces) : IsTrail spaces
  | comment {spaces cs : List Char} (h : IsSpaces spaces)
      (hcs : ∀ c ∈ cs, isLineChar c = true) : IsTrail (spaces ++ '#' :: cs)

/-- How lines are written, each on a line of its own.  The last may end with the text. -/
inductive WritesLines : List Line → List Char → Prop
  | nothing {gap trail : List Char} (hgap : IsGap gap) (htrail : IsTrail trail) :
      WritesLines [] (gap ++ trail)
  | last {line : Line} {gap cs trail : List Char} (hgap : IsGap gap) (h : WritesLine line cs)
      (htrail : IsTrail trail) : WritesLines [line] (gap ++ cs ++ trail)
  | line {line : Line} {lines : List Line} {gap cs trail newline others : List Char}
      (hgap : IsGap gap) (h : WritesLine line cs) (htrail : IsTrail trail)
      (hnewline : IsBreak newline) (hothers : WritesLines lines others) :
      WritesLines (line :: lines) (gap ++ cs ++ trail ++ newline ++ others)

theorem IsSpaces.isGap {spaces : List Char} (h : IsSpaces spaces) : IsGap spaces := by
  induction spaces with
  | nil => exact .nil
  | cons c spaces ih =>
    obtain ⟨hc, h⟩ := List.forall_mem_cons.1 h
    exact .space hc (ih h)

theorem skipBlank_nil : skipBlank [] = [] := by
  rw [skipBlank]
  all_goals simp

theorem statements?_nil (lines : Nat) : statements? (lines + 1) [] = some [] := by
  rw [statements?, skipBlank_nil]

theorem IsBreak.ends {newline : List Char} (h : IsBreak newline) (rest : List Char) :
    Ends (newline ++ rest) := by
  rcases h with rfl | rfl
  · exact ends_cons (by decide) rest
  · exact ends_cons (by decide) ('\n' :: rest)

namespace IsTrail

variable {trail rest : List Char} (h : IsTrail trail)

include h

theorem ends (hrest : Ends rest) : Ends (trail ++ rest) := by
  cases h with
  | spaces h => exact ends_gap h.isGap hrest
  | comment h =>
    rw [List.append_assoc]
    exact ends_gap h.isGap (ends_cons (by decide) _)

theorem skipBlank : skipBlank trail = [] := by
  cases h with
  | spaces h =>
    rw [← List.append_nil trail, skipBlank_append h.isGap, skipBlank_nil]
  | comment h hcs =>
    rw [skipBlank_append h.isGap, Toml.skipBlank, List.dropWhile_eq_nil_iff.2 hcs, skipBlank_nil]

theorem endOfLine?_break {newline : List Char} (hnewline : IsBreak newline) :
    endOfLine? (trail ++ (newline ++ rest)) = some rest := by
  have hbreak : skipSpace (newline ++ rest) = newline ++ rest ∧
      skipComment (newline ++ rest) = newline ++ rest ∧ newline ++ rest ≠ [] := by
    rcases hnewline with rfl | rfl
    · exact ⟨rfl, rfl, List.cons_ne_nil _ _⟩
    · exact ⟨rfl, rfl, List.cons_ne_nil _ _⟩
  obtain ⟨hspace, hcomment, hne⟩ := hbreak
  have hskip : skipComment (skipSpace (trail ++ (newline ++ rest))) = newline ++ rest := by
    cases h with
    | spaces h => rw [skipSpace_append h, hspace, hcomment]
    | comment h hcs =>
      rw [List.append_assoc, List.cons_append, skipSpace_append_cons h (by decide), skipComment,
        ← List.append_assoc, dropWhile_comment hcs hnewline]
  rw [endOfLine?, hskip]
  split
  next heq => exact absurd heq hne
  next => exact hnewline.lineBreak? rest

theorem endOfLine?_end : endOfLine? trail = some [] := by
  have hskip : skipComment (skipSpace trail) = [] := by
    cases h with
    | spaces h =>
      rw [skipSpace, List.dropWhile_eq_nil_iff.2 h]
      rfl
    | comment h hcs =>
      rw [skipSpace_append_cons h (by decide), skipComment, List.dropWhile_eq_nil_iff.2 hcs]
  rw [endOfLine?, hskip]

end IsTrail

/-- A text goes on with its next line. -/
theorem statements?_of_line {line : Line} {gap cs behind rest : List Char} (hgap : IsGap gap)
    (h : WritesLine line cs) (hends : Ends behind) (hrest : endOfLine? behind = some rest)
    {fuel : Nat} {others : List Statement} (hothers : statements? fuel rest = some others) :
    ∃ statement, Says statement line ∧
      statements? (fuel + 1) (gap ++ (cs ++ behind)) = some (statement :: others) := by
  obtain ⟨statement, hstatement, hspelled⟩ := h.statement? hends
  obtain ⟨c, more, rfl, hc⟩ := h.exists_cons
  have hskip : skipBlank (gap ++ (c :: more ++ behind)) = c :: (more ++ behind) :=
    skipBlank_append_cons hgap hc.isFirm
  refine ⟨statement, hspelled, ?_⟩
  rw [List.cons_append] at hstatement
  rw [statements?, hskip]
  simp only [hstatement, hrest, hothers, bind, Option.bind]

/-- The statements of a text are what its lines say. -/
theorem WritesLines.statements? {lines : List Line} {cs : List Char} (h : WritesLines lines cs)
    (fuel : Nat) (hfuel : lines.length < fuel) :
    ∃ statements, statements? fuel cs = some statements ∧
      List.Forall₂ Says statements lines := by
  induction h generalizing fuel with
  | @nothing gap trail hgap htrail =>
    obtain ⟨fuel, rfl⟩ := Nat.exists_eq_add_of_le' (Nat.succ_le_of_lt hfuel)
    refine ⟨[], ?_, .nil⟩
    rw [List.length_nil, Toml.statements?, skipBlank_append hgap, htrail.skipBlank]
  | @last line gap cs trail hgap h htrail =>
    obtain ⟨fuel, rfl⟩ := Nat.exists_eq_add_of_le' (Nat.succ_le_of_lt hfuel)
    obtain ⟨statement, hspelled, hstatements⟩ := statements?_of_line hgap h
      (List.append_nil trail ▸ htrail.ends (by simp [Ends])) htrail.endOfLine?_end
      (statements?_nil fuel)
    refine ⟨[statement], ?_, .cons hspelled .nil⟩
    rw [List.append_assoc]
    exact hstatements
  | @line line lines gap cs trail newline others hgap h htrail hnewline hothers ih =>
    obtain ⟨fuel, rfl⟩ := Nat.exists_eq_add_of_le' (Nat.succ_le_of_lt hfuel)
    obtain ⟨statements, hread, hrest⟩ := ih (fuel + lines.length + 1) (by omega)
    obtain ⟨statement, hspelled, hstatements⟩ := statements?_of_line hgap h
      (htrail.ends (hnewline.ends others)) (htrail.endOfLine?_break hnewline) hread
    refine ⟨statement :: statements, ?_, .cons hspelled hrest⟩
    simp only [List.append_assoc]
    exact hstatements

theorem WritesLines.length_le {lines : List Line} {cs : List Char} (h : WritesLines lines cs) :
    lines.length ≤ cs.length := by
  induction h with
  | nothing => exact Nat.zero_le _
  | last _ h =>
    obtain ⟨c, more, rfl, -⟩ := h.exists_cons
    simp only [List.length_append, List.length_cons, List.length_nil]
    omega
  | line _ h _ _ _ ih =>
    obtain ⟨c, more, rfl, -⟩ := h.exists_cons
    simp only [List.length_append, List.length_cons]
    omega

/-- The mark of the byte order is neither white space nor the beginning of a comment. -/
theorem IsGap.append_ne_mark {gap cs : List Char} (h : IsGap gap)
    (hcs : ∀ rest, cs ≠ '\ufeff' :: rest) (rest : List Char) : gap ++ cs ≠ '\ufeff' :: rest := by
  intro heq
  cases h with
  | nil => exact hcs rest heq
  | space hc =>
    rw [(List.cons.inj heq).1] at hc
    cases hc
  | newline hnewline =>
    rcases hnewline with rfl | rfl
    · cases heq
    · cases heq
  | comment => cases heq

theorem WritesLines.ne_mark {lines : List Line} {cs : List Char} (h : WritesLines lines cs)
    (rest : List Char) : cs ≠ '\ufeff' :: rest := by
  have hline {line : Line} {cs : List Char} (h : WritesLine line cs) (more rest : List Char) :
      cs ++ more ≠ '\ufeff' :: rest := by
    obtain ⟨c, others, rfl, hc⟩ := h.exists_cons
    exact fun heq => hc.ne_mark (List.cons.inj heq).1
  cases h with
  | @nothing gap trail hgap htrail =>
    refine hgap.append_ne_mark (fun rest heq => ?_) rest
    cases htrail with
    | spaces h =>
      have hnil : ∀ rest, ([] : List Char) ≠ '\ufeff' :: rest := fun _ heq => by cases heq
      exact h.isGap.append_ne_mark hnil rest ((List.append_nil trail).trans heq)
    | comment h => exact h.isGap.append_ne_mark (fun _ heq => by cases heq) rest heq
  | last hgap h =>
    rw [List.append_assoc]
    exact hgap.append_ne_mark (hline h _) rest
  | line hgap h =>
    simp only [List.append_assoc]
    exact hgap.append_ne_mark (hline h _) rest

/-- The text lays out a table in lines, perhaps behind the mark of the byte order. -/
inductive WritesText : Datum → String → Prop
  | text {entries : List (String × Datum)} {lines : List Line} {mark cs : List Char}
      (hmark : mark = [] ∨ mark = ['\ufeff']) (hlays : Lays [] (.content entries) lines)
      (hlines : WritesLines lines cs) : WritesText (.table entries) (String.ofList (mark ++ cs))

/-- A table can be laid out by one assignment for each of its entries. -/
theorem exists_writesText {entries : List (String × Datum)}
    (hnodup : (entries.map Prod.fst).Nodup)
    (h : ∀ entry ∈ entries, ∃ cs, Writes 0 (.value entry.2) cs) :
    ∃ text, WritesText (.table entries) text := by
  have hlines : ∃ cs, WritesLines (entries.map fun entry => .assignment [entry.1] entry.2) cs := by
    clear hnodup
    induction entries with
    | nil => exact ⟨_, .nothing .nil (.spaces isSpaces_nil)⟩
    | cons entry entries ih =>
      obtain ⟨⟨cs, hvalue⟩, h⟩ := List.forall_mem_cons.1 h
      obtain ⟨others, hothers⟩ := ih h
      obtain ⟨before, hbefore⟩ := exists_writesBefore entry.1
      exact ⟨_, .line .nil (.assignment hbefore hvalue) (.spaces isSpaces_nil) (Or.inl rfl) hothers⟩
  obtain ⟨cs, hlines⟩ := hlines
  have hlays := @Lays.content [] _ _ _ _ (assigns_map hnodup) .nothing (by simp)
  rw [List.append_nil, List.append_nil, List.map_map] at hlays
  exact ⟨_, .text (Or.inl rfl) hlays hlines⟩

/-- A text that writes a value is a document, and its reading holds the value. -/
theorem WritesText.ofText? {value : Datum} {text : String} (h : WritesText value text) :
    ∃ read, ofText? text = some read ∧ read.Holds value := by
  obtain @⟨entries, lines, mark, cs, hmark, hlays, hlines⟩ := h
  have hmarked : withoutMark (String.ofList (mark ++ cs)) = cs := by
    rw [withoutMark, String.toList_ofList]
    rcases hmark with rfl | rfl
    · rw [List.nil_append]
      split
      next => exact absurd rfl (hlines.ne_mark _)
      next => rfl
    · rfl
  obtain ⟨statements, hstatements, hspelled⟩ :=
    hlines.statements? (cs.length + 1) (Nat.lt_succ_of_le hlines.length_le)
  obtain ⟨read, hread, hholds⟩ :=
    hlays.document? hspelled (.point (String.ofList (mark ++ cs)).toList)
  refine ⟨read, ?_, hholds⟩
  rw [Toml.ofText?, hmarked]
  simp only [hstatements, Option.bind_some, hread]

end Toml

/-- A text that writes in TOML what a definition says is read as the definition. -/
theorem Definition.ofToml_eq_ok {definition : Definition} {value : Datum}
    (hshown : definition.Shown value) {text : String} (h : Toml.WritesText value text) :
    ofToml text = .ok definition := by
  obtain ⟨read, hread, hholds⟩ := h.ofText?
  rw [ofToml, hread]
  simp only [Definition.ofReading_eq_ok hshown hholds true]
  rfl

end Concordance
