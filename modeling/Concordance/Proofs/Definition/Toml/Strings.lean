import Concordance.Definition.Toml.Text
import Concordance.Proofs.Text.Encoding
import Mathlib.Data.List.TakeWhile

/-!
# Strings of TOML

How a string is written: on one line or over several, with escapes or as it is.  Reading such a text
gives the string and what is behind it.
-/

namespace Concordance.Toml

open Text (HexDigits)

/-- Characters of a kind end in front of one that is not. -/
theorem takeWhile_append_of_head? {p : Char → Bool} {front rest : List Char}
    (hfront : ∀ c ∈ front, p c = true) (hrest : ∀ c ∈ rest.head?, p c = false) :
    (front ++ rest).takeWhile p = front ∧ (front ++ rest).dropWhile p = rest := by
  rw [List.takeWhile_append_of_pos hfront, List.dropWhile_append_of_pos hfront]
  cases rest with
  | nil => simp
  | cons c rest => simp [hrest c rfl]

/-! ## White space and line breaks -/

/-- White space within a line. -/
def IsSpaces (spaces : List Char) : Prop :=
  ∀ c ∈ spaces, isSpace c = true

theorem isSpaces_nil : IsSpaces [] := by
  simp [IsSpaces]

/-- The characters that end a line. -/
def IsBreak (newline : List Char) : Prop :=
  newline = ['\n'] ∨ newline = ['\r', '\n']

/-- White space and line breaks. -/
inductive IsBreaks : List Char → Prop
  | nil : IsBreaks []
  | space {c : Char} {cs : List Char} (hc : isSpace c = true) (h : IsBreaks cs) : IsBreaks (c :: cs)
  | newline {newline cs : List Char} (hnewline : IsBreak newline) (h : IsBreaks cs) :
      IsBreaks (newline ++ cs)

/-- The character is neither white space nor part of a line break. -/
def IsSolid (c : Char) : Prop :=
  isSpace c = false ∧ c ≠ '\n' ∧ c ≠ '\r'

instance (c : Char) : Decidable (IsSolid c) :=
  inferInstanceAs (Decidable (_ ∧ _))

theorem IsSolid.ne_of_isSpace {c other : Char} (h : IsSolid c) (hother : isSpace other = true) :
    c ≠ other := by
  rintro rfl
  exact absurd hother (by simp [h.1])

section Breaks

variable {newline cs rest : List Char}

theorem IsBreak.lineBreak? (h : IsBreak newline) (rest : List Char) :
    lineBreak? (newline ++ rest) = some rest := by
  rcases h with rfl | rfl
  · rfl
  · rfl

theorem lineBreak?_cons_of_ne {c : Char} (hfeed : c ≠ '\n') (hreturn : c ≠ '\r')
    (rest : List Char) : lineBreak? (c :: rest) = none := by
  rw [lineBreak?]
  · exact fun rest heq => hfeed (List.cons.inj heq).1
  · exact fun rest heq => hreturn (List.cons.inj heq).1

theorem skipBreaks_of_head? (hrest : ∀ c ∈ rest.head?, IsSolid c) : skipBreaks rest = rest := by
  cases rest with
  | nil => rfl
  | cons c rest =>
    have hsolid := hrest c rfl
    rw [skipBreaks]
    · exact fun _ heq => hsolid.ne_of_isSpace rfl (List.cons.inj heq).1
    · exact fun _ heq => hsolid.ne_of_isSpace rfl (List.cons.inj heq).1
    · exact fun _ heq => hsolid.2.1 (List.cons.inj heq).1
    · exact fun _ heq => hsolid.2.2 (List.cons.inj heq).1

theorem skipBreaks_append (h : IsBreaks cs) (hrest : ∀ c ∈ rest.head?, IsSolid c) :
    skipBreaks (cs ++ rest) = rest := by
  induction h with
  | nil => exact skipBreaks_of_head? hrest
  | space hc h ih =>
    simp only [isSpace, Bool.or_eq_true, beq_iff_eq] at hc
    rcases hc with rfl | rfl
    · rw [List.cons_append, skipBreaks, ih]
    · rw [List.cons_append, skipBreaks, ih]
  | newline hnewline h ih =>
    rcases hnewline with rfl | rfl
    · rw [List.append_assoc, List.singleton_append, skipBreaks, ih]
    · rw [List.append_assoc, List.cons_append, List.singleton_append, skipBreaks, ih]

/-- Behind a backslash the rest of the line is left out, and the white space and line breaks that
follow. -/
theorem continuation?_append {spaces : List Char} (hspaces : IsSpaces spaces)
    (hnewline : IsBreak newline) (hcs : IsBreaks cs) (hrest : ∀ c ∈ rest.head?, IsSolid c) :
    continuation? (spaces ++ newline ++ cs ++ rest) = some rest := by
  have hspace : (newline ++ (cs ++ rest)).dropWhile isSpace = newline ++ (cs ++ rest) := by
    rcases hnewline with rfl | rfl
    · rfl
    · rfl
  rw [continuation?, List.append_assoc, List.append_assoc, List.dropWhile_append_of_pos hspaces,
    hspace, hnewline.lineBreak?, Option.map_some, skipBreaks_append hcs hrest]

/-- No escape begins with what may stand at the end of a line. -/
theorem unescape?_append {spaces : List Char} (hspaces : IsSpaces spaces)
    (hnewline : IsBreak newline) : unescape? (spaces ++ newline ++ rest) = none := by
  cases spaces with
  | nil =>
    rcases hnewline with rfl | rfl
    · rfl
    · rfl
  | cons c spaces =>
    have hc := hspaces c List.mem_cons_self
    simp only [isSpace, Bool.or_eq_true, beq_iff_eq] at hc
    rcases hc with rfl | rfl
    · rfl
    · rfl

end Breaks

/-! ## Strings on one line -/

/-- The characters that have an escape of a single letter or sign. -/
def shortEscapes : List (Char × Char) :=
  [('\x08', 'b'), ('\t', 't'), ('\n', 'n'), ('\x0c', 'f'), ('\r', 'r'), ('\x1b', 'e'), ('"', '"'),
    ('\\', '\\')]

/-- The letters of the escapes by code point, with the number of digits of each. -/
def codeEscapes : List (Char × Nat) :=
  [('x', 2), ('u', 4), ('U', 8)]

/-- What may follow a backslash to stand for a character. -/
inductive Escapes (c : Char) : List Char → Prop
  | short {mark : Char} (h : (c, mark) ∈ shortEscapes) : Escapes c [mark]
  | code {mark : Char} {digits : List Char} (hmark : (mark, digits.length) ∈ codeEscapes)
      (hdigits : HexDigits c.toNat digits) : Escapes c (mark :: digits)

theorem hexChar?_append {c : Char} {digits : List Char} (h : HexDigits c.toNat digits)
    (rest : List Char) : hexChar? digits.length (digits ++ rest) = some c := by
  have hvalid : c.toNat.isValidChar := c.valid
  rw [hexChar?, List.take_left]
  simp [h.hexNumber?, hvalid, Char.ofNat_toNat]

theorem Escapes.unescape? {c : Char} {escape : List Char} (h : Escapes c escape)
    (rest : List Char) : unescape? (escape ++ rest) = some (c, escape.length) := by
  cases h with
  | short h =>
    simp only [shortEscapes, List.mem_cons, Prod.mk.injEq, List.not_mem_nil, or_false] at h
    rcases h with ⟨rfl, rfl⟩ | ⟨rfl, rfl⟩ | ⟨rfl, rfl⟩ | ⟨rfl, rfl⟩ | ⟨rfl, rfl⟩ | ⟨rfl, rfl⟩ |
      ⟨rfl, rfl⟩ | ⟨rfl, rfl⟩
    all_goals rfl
  | code hmark hdigits =>
    have hchar := hexChar?_append hdigits rest
    simp only [codeEscapes, List.mem_cons, Prod.mk.injEq, List.not_mem_nil, or_false] at hmark
    rcases hmark with ⟨rfl, hcount⟩ | ⟨rfl, hcount⟩ | ⟨rfl, hcount⟩
    all_goals
      rw [hcount] at hchar
      rw [List.cons_append, Toml.unescape?, hchar, List.length_cons, hcount]
      rfl

/-- The characters of a string as they may be written between double quotes on one line. -/
inductive Spelled : List Char → List Char → Prop
  | nil : Spelled [] []
  | plain {c : Char} {cs written : List Char} (hline : isLineChar c = true) (hquote : c ≠ '"')
      (hbackslash : c ≠ '\\') (h : Spelled cs written) : Spelled (c :: cs) (c :: written)
  | escaped {c : Char} {cs escape written : List Char} (hescape : Escapes c escape)
      (h : Spelled cs written) : Spelled (c :: cs) ('\\' :: escape ++ written)

/-- Characters of a line without quotes and backslashes are written as they are. -/
theorem spelled_self {cs : List Char}
    (h : ∀ c ∈ cs, isLineChar c = true ∧ c ≠ '"' ∧ c ≠ '\\') : Spelled cs cs := by
  induction cs with
  | nil => exact .nil
  | cons c cs ih =>
    obtain ⟨⟨hline, hquote, hbackslash⟩, h⟩ := List.forall_mem_cons.1 h
    exact .plain hline hquote hbackslash (ih h)

theorem Spelled.basicBody? {cs written : List Char} (h : Spelled cs written) (rest : List Char) :
    basicBody? (written ++ '"' :: rest) = some (cs, rest) := by
  induction h with
  | nil =>
    rw [List.nil_append, Toml.basicBody?]
  | plain hline hquote hbackslash h ih =>
    rw [List.cons_append, Toml.basicBody?, if_pos hline, ih, Option.map_some]
    · exact hquote
    · exact hbackslash
  | escaped hescape h ih =>
    rw [List.append_assoc, List.cons_append, Toml.basicBody?, hescape.unescape?]
    simp only [List.drop_left, ih, Option.map_some]

theorem Spelled.head?_ne {cs written : List Char} (h : Spelled cs written) :
    written.head? ≠ some '"' := by
  cases h with
  | nil => simp
  | plain _ hquote => simpa using hquote
  | escaped => simp

/-- Every string can be written on one line, by the code points of its characters. -/
theorem exists_spelled (cs : List Char) : ∃ written, Spelled cs written := by
  induction cs with
  | nil => exact ⟨[], .nil⟩
  | cons c cs ih =>
    obtain ⟨written, hwritten⟩ := ih
    have hvalid := Text.toNat_valid c
    obtain ⟨digits, hdigits, hcount⟩ :
        ∃ digits, HexDigits c.toNat digits ∧ digits.length = 8 :=
      Text.exists_hexDigits 8 (by omega)
    have hmark : ('U', digits.length) ∈ codeEscapes := by simp [hcount, codeEscapes]
    exact ⟨_, .escaped (.code hmark hdigits) hwritten⟩

/-- Whether a string may be written as it is between single quotes on one line. -/
def IsLiteral (cs : List Char) : Prop :=
  ∀ c ∈ cs, isLineChar c = true ∧ c ≠ '\''

theorem IsLiteral.literalBody? {cs : List Char} (h : IsLiteral cs) (rest : List Char) :
    literalBody? (cs ++ '\'' :: rest) = some (cs, rest) := by
  induction cs with
  | nil =>
    rw [List.nil_append, Toml.literalBody?]
  | cons c cs ih =>
    obtain ⟨⟨hline, hquote⟩, h⟩ := List.forall_mem_cons.1 h
    rw [List.cons_append, Toml.literalBody?, if_pos hline, ih h, Option.map_some]
    exact hquote

/-! ## Strings over several lines -/

/-- The characters of a string as they may be written over several lines between three quotes of a
kind.  At most two quotes follow one another, also in front of the three that end it.  Between
double quotes there are escapes, and a backslash folds its line with those that follow. -/
inductive LongSpelled (quote : Char) : List Char → List Char → Prop
  | quotes {count : Nat} (hcount : count ≤ 2) :
      LongSpelled quote (List.replicate count quote) (List.replicate count quote)
  | plain {c : Char} {cs written : List Char} (hline : c = '\n' ∨ isLineChar c = true)
      (hquote : c ≠ quote) (hbackslash : quote = '"' → c ≠ '\\')
      (h : LongSpelled quote cs written) : LongSpelled quote (c :: cs) (c :: written)
  | lineEnd {cs written : List Char} (h : LongSpelled quote cs written) :
      LongSpelled quote ('\r' :: '\n' :: cs) ('\r' :: '\n' :: written)
  | quote {cs written : List Char} (hrun : (written.takeWhile (· == quote)).length < 2)
      (hend : written.dropWhile (· == quote) ≠ []) (h : LongSpelled quote cs written) :
      LongSpelled quote (quote :: cs) (quote :: written)
  | escaped {c : Char} {cs escape written : List Char} (hquote : quote = '"')
      (hescape : Escapes c escape) (h : LongSpelled quote cs written) :
      LongSpelled quote (c :: cs) ('\\' :: escape ++ written)
  | folded {cs spaces newline more written : List Char} (hquote : quote = '"')
      (hspaces : IsSpaces spaces) (hnewline : IsBreak newline) (hmore : IsBreaks more)
      (hwritten : ∀ c ∈ written.head?, IsSolid c)
      (h : LongSpelled quote cs written) :
      LongSpelled quote cs ('\\' :: (spaces ++ newline ++ more ++ written))

section Long

variable {quote : Char} {cs written rest : List Char}

theorem closing?_cons_of_ne {c : Char} (h : c ≠ quote) : closing? quote (c :: rest) = none := by
  rw [closing?, List.takeWhile_cons_of_neg (by simpa using h)]
  rfl

theorem closing?_replicate {count : Nat} (hcount : count ≤ 2) (hrest : rest.head? ≠ some quote) :
    closing? quote (List.replicate count quote ++ quote :: quote :: quote :: rest) =
      some (List.replicate count quote, rest) := by
  have hcs : List.replicate count quote ++ quote :: quote :: quote :: rest =
      List.replicate (count + 3) quote ++ rest := by
    rw [← List.replicate_append_replicate, List.append_assoc]
    rfl
  have hrun : (List.replicate (count + 3) quote ++ rest).takeWhile (· == quote) =
      List.replicate (count + 3) quote := by
    refine (takeWhile_append_of_head? (by simp) fun c hc => ?_).1
    rw [beq_eq_false_iff_ne]
    rintro rfl
    exact hrest hc
  rw [hcs, closing?, hrun, List.length_replicate, Nat.min_eq_right (by omega),
    if_neg (by omega), Nat.add_sub_cancel, List.drop_left' List.length_replicate]

theorem closing?_quote (hrun : (written.takeWhile (· == quote)).length < 2)
    (hend : written.dropWhile (· == quote) ≠ []) :
    closing? quote (quote :: (written ++ rest)) = none := by
  have hlength : (written.takeWhile (· == quote)).length ≠ written.length := by
    intro heq
    have hsplit := congrArg List.length (List.takeWhile_append_dropWhile (p := (· == quote))
      (l := written))
    rw [List.length_append, heq] at hsplit
    exact hend (List.length_eq_zero_iff.1 (by omega))
  rw [closing?, List.takeWhile_cons_of_pos (by simp), List.takeWhile_append, if_neg hlength,
    List.length_cons, if_pos (by omega)]

theorem ne_return {c : Char} (hline : c = '\n' ∨ isLineChar c = true) : c ≠ '\r' := by
  rintro rfl
  simp [isLineChar] at hline

theorem longBasicBody?_cons {c : Char} (hclosing : closing? '"' (c :: rest) = none)
    (hline : c = '\n' ∨ isLineChar c = true) (hbackslash : c ≠ '\\') :
    longBasicBody? (c :: rest) = (longBasicBody? rest).map fun body => (c :: body.1, body.2) := by
  rw [longBasicBody?.eq_def, hclosing]
  simp only
  split
  next heq => cases heq
  next heq => exact absurd (List.cons.inj heq).1 hbackslash
  next heq => exact absurd (List.cons.inj heq).1 (ne_return hline)
  next heq =>
    obtain ⟨rfl, rfl⟩ := List.cons.inj heq
    rw [if_pos hline]

theorem LongSpelled.longBasicBody? (h : LongSpelled '"' cs written)
    (hrest : rest.head? ≠ some '"') :
    longBasicBody? (written ++ '"' :: '"' :: '"' :: rest) = some (cs, rest) := by
  induction h with
  | quotes hcount => rw [Toml.longBasicBody?.eq_def, closing?_replicate hcount hrest]
  | plain hline hquote hbackslash h ih =>
    rw [List.cons_append, longBasicBody?_cons (closing?_cons_of_ne hquote) hline (hbackslash rfl),
      ih, Option.map_some]
  | lineEnd h ih =>
    rw [List.cons_append, List.cons_append, Toml.longBasicBody?, closing?_cons_of_ne (by decide)]
    simp only [ih, Option.map_some]
  | quote hrun hend h ih =>
    rw [List.cons_append, longBasicBody?_cons (closing?_quote hrun hend) (by decide) (by decide),
      ih, Option.map_some]
  | escaped hquote hescape h ih =>
    rw [List.append_assoc, List.cons_append, Toml.longBasicBody?, closing?_cons_of_ne (by decide)]
    simp only [hescape.unescape?, List.drop_left, ih, Option.map_some]
  | @folded cs spaces newline more written hquote hspaces hnewline hmore hwritten h ih =>
    have hhead : ∀ c ∈ (written ++ '"' :: '"' :: '"' :: rest).head?, IsSolid c := by
      cases written with
      | nil => simp [IsSolid, isSpace]
      | cons c written => exact hwritten
    have hnext := continuation?_append hspaces hnewline hmore hhead
    have hescape : unescape? (spaces ++ newline ++ more ++
        (written ++ '"' :: '"' :: '"' :: rest)) = none := by
      rw [List.append_assoc]
      exact unescape?_append hspaces hnewline
    rw [List.cons_append, List.append_assoc, Toml.longBasicBody?, closing?_cons_of_ne (by decide)]
    simp only [hescape]
    split
    next heq =>
      rw [hnext] at heq
      cases heq
      exact ih
    next heq =>
      rw [hnext] at heq
      cases heq

theorem longLiteralBody?_cons {c : Char} (hclosing : closing? '\'' (c :: rest) = none)
    (hline : c = '\n' ∨ isLineChar c = true) :
    longLiteralBody? (c :: rest) =
      (longLiteralBody? rest).map fun body => (c :: body.1, body.2) := by
  rw [longLiteralBody?.eq_def, hclosing]
  simp only
  split
  next heq => cases heq
  next heq => exact absurd (List.cons.inj heq).1 (ne_return hline)
  next heq =>
    obtain ⟨rfl, rfl⟩ := List.cons.inj heq
    rw [if_pos hline]

theorem LongSpelled.longLiteralBody? (h : LongSpelled '\'' cs written)
    (hrest : rest.head? ≠ some '\'') :
    longLiteralBody? (written ++ '\'' :: '\'' :: '\'' :: rest) = some (cs, rest) := by
  induction h with
  | quotes hcount => rw [Toml.longLiteralBody?.eq_def, closing?_replicate hcount hrest]
  | plain hline hquote hbackslash h ih =>
    rw [List.cons_append, longLiteralBody?_cons (closing?_cons_of_ne hquote) hline, ih,
      Option.map_some]
  | lineEnd h ih =>
    rw [List.cons_append, List.cons_append, Toml.longLiteralBody?,
      closing?_cons_of_ne (by decide)]
    simp only [ih, Option.map_some]
  | quote hrun hend h ih =>
    rw [List.cons_append, longLiteralBody?_cons (closing?_quote hrun hend) (by decide), ih,
      Option.map_some]
  | escaped hquote | folded hquote => cases hquote

end Long

/-! ## Strings -/

/-- What may stand between the quotes that open a string over several lines and its characters: a
line break, which is needed if the characters begin with one. -/
def IsOpening (opening written : List Char) : Prop :=
  IsBreak opening ∨ opening = [] ∧ written.head? ≠ some '\n' ∧ written.head? ≠ some '\r'

/-- How a string is written, its quotes included. -/
inductive WritesString (text : String) : List Char → Prop
  | basic {written : List Char} (h : Spelled text.toList written) :
      WritesString text ('"' :: written ++ ['"'])
  | literal (h : IsLiteral text.toList) : WritesString text ('\'' :: text.toList ++ ['\''])
  | long {quote : Char} {opening written : List Char} (hquote : quote = '"' ∨ quote = '\'')
      (hopening : IsOpening opening written) (h : LongSpelled quote text.toList written) :
      WritesString text
        (quote :: quote :: quote :: (opening ++ written ++ [quote, quote, quote]))

theorem IsOpening.dropLineBreak {opening written : List Char} (h : IsOpening opening written)
    {quote : Char} (hquote : quote = '"' ∨ quote = '\'') (rest : List Char) :
    dropLineBreak (opening ++ written ++ quote :: rest) = written ++ quote :: rest := by
  rw [List.append_assoc]
  rcases h with hbreak | ⟨rfl, hfeed, hreturn⟩
  · rw [Toml.dropLineBreak, hbreak.lineBreak?, Option.getD_some]
  · rw [List.nil_append, Toml.dropLineBreak]
    cases written with
    | nil =>
      rw [List.nil_append, lineBreak?_cons_of_ne, Option.getD_none]
      · rcases hquote with rfl | rfl <;> decide
      · rcases hquote with rfl | rfl <;> decide
    | cons c written =>
      rw [List.cons_append, lineBreak?_cons_of_ne, Option.getD_none]
      · simpa using hfeed
      · simpa using hreturn

/-- A string on one line does not look like one over several lines. -/
theorem append_quote_ne {quote : Char} {written rest : List Char}
    (hwritten : written.head? ≠ some quote) (hrest : rest.head? ≠ some quote)
    (more : List Char) : written ++ quote :: rest ≠ quote :: quote :: more := by
  intro heq
  cases written with
  | nil =>
    rw [List.nil_append] at heq
    exact hrest ((List.cons.inj heq).2 ▸ rfl)
  | cons c written => exact hwritten (congrArg some (List.cons.inj heq).1)

theorem WritesString.string? {text : String} {cs : List Char} (h : WritesString text cs)
    {rest : List Char} (hdouble : rest.head? ≠ some '"') (hsingle : rest.head? ≠ some '\'') :
    string? (cs ++ rest) = some (text.toList, rest) := by
  cases h with
  | @basic written h =>
    rw [List.append_assoc, List.cons_append, List.singleton_append, Toml.string?, h.basicBody?]
    exact append_quote_ne h.head?_ne hdouble
  | literal h =>
    have hhead : text.toList.head? ≠ some '\'' := fun heq =>
      (h _ (List.mem_of_mem_head? heq)).2 rfl
    rw [List.append_assoc, List.cons_append, List.singleton_append, Toml.string?, h.literalBody?]
    exact append_quote_ne hhead hsingle
  | @long quote opening written hquote hopening h =>
    have hcs : quote :: quote :: quote :: (opening ++ written ++ [quote, quote, quote]) ++ rest =
        quote :: quote :: quote :: (opening ++ written ++ quote :: quote :: quote :: rest) := by
      simp
    rw [hcs]
    rcases hquote with rfl | rfl
    · rw [Toml.string?, hopening.dropLineBreak (Or.inl rfl), h.longBasicBody? hdouble]
    · rw [Toml.string?, hopening.dropLineBreak (Or.inr rfl), h.longLiteralBody? hsingle]

end Concordance.Toml
