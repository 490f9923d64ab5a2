import Concordance.Definition.Json
import Concordance.Proofs.Definition.Datum
import Concordance.Proofs.Text.Encoding
import Mathlib.Data.List.TakeWhile

/-!
# Texts of JSON

How a value is written in JSON: with white space of any kind between its parts, with the entries of
a table in the order of the value, and with each character of a string as it is or by any of its
escapes.  Reading such a text gives a reading that holds the value.
-/

namespace Concordance

namespace Json

open Text (Extent HexDigits)

/-! ## Strings -/

/-- The characters that have an escape of a single letter or sign. -/
def shortEscapes : List (Char × Char) :=
  [('"', '"'), ('\\', '\\'), ('/', '/'), ('\x08', 'b'), ('\x0c', 'f'), ('\n', 'n'), ('\r', 'r'),
    ('\t', 't')]

/-- What may follow a backslash to stand for a character. -/
inductive Escapes (c : Char) : List Char → Prop
  | short {mark : Char} (h : (c, mark) ∈ shortEscapes) : Escapes c [mark]
  | unit {digits : List Char} (hdigits : HexDigits c.toNat digits) (hcount : digits.length = 4) :
      Escapes c ('u' :: digits)
  | pair {high low : Nat} {highs lows : List Char} (hhigh : high < 0x400) (hlow : low < 0x400)
      (hc : c.toNat = 0x10000 + high * 0x400 + low)
      (hhighs : HexDigits (0xD800 + high) highs) (hhighs_count : highs.length = 4)
      (hlows : HexDigits (0xDC00 + low) lows) (hlows_count : lows.length = 4) :
      Escapes c ('u' :: highs ++ '\\' :: 'u' :: lows)

/-- The characters of a string as they may be written between its quotes. -/
inductive Spelled : List Char → List Char → Prop
  | nil : Spelled [] []
  | plain {c : Char} {cs written : List Char} (hcontrol : 0x20 ≤ c.toNat) (hquote : c ≠ '"')
      (hbackslash : c ≠ '\\') (h : Spelled cs written) : Spelled (c :: cs) (c :: written)
  | escaped {c : Char} {cs escape written : List Char} (hescape : Escapes c escape)
      (h : Spelled cs written) : Spelled (c :: cs) ('\\' :: escape ++ written)

/-- Characters without quotes, backslashes and control characters are written as they are. -/
theorem spelled_self {cs : List Char}
    (h : ∀ c ∈ cs, 0x20 ≤ c.toNat ∧ c ≠ '"' ∧ c ≠ '\\') : Spelled cs cs := by
  induction cs with
  | nil => exact .nil
  | cons c cs ih =>
    obtain ⟨⟨hcontrol, hquote, hbackslash⟩, h⟩ := List.forall_mem_cons.1 h
    exact .plain hcontrol hquote hbackslash (ih h)

theorem fourDigits?_append {n : Nat} {digits : List Char} (h : HexDigits n digits)
    (hcount : digits.length = 4) (rest : List Char) : fourDigits? (digits ++ rest) = some n := by
  have htake : (digits ++ rest).take 4 = digits := by
    rw [← hcount, List.take_left]
  rw [fourDigits?, htake, if_pos hcount, h.hexNumber?]

theorem Escapes.unescape? {c : Char} {escape : List Char} (h : Escapes c escape)
    (rest : List Char) : unescape? (escape ++ rest) = some (c, escape.length) := by
  cases h with
  | short h =>
    simp only [shortEscapes, List.mem_cons, Prod.mk.injEq, List.not_mem_nil, or_false] at h
    rcases h with ⟨rfl, rfl⟩ | ⟨rfl, rfl⟩ | ⟨rfl, rfl⟩ | ⟨rfl, rfl⟩ | ⟨rfl, rfl⟩ | ⟨rfl, rfl⟩ |
      ⟨rfl, rfl⟩ | ⟨rfl, rfl⟩
    all_goals rfl
  | @unit digits hdigits hcount =>
    have hvalid := Text.toNat_valid c
    rw [List.cons_append, Json.unescape?, fourDigits?_append hdigits hcount]
    simp only [bind, Option.bind]
    rw [if_neg (by omega), if_neg (by omega), Char.ofNat_toNat, List.length_cons, hcount]
  | @pair high low highs lows hhigh hlow hc hhighs hhighs_count hlows hlows_count =>
    have hdrop : (highs ++ '\\' :: 'u' :: (lows ++ rest)).drop 4 =
        '\\' :: 'u' :: (lows ++ rest) := by
      rw [← hhighs_count, List.drop_left]
    have hchar : Char.ofNat (0x10000 + (0xD800 + high - 0xD800) * 0x400 +
        (0xDC00 + low - 0xDC00)) = c := by
      rw [Nat.add_sub_cancel_left, Nat.add_sub_cancel_left, ← hc, Char.ofNat_toNat]
    have hlength : ('u' :: highs ++ '\\' :: 'u' :: lows).length = 11 := by
      simp [hhighs_count, hlows_count]
    rw [hlength]
    simp only [List.cons_append, List.append_assoc]
    rw [Json.unescape?, fourDigits?_append hhighs hhighs_count]
    simp only [bind, Option.bind, hdrop, fourDigits?_append hlows hlows_count]
    rw [if_neg (by omega), if_pos (by omega), if_pos (by omega), hchar]

theorem Spelled.stringBody? {cs written : List Char} (h : Spelled cs written) (rest : List Char) :
    stringBody? (written ++ '"' :: rest) = some (cs, written.length + 1) := by
  induction h with
  | nil =>
    rw [List.nil_append, Json.stringBody?]
    rfl
  | plain hcontrol hquote hbackslash h ih =>
    rw [List.cons_append, Json.stringBody?, if_neg (by omega), ih, Option.map_some,
      List.length_cons, Nat.add_comm 1]
    · exact hquote
    · exact hbackslash
  | @escaped c cs escape written hescape h ih =>
    rw [List.append_assoc, List.cons_append, Json.stringBody?, hescape.unescape?]
    simp only [List.drop_left, ih, Option.map_some, List.cons_append, List.length_cons,
      List.length_append, Option.some.injEq, Prod.mk.injEq, true_and]
    omega

/-! ## Values -/

/-- White space between the parts of a text. -/
def IsGap (gap : List Char) : Prop :=
  ∀ c ∈ gap, isSpace c = true

/-- A colon with white space around it. -/
def IsColon (colon : List Char) : Prop :=
  ∃ gap gap', IsGap gap ∧ IsGap gap' ∧ colon = gap ++ ':' :: gap'

/-- What is written: a value, or the rest of a sequence or of a table from some item or entry on. -/
inductive Part where
  | value (value : Datum)
  | items (items : List Datum)
  | entries (entries : List (String × Datum))

/-- How values are written.  The rest of a sequence or table ends with its bracket. -/
inductive Writes : Part → List Char → Prop
  | null : Writes (.value .null) "null".toList
  | boolean (value : Bool) : Writes (.value (.boolean value)) (toString value).toList
  | string {text : String} {written : List Char} (h : Spelled text.toList written) :
      Writes (.value (.string text)) ('"' :: written ++ ['"'])
  | emptySequence {gap : List Char} (hgap : IsGap gap) :
      Writes (.value (.sequence [])) ('[' :: gap ++ [']'])
  | sequence {gap cs : List Char} {items : List Datum} (hgap : IsGap gap)
      (h : Writes (.items items) cs) : Writes (.value (.sequence items)) ('[' :: gap ++ cs)
  | lastItem {cs gap : List Char} {item : Datum} (hitem : Writes (.value item) cs)
      (hgap : IsGap gap) : Writes (.items [item]) (cs ++ gap ++ [']'])
  | item {cs gap gap' others : List Char} {item : Datum} {items : List Datum}
      (hitem : Writes (.value item) cs) (hgap : IsGap gap) (hgap' : IsGap gap')
      (hothers : Writes (.items items) others) :
      Writes (.items (item :: items)) (cs ++ gap ++ ',' :: gap' ++ others)
  | emptyTable {gap : List Char} (hgap : IsGap gap) :
      Writes (.value (.table [])) ('\x7b' :: gap ++ ['\x7d'])
  | table {gap cs : List Char} {entries : List (String × Datum)} (hgap : IsGap gap)
      (h : Writes (.entries entries) cs) : Writes (.value (.table entries)) ('\x7b' :: gap ++ cs)
  | lastEntry {key : String} {written colon cs gap : List Char} {value : Datum}
      (hkey : Spelled key.toList written) (hcolon : IsColon colon)
      (hvalue : Writes (.value value) cs) (hgap : IsGap gap) :
      Writes (.entries [(key, value)])
        ('"' :: written ++ '"' :: colon ++ cs ++ gap ++ ['\x7d'])
  | entry {key : String} {written colon cs gap gap' others : List Char} {value : Datum}
      {entries : List (String × Datum)} (hkey : Spelled key.toList written)
      (hcolon : IsColon colon) (hvalue : Writes (.value value) cs) (hgap : IsGap gap)
      (hgap' : IsGap gap') (hothers : Writes (.entries entries) others) :
      Writes (.entries ((key, value) :: entries))
        ('"' :: written ++ '"' :: colon ++ cs ++ gap ++ ',' :: gap' ++ others)

/-- The text begins with a character that is neither white space nor a bracket that closes. -/
def Starts (cs : List Char) : Prop :=
  ∃ c rest, cs = c :: rest ∧ isSpace c = false ∧ c ≠ ']' ∧ c ≠ '\x7d'

theorem Starts.append {cs : List Char} (h : Starts cs) (more : List Char) :
    Starts (cs ++ more) := by
  obtain ⟨c, rest, rfl, hc⟩ := h
  exact ⟨c, rest ++ more, rfl, hc⟩

theorem Writes.starts {part : Part} {cs : List Char} (h : Writes part cs) : Starts cs := by
  induction h with
  | null => exact ⟨'n', _, rfl, by decide⟩
  | boolean value =>
    cases value
    · exact ⟨'f', _, rfl, by decide⟩
    · exact ⟨'t', _, rfl, by decide⟩
  | string | lastEntry | entry => exact ⟨'"', _, rfl, by decide⟩
  | emptySequence | sequence => exact ⟨'[', _, rfl, by decide⟩
  | emptyTable | table => exact ⟨'\x7b', _, rfl, by decide⟩
  | lastItem _ _ ih => exact (ih.append _).append _
  | item _ _ _ _ ih => exact ((ih.append _).append _).append _

theorem skipSpace_append {gap : List Char} (hgap : IsGap gap) (rest : List Char) :
    skipSpace (gap ++ rest) = skipSpace rest :=
  List.dropWhile_append_of_pos hgap

theorem Starts.skipSpace {cs : List Char} (h : Starts cs) : skipSpace cs = cs := by
  obtain ⟨c, rest, rfl, hc, -⟩ := h
  exact List.dropWhile_cons_of_neg (by simp [hc])

/-- The text is read to the end, where a bracket that is waited for included, and the reading holds
what was written. -/
def ReadBack : Part → List Char → Prop
  | .value value, cs => ∀ fuel rest, 2 * cs.length ≤ fuel →
    ∃ read, reading fuel (cs ++ rest) = (read, rest) ∧ read.Holds value
  | .items values, cs => ∀ fuel rest, 2 * cs.length ≤ fuel →
    ∃ reads behind, items fuel (cs ++ rest) = (reads, .closed behind, rest) ∧
      List.Forall₂ Reading.Holds reads values
  | .entries values, cs => ∀ fuel rest, 2 * cs.length ≤ fuel →
    ∃ reads behind, entries fuel (cs ++ rest) = (reads, .closed behind, rest) ∧
      List.Forall₂ (fun read entry => read.1 = entry.1 ∧ read.2.2.Holds entry.2) reads values

section Steps

variable {fuel : Nat} {cs rest : List Char}

theorem reading_null : ∃ read, reading (fuel + 1) ("null".toList ++ rest) = (read, rest) ∧
    read.Holds .null :=
  ⟨.null (.point rest), rfl, .null _⟩

theorem reading_boolean (value : Bool) :
    ∃ read, reading (fuel + 1) ((toString value).toList ++ rest) = (read, rest) ∧
      read.Holds (.boolean value) := by
  cases value with
  | false => exact ⟨.boolean false (.point rest), rfl, .boolean false _⟩
  | true => exact ⟨.boolean true (.point rest), rfl, .boolean true _⟩

theorem reading_string {text : String} {written : List Char} (h : Spelled text.toList written) :
    ∃ read, reading (fuel + 1) ('"' :: written ++ ['"'] ++ rest) = (read, rest) ∧
      read.Holds (.string text) := by
  refine ⟨.string text (.point rest), ?_, .string text _⟩
  have hdrop : (written ++ '"' :: rest).drop (written.length + 1) = rest := by
    simp [List.drop_append]
  rw [List.append_assoc, List.cons_append, List.cons_append, List.nil_append, reading]
  simp only [scalar, h.stringBody?, hdrop, String.ofList_toList]
  · simp
  · simp

theorem reading_sequence (h : Starts cs) {values : List Datum}
    (hitems : ∃ reads behind, items fuel (cs ++ rest) = (reads, .closed behind, rest) ∧
      List.Forall₂ Reading.Holds reads values) {gap : List Char} (hgap : IsGap gap) :
    ∃ read, reading (fuel + 1) ('[' :: gap ++ cs ++ rest) = (read, rest) ∧
      read.Holds (.sequence values) := by
  obtain ⟨reads, behind, hreads, hholds⟩ := hitems
  refine ⟨.sequence (.point ('[' :: (gap ++ (cs ++ rest)))) reads (.closed behind), ?_,
    .sequence hholds⟩
  have hskip : skipSpace (gap ++ (cs ++ rest)) = cs ++ rest := by
    rw [skipSpace_append hgap, (h.append rest).skipSpace]
  obtain ⟨c, more, heq, -, hc, -⟩ := h.append rest
  rw [List.append_assoc, List.cons_append, reading, hskip]
  rw [heq] at hreads ⊢
  split
  next hclosed => exact absurd (List.cons.inj hclosed).1 hc
  next => rw [hreads]

theorem reading_table (h : Starts cs) {values : List (String × Datum)}
    (hentries : ∃ reads behind, entries fuel (cs ++ rest) = (reads, .closed behind, rest) ∧
      List.Forall₂ (fun read entry => read.1 = entry.1 ∧ read.2.2.Holds entry.2) reads values)
    {gap : List Char} (hgap : IsGap gap) :
    ∃ read, reading (fuel + 1) ('\x7b' :: gap ++ cs ++ rest) = (read, rest) ∧
      read.Holds (.table values) := by
  obtain ⟨reads, behind, hreads, hholds⟩ := hentries
  refine ⟨.table (.point ('\x7b' :: (gap ++ (cs ++ rest)))) reads (.closed behind), ?_,
    .of_forall₂ (List.Perm.refl reads) hholds⟩
  have hskip : skipSpace (gap ++ (cs ++ rest)) = cs ++ rest := by
    rw [skipSpace_append hgap, (h.append rest).skipSpace]
  obtain ⟨c, more, heq, -, -, hc⟩ := h.append rest
  rw [List.append_assoc, List.cons_append, reading, hskip]
  rw [heq] at hreads ⊢
  split
  next hclosed => exact absurd (List.cons.inj hclosed).1 hc
  next => rw [hreads]

theorem skipSpace_gap_cons {gap : List Char} (hgap : IsGap gap) {c : Char}
    (hc : isSpace c = false) : skipSpace (gap ++ c :: rest) = c :: rest :=
  (skipSpace_append hgap _).trans (List.dropWhile_cons_of_neg (by simp [hc]))

theorem reading_emptySequence {gap : List Char} (hgap : IsGap gap) :
    ∃ read, reading (fuel + 1) ('[' :: gap ++ [']'] ++ rest) = (read, rest) ∧
      read.Holds (.sequence []) := by
  refine ⟨.sequence (.point ('[' :: (gap ++ ']' :: rest))) [] (.closed (.point rest)), ?_,
    .sequence .nil⟩
  rw [List.append_assoc, List.cons_append, List.cons_append, List.nil_append, reading,
    skipSpace_gap_cons hgap (by decide)]
  rfl

theorem reading_emptyTable {gap : List Char} (hgap : IsGap gap) :
    ∃ read, reading (fuel + 1) ('\x7b' :: gap ++ ['\x7d'] ++ rest) = (read, rest) ∧
      read.Holds (.table []) := by
  refine ⟨.table (.point ('\x7b' :: (gap ++ '\x7d' :: rest))) [] (.closed (.point rest)), ?_,
    .of_forall₂ (List.Perm.refl []) .nil⟩
  rw [List.append_assoc, List.cons_append, List.cons_append, List.nil_append, reading,
    skipSpace_gap_cons hgap (by decide)]
  rfl

/-- What becomes of a sequence is decided behind its next item. -/
theorem items_of_starts (h : Starts cs) {read : Reading}
    (hread : reading fuel cs = (read, rest)) :
    items (fuel + 1) cs =
      match skipSpace rest with
      | ']' :: rest => ([read], .closed (.point rest), rest)
      | ',' :: rest =>
        let (others, ending, rest) := items fuel (skipSpace rest)
        (read :: others, ending, rest)
      | rest => ([read], .broken, rest) := by
  obtain ⟨c, more, rfl, -, hc, -⟩ := h
  rw [items]
  · rewrite [hread]
    rfl
  · simp
  · intro other heq
    exact hc (List.cons.inj heq).1

/-- What becomes of a table is decided behind its next entry. -/
theorem entries_of_spelled {key : String} {written : List Char} (hkey : Spelled key.toList written)
    {colon : List Char} (hcolon : IsColon colon) (h : Starts cs) {read : Reading}
    (hread : reading fuel cs = (read, rest)) :
    ∃ extent, entries (fuel + 1) ('"' :: written ++ '"' :: colon ++ cs) =
      match skipSpace rest with
      | '\x7d' :: rest => ([(key, extent, read)], .closed (.point rest), rest)
      | ',' :: rest =>
        let (others, ending, rest) := entries fuel (skipSpace rest)
        ((key, extent, read) :: others, ending, rest)
      | rest => ([(key, extent, read)], .broken, rest) := by
  obtain ⟨gap, gap', hgap, hgap', rfl⟩ := hcolon
  refine ⟨keyExtent (gap ++ ':' :: (gap' ++ cs)), ?_⟩
  have hdrop : (written ++ '"' :: (gap ++ ':' :: (gap' ++ cs))).drop (written.length + 1) =
      gap ++ ':' :: (gap' ++ cs) := by
    simp [List.drop_append]
  have hskip : skipSpace (gap' ++ cs) = cs := by
    rw [skipSpace_append hgap', h.skipSpace]
  simp only [List.cons_append, List.append_assoc]
  rw [entries]
  simp only [hkey.stringBody?, hdrop, skipSpace_gap_cons hgap (show isSpace ':' = false by decide),
    String.ofList_toList]
  rewrite [hskip, hread]
  rfl

/-- A text that starts takes fuel. -/
theorem Starts.exists_fuel (h : Starts cs) (hfuel : 2 * cs.length ≤ fuel) :
    ∃ n, fuel = n + 1 ∧ 2 * cs.length ≤ n + 1 := by
  obtain ⟨c, more, rfl, -⟩ := h
  rw [List.length_cons] at hfuel ⊢
  exact ⟨fuel - 1, by omega, by omega⟩

end Steps

/-- What is written is read back.  Each character that is written pays for two steps, one
from a value into its parts and one from a part to the next. -/
theorem Writes.readBack {part : Part} {cs : List Char} (h : Writes part cs) :
    ReadBack part cs := by
  have hstarts := h.starts
  induction h with
  | null =>
    intro fuel rest hfuel
    obtain ⟨fuel, rfl, -⟩ := hstarts.exists_fuel hfuel
    exact reading_null
  | boolean value =>
    intro fuel rest hfuel
    obtain ⟨fuel, rfl, -⟩ := hstarts.exists_fuel hfuel
    exact reading_boolean value
  | string h =>
    intro fuel rest hfuel
    obtain ⟨fuel, rfl, -⟩ := hstarts.exists_fuel hfuel
    exact reading_string h
  | emptySequence hgap =>
    intro fuel rest hfuel
    obtain ⟨fuel, rfl, -⟩ := hstarts.exists_fuel hfuel
    exact reading_emptySequence hgap
  | emptyTable hgap =>
    intro fuel rest hfuel
    obtain ⟨fuel, rfl, -⟩ := hstarts.exists_fuel hfuel
    exact reading_emptyTable hgap
  | sequence hgap h ih =>
    intro fuel rest hfuel
    obtain ⟨fuel, rfl, hfuel⟩ := hstarts.exists_fuel hfuel
    simp only [List.cons_append, List.length_cons, List.length_append] at hfuel
    exact reading_sequence h.starts (ih h.starts fuel rest (by omega)) hgap
  | table hgap h ih =>
    intro fuel rest hfuel
    obtain ⟨fuel, rfl, hfuel⟩ := hstarts.exists_fuel hfuel
    simp only [List.cons_append, List.length_cons, List.length_append] at hfuel
    exact reading_table h.starts (ih h.starts fuel rest (by omega)) hgap
  | @lastItem cs gap item hitem hgap ih =>
    intro fuel rest hfuel
    obtain ⟨fuel, rfl, hfuel⟩ := hstarts.exists_fuel hfuel
    simp only [List.length_append, List.length_singleton] at hfuel
    obtain ⟨read, hread, hholds⟩ := ih hitem.starts fuel (gap ++ ']' :: rest) (by omega)
    refine ⟨[read], .point rest, ?_, .cons hholds .nil⟩
    rw [List.append_assoc, List.append_assoc, List.cons_append, List.nil_append,
      items_of_starts (hitem.starts.append _) hread, skipSpace_gap_cons hgap (by decide)]
    rfl
  | @item cs gap gap' others item items hitem hgap hgap' hothers ih ihothers =>
    intro fuel rest hfuel
    obtain ⟨fuel, rfl, hfuel⟩ := hstarts.exists_fuel hfuel
    simp only [List.length_append, List.length_cons] at hfuel
    obtain ⟨read, hread, hholds⟩ :=
      ih hitem.starts fuel (gap ++ ',' :: (gap' ++ (others ++ rest))) (by omega)
    obtain ⟨reads, behind, hreads, hrest⟩ := ihothers hothers.starts fuel rest (by omega)
    refine ⟨read :: reads, behind, ?_, .cons hholds hrest⟩
    simp only [List.append_assoc, List.cons_append]
    rw [items_of_starts (hitem.starts.append _) hread, skipSpace_gap_cons hgap (by decide)]
    simp only [skipSpace_append hgap', (hothers.starts.append rest).skipSpace, hreads]
  | @lastEntry key written colon cs gap value hkey hcolon hvalue hgap ih =>
    intro fuel rest hfuel
    obtain ⟨fuel, rfl, hfuel⟩ := hstarts.exists_fuel hfuel
    simp only [List.length_append, List.length_cons] at hfuel
    obtain ⟨read, hread, hholds⟩ := ih hvalue.starts fuel (gap ++ '\x7d' :: rest) (by omega)
    obtain ⟨extent, hentries⟩ :=
      entries_of_spelled hkey hcolon (hvalue.starts.append _) hread
    refine ⟨[(key, extent, read)], .point rest, ?_, .cons ⟨rfl, hholds⟩ .nil⟩
    simp only [List.append_assoc, List.cons_append, List.nil_append] at hentries ⊢
    rw [hentries, skipSpace_gap_cons hgap (by decide)]
    rfl
  | @entry key written colon cs gap gap' others value entries hkey hcolon hvalue hgap hgap' hothers
      ih ihothers =>
    intro fuel rest hfuel
    obtain ⟨fuel, rfl, hfuel⟩ := hstarts.exists_fuel hfuel
    simp only [List.length_append, List.length_cons] at hfuel
    obtain ⟨read, hread, hholds⟩ :=
      ih hvalue.starts fuel (gap ++ ',' :: (gap' ++ (others ++ rest))) (by omega)
    obtain ⟨reads, behind, hreads, hrest⟩ := ihothers hothers.starts fuel rest (by omega)
    obtain ⟨extent, hentries⟩ :=
      entries_of_spelled hkey hcolon (hvalue.starts.append _) hread
    refine ⟨(key, extent, read) :: reads, behind, ?_, .cons ⟨rfl, hholds⟩ hrest⟩
    simp only [List.append_assoc, List.cons_append] at hentries ⊢
    rw [hentries, skipSpace_gap_cons hgap (by decide)]
    simp only [skipSpace_append hgap', (hothers.starts.append rest).skipSpace, hreads]

/-! ## Texts -/

/-- Every string can be written, by the code units of its characters. -/
theorem exists_spelled (cs : List Char) : ∃ written, Spelled cs written := by
  induction cs with
  | nil => exact ⟨[], .nil⟩
  | cons c cs ih =>
    obtain ⟨written, hwritten⟩ := ih
    suffices ∃ escape, Escapes c escape from
      this.elim fun escape hescape => ⟨_, .escaped hescape hwritten⟩
    have hvalid := Text.toNat_valid c
    by_cases hunit : c.toNat < 0x10000
    · obtain ⟨digits, hdigits, hcount⟩ := Text.exists_hexDigits 4 (n := c.toNat) (by omega)
      exact ⟨_, .unit hdigits hcount⟩
    · have hlow : (c.toNat - 0x10000) % 0x400 < 0x400 := Nat.mod_lt _ (by decide)
      have hhigh : (c.toNat - 0x10000) / 0x400 < 0x400 := by omega
      obtain ⟨highs, hhighs, hhighs_count⟩ :=
        Text.exists_hexDigits 4 (n := 0xD800 + (c.toNat - 0x10000) / 0x400) (by omega)
      obtain ⟨lows, hlows, hlows_count⟩ :=
        Text.exists_hexDigits 4 (n := 0xDC00 + (c.toNat - 0x10000) % 0x400) (by omega)
      exact ⟨_, .pair hhigh hlow (by omega) hhighs hhighs_count hlows hlows_count⟩

theorem isGap_nil : IsGap [] := by
  simp [IsGap]

theorem isColon_colon : IsColon [':'] :=
  ⟨[], [], isGap_nil, isGap_nil, rfl⟩

mutual

/-- Every value can be written. -/
theorem exists_writes : ∀ value : Datum, ∃ cs, Writes (.value value) cs
  | .null => ⟨_, .null⟩
  | .boolean value => ⟨_, .boolean value⟩
  | .string text => (exists_spelled text.toList).elim fun _ h => ⟨_, .string h⟩
  | .sequence [] => ⟨_, .emptySequence isGap_nil⟩
  | .sequence (item :: items) =>
    (exists_writes_items (item :: items) (List.cons_ne_nil item items)).elim fun _ h =>
      ⟨_, .sequence isGap_nil h⟩
  | .table [] => ⟨_, .emptyTable isGap_nil⟩
  | .table (entry :: entries) =>
    (exists_writes_entries (entry :: entries) (List.cons_ne_nil entry entries)).elim fun _ h =>
      ⟨_, .table isGap_nil h⟩

theorem exists_writes_items : ∀ items : List Datum, items ≠ [] → ∃ cs, Writes (.items items) cs
  | [], hne => absurd rfl hne
  | [item], _ => (exists_writes item).elim fun _ h => ⟨_, .lastItem h isGap_nil⟩
  | item :: next :: items, _ =>
    (exists_writes item).elim fun _ h =>
      (exists_writes_items (next :: items) (List.cons_ne_nil next items)).elim fun _ hothers =>
        ⟨_, .item h isGap_nil isGap_nil hothers⟩

theorem exists_writes_entries :
    ∀ entries : List (String × Datum), entries ≠ [] → ∃ cs, Writes (.entries entries) cs
  | [], hne => absurd rfl hne
  | [(key, value)], _ =>
    (exists_spelled key.toList).elim fun _ hkey => (exists_writes value).elim fun _ h =>
      ⟨_, .lastEntry hkey isColon_colon h isGap_nil⟩
  | (key, value) :: next :: entries, _ =>
    (exists_spelled key.toList).elim fun _ hkey => (exists_writes value).elim fun _ h =>
      (exists_writes_entries (next :: entries) (List.cons_ne_nil next entries)).elim
        fun _ hothers => ⟨_, .entry hkey isColon_colon h isGap_nil isGap_nil hothers⟩

end

/-- The text writes the value, with white space before and behind it. -/
inductive WritesText (value : Datum) : String → Prop
  | text {gap cs gap' : List Char} (hgap : IsGap gap) (hvalue : Writes (.value value) cs)
      (hgap' : IsGap gap') : WritesText value (String.ofList (gap ++ cs ++ gap'))

theorem exists_writesText (value : Datum) : ∃ text, WritesText value text :=
  (exists_writes value).elim fun _ h => ⟨_, .text isGap_nil h isGap_nil⟩

/-- A text that writes a value is read to its end, and the reading holds the value. -/
theorem WritesText.ofText {value : Datum} {text : String} (h : WritesText value text) :
    ∃ read, ofText text = (read, true) ∧ read.Holds value := by
  obtain @⟨gap, cs, gap', hgap, hvalue, hgap'⟩ := h
  have hstart : skipSpace (gap ++ cs ++ gap') = cs ++ gap' := by
    rw [List.append_assoc, skipSpace_append hgap, (hvalue.starts.append gap').skipSpace]
  have hend : skipSpace gap' = [] := List.dropWhile_eq_nil_iff.2 hgap'
  have hfuel : 2 * cs.length ≤ 2 * (cs ++ gap').length + 1 := by
    rw [List.length_append]
    omega
  obtain ⟨read, hread, hholds⟩ := hvalue.readBack _ gap' hfuel
  refine ⟨read, ?_, hholds⟩
  rw [Json.ofText, String.toList_ofList, hstart]
  simp only [hread, hend, List.isEmpty_nil]

end Json

/-- A text that writes in JSON what a definition says is read as the definition. -/
theorem Definition.ofJson_eq_ok {definition : Definition} {value : Datum}
    (hshown : definition.Shown value) {text : String} (h : Json.WritesText value text) :
    ofJson text = .ok definition := by
  obtain ⟨read, hread, hholds⟩ := h.ofText
  rw [ofJson, hread]
  simp [Definition.ofReading_eq_ok hshown hholds false]

end Concordance
