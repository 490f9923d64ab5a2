import Concordance.Proofs.Definition.Toml.Assignments
import Concordance.Proofs.Definition.Toml.Keys
import Mathlib.Data.Option.Basic

/-!
# Values of TOML

How a value is written on the right of an assignment: with line breaks and comments between the
items of an array or of an inline table, with a comma behind the last of them or without, and with
dotted keys in inline tables.  Reading such a text gives a reading that holds the value.
-/

namespace Concordance.Toml

open Text (Extent)

/-- What is written: a value, or the rest of an array or of an inline table from some item or
assignment on. -/
inductive Piece where
  | value (value : Datum)
  | items (items : List Datum)
  | assignments (assignments : List (List String × Datum))

/-- How values are written at a depth.  The rest of an array or inline table ends with its
bracket. -/
inductive Writes : Nat → Piece → List Char → Prop
  | boolean {depth : Nat} (value : Bool) :
      Writes depth (.value (.boolean value)) (toString value).toList
  | string {depth : Nat} {text : String} {cs : List Char} (h : WritesString text cs) :
      Writes depth (.value (.string text)) cs
  | array {depth : Nat} {gap cs : List Char} {items : List Datum} (hdepth : depth < depthLimit)
      (hgap : IsGap gap) (h : Writes (depth + 1) (.items items) cs) :
      Writes depth (.value (.sequence items)) ('[' :: gap ++ cs)
  | noItem {depth : Nat} : Writes depth (.items []) [']']
  | lastItem {depth : Nat} {cs gap : List Char} {item : Datum}
      (hitem : Writes depth (.value item) cs) (hgap : IsGap gap) :
      Writes depth (.items [item]) (cs ++ gap ++ [']'])
  | item {depth : Nat} {cs gap gap' others : List Char} {item : Datum} {items : List Datum}
      (hitem : Writes depth (.value item) cs) (hgap : IsGap gap) (hgap' : IsGap gap')
      (hothers : Writes depth (.items items) others) :
      Writes depth (.items (item :: items)) (cs ++ gap ++ ',' :: gap' ++ others)
  | table {depth : Nat} {gap cs : List Char} {entries : List (String × Datum)}
      {assignments : List (List String × Datum)} (hdepth : depth < depthLimit) (hgap : IsGap gap)
      (hassigns : Assigns entries assignments)
      (h : Writes (depth + 1) (.assignments assignments) cs) :
      Writes depth (.value (.table entries)) ('\x7b' :: gap ++ cs)
  | noAssignment {depth : Nat} : Writes depth (.assignments []) ['\x7d']
  | lastAssignment {depth : Nat} {path : List String} {before cs gap : List Char} {value : Datum}
      (hpath : WritesBefore path before) (hvalue : Writes depth (.value value) cs)
      (hgap : IsGap gap) :
      Writes depth (.assignments [(path, value)]) (before ++ cs ++ gap ++ ['\x7d'])
  | assignment {depth : Nat} {path : List String} {before cs gap gap' others : List Char}
      {value : Datum} {assignments : List (List String × Datum)}
      (hpath : WritesBefore path before) (hvalue : Writes depth (.value value) cs)
      (hgap : IsGap gap) (hgap' : IsGap gap')
      (hothers : Writes depth (.assignments assignments) others) :
      Writes depth (.assignments ((path, value) :: assignments))
        (before ++ cs ++ gap ++ ',' :: gap' ++ others)

/-! ## Where a piece begins and ends -/

/-- A character that may begin a value. -/
def BeginsValue (c : Char) : Prop :=
  IsFirm c ∧ c ≠ ']' ∧ c ≠ '\x7d'

instance (c : Char) : Decidable (BeginsValue c) :=
  inferInstanceAs (Decidable (_ ∧ _))

theorem WritesString.exists_cons {text : String} {cs : List Char} (h : WritesString text cs) :
    ∃ c rest, cs = c :: rest ∧ (c = '"' ∨ c = '\'') := by
  cases h with
  | basic => exact ⟨_, _, rfl, Or.inl rfl⟩
  | literal => exact ⟨_, _, rfl, Or.inr rfl⟩
  | long hquote => exact ⟨_, _, rfl, hquote⟩

theorem Writes.exists_value {depth : Nat} {value : Datum} {cs : List Char}
    (h : Writes depth (.value value) cs) : ∃ c rest, cs = c :: rest ∧ BeginsValue c := by
  cases h with
  | boolean value =>
    cases value
    · exact ⟨'f', _, rfl, by decide⟩
    · exact ⟨'t', _, rfl, by decide⟩
  | string h =>
    obtain ⟨c, rest, rfl, rfl | rfl⟩ := h.exists_cons
    · exact ⟨_, _, rfl, by decide⟩
    · exact ⟨_, _, rfl, by decide⟩
  | array => exact ⟨'[', _, rfl, by decide⟩
  | table => exact ⟨'\x7b', _, rfl, by decide⟩

/-- Nothing is skipped in front of what is written. -/
theorem Writes.exists_cons {depth : Nat} {piece : Piece} {cs : List Char}
    (h : Writes depth piece cs) : ∃ c rest, cs = c :: rest ∧ IsFirm c := by
  cases piece with
  | value value =>
    obtain ⟨c, rest, rfl, hc, -⟩ := h.exists_value
    exact ⟨c, rest, rfl, hc⟩
  | items items =>
    cases h with
    | noItem => exact ⟨']', _, rfl, by decide⟩
    | lastItem hitem | item hitem =>
      obtain ⟨c, rest, rfl, hc, -⟩ := hitem.exists_value
      exact ⟨c, _, rfl, hc⟩
  | assignments assignments =>
    cases h with
    | noAssignment => exact ⟨'\x7d', _, rfl, by decide⟩
    | lastAssignment hpath | assignment hpath =>
      obtain ⟨c, rest, rfl, hc⟩ := hpath.exists_cons
      exact ⟨c, _, rfl, hc.isFirm⟩

/-- A character that ends a word and is no quote. -/
def EndsValue (c : Char) : Prop :=
  isWordChar c = false ∧ c ≠ '"' ∧ c ≠ '\''

instance (c : Char) : Decidable (EndsValue c) :=
  inferInstanceAs (Decidable (_ ∧ _))

/-- A value may end in front of the text. -/
def Ends (rest : List Char) : Prop :=
  ∀ c ∈ rest.head?, EndsValue c

theorem ends_cons {c : Char} (hc : EndsValue c) (rest : List Char) : Ends (c :: rest) := by
  intro other hother
  obtain rfl : c = other := by simpa using hother
  exact hc

theorem ends_gap {gap rest : List Char} (hgap : IsGap gap) (hrest : Ends rest) :
    Ends (gap ++ rest) := by
  cases hgap with
  | nil => exact hrest
  | space hc =>
    simp only [isSpace, Bool.or_eq_true, beq_iff_eq] at hc
    rcases hc with rfl | rfl
    · exact ends_cons (by decide) _
    · exact ends_cons (by decide) _
  | newline hnewline =>
    rcases hnewline with rfl | rfl
    · exact ends_cons (by decide) _
    · exact ends_cons (by decide) _
  | comment => exact ends_cons (by decide) _

section Steps

variable {fuel depth : Nat} {cs rest : List Char}

theorem word_append {written : List Char} (h : ∀ c ∈ written, isWordChar c = true)
    (hdate : date? written = none) (hrest : Ends rest) :
    word (written ++ rest) = (written, rest) := by
  obtain ⟨htake, hdrop⟩ := takeWhile_append_of_head? h fun c hc => (hrest c hc).1
  rw [word, htake, hdrop, hdate]

theorem value?_boolean (value : Bool) (hrest : Ends rest) :
    ∃ read, value? (fuel + 1) depth ((toString value).toList ++ rest) = some (read, rest) ∧
      read.Holds (.boolean value) := by
  have hword : word ((toString value).toList ++ rest) = ((toString value).toList, rest) := by
    cases value
    · exact word_append (List.all_eq_true.1 rfl) rfl hrest
    · exact word_append (List.all_eq_true.1 rfl) rfl hrest
  refine ⟨.boolean value ⟨(toString value).toList ++ rest, rest⟩, ?_, .boolean value _⟩
  cases value with
  | false =>
    have hcs : (toString false).toList ++ rest = 'f' :: ("alse".toList ++ rest) := rfl
    rw [hcs] at hword ⊢
    simp only [value?, hword, bind, Option.bind]
    rfl
  | true =>
    have hcs : (toString true).toList ++ rest = 't' :: ("rue".toList ++ rest) := rfl
    rw [hcs] at hword ⊢
    simp only [value?, hword, bind, Option.bind]
    rfl

theorem value?_string {text : String} (h : WritesString text cs) (hrest : Ends rest) :
    ∃ read, value? (fuel + 1) depth (cs ++ rest) = some (read, rest) ∧
      read.Holds (.string text) := by
  refine ⟨.string text ⟨cs ++ rest, rest⟩, ?_, .string text _⟩
  have hstring : string? (cs ++ rest) = some (text.toList, rest) :=
    h.string? (fun heq => (hrest _ heq).2.1 rfl) (fun heq => (hrest _ heq).2.2 rfl)
  obtain ⟨c, more, rfl, rfl | rfl⟩ := h.exists_cons
  · rw [List.cons_append] at hstring ⊢
    simp only [value?, hstring, bind, Option.bind, String.ofList_toList]
  · rw [List.cons_append] at hstring ⊢
    simp only [value?, hstring, bind, Option.bind, String.ofList_toList]

/-- What is skipped in front of a piece is the gap. -/
theorem Writes.skipBlank {piece : Piece} (h : Writes depth piece cs) {gap : List Char}
    (hgap : IsGap gap) : skipBlank (gap ++ (cs ++ rest)) = cs ++ rest := by
  obtain ⟨c, more, rfl, hc⟩ := h.exists_cons
  exact skipBlank_append_cons hgap hc

theorem guard_of_lt (h : depth < depthLimit) :
    (guard (depth < depthLimit) : Option Unit) = some () :=
  if_pos h

theorem value?_array {items : List Datum} (hdepth : depth < depthLimit)
    (hitems : ∃ reads, items? fuel (depth + 1) (cs ++ rest) = some (reads, rest) ∧
      List.Forall₂ Reading.Holds reads items)
    {gap : List Char} (hskip : skipBlank (gap ++ (cs ++ rest)) = cs ++ rest) :
    ∃ read, value? (fuel + 1) depth ('[' :: gap ++ cs ++ rest) = some (read, rest) ∧
      read.Holds (.sequence items) := by
  obtain ⟨reads, hreads, hholds⟩ := hitems
  let extent : Extent := ⟨'[' :: (gap ++ (cs ++ rest)), rest⟩
  refine ⟨.sequence extent reads (.closed extent), ?_, .sequence hholds⟩
  rw [List.append_assoc, List.cons_append]
  rewrite [value?, hskip, hreads, guard_of_lt hdepth]
  rfl

theorem value?_table {entries : List (String × Datum)} {assignments : List (List String × Datum)}
    (hdepth : depth < depthLimit) (hassigns : Assigns entries assignments)
    (hentries : ∃ reads, List.Forall₂ IsAssignment reads assignments ∧ ∀ made,
      entries? fuel (depth + 1) made (cs ++ rest) = (assignAll reads made).map (·, rest))
    {gap : List Char} (hskip : skipBlank (gap ++ (cs ++ rest)) = cs ++ rest) :
    ∃ read, value? (fuel + 1) depth ('\x7b' :: gap ++ cs ++ rest) = some (read, rest) ∧
      read.Holds (.table entries) := by
  obtain ⟨reads, hreads, hread⟩ := hentries
  obtain ⟨made, hmade, hholds⟩ := hassigns.exists_made hreads [] (by simp)
  refine ⟨_, ?_, hholds.holds ⟨'\x7b' :: gap ++ cs ++ rest, rest⟩⟩
  rw [List.append_assoc, List.cons_append]
  rewrite [value?, hskip, hread, hmade, guard_of_lt hdepth]
  rfl

/-- What becomes of an array is decided behind its next item. -/
theorem items?_of_value? {c : Char} (hc : c ≠ ']') {read : Reading}
    (hread : value? fuel depth (c :: cs) = some (read, rest)) :
    items? (fuel + 1) depth (c :: cs) =
      match skipBlank rest with
      | ']' :: rest => some ([read], rest)
      | ',' :: rest => do
        let (items, rest) ← items? fuel depth (skipBlank rest)
        some (read :: items, rest)
      | _ => none := by
  rw [items?]
  · rewrite [hread]
    rfl
  · exact fun rest heq => hc (List.cons.inj heq).1

/-- What becomes of an inline table is decided behind its next assignment. -/
theorem entries?_of_value? {path : List String} {before : List Char}
    (hpath : WritesBefore path before) {c : Char} (hc : isSpace c = false) {read : Reading}
    (hread : value? fuel depth (c :: cs) = some (read, rest)) :
    ∃ keys, keys.map Prod.fst = path ∧ ∀ made : Entries,
      entries? (fuel + 1) depth made (before ++ c :: cs) =
        (made.assign read true keys).bind fun made =>
          match skipBlank rest with
          | '\x7d' :: rest => some (made, rest)
          | ',' :: rest => entries? fuel depth made (skipBlank rest)
          | _ => none := by
  obtain ⟨keys, hnames, hkeys⟩ := hpath.keyBefore? hc cs
  refine ⟨keys, hnames, fun made => ?_⟩
  obtain ⟨first, more, rfl, hfirst⟩ := hpath.exists_cons
  rw [entries?]
  · simp only [hkeys, bind, Option.bind]
    rewrite [hread]
    rfl
  · exact fun rest heq => hfirst.ne (by decide) (by decide) (by decide) (List.cons.inj heq).1

/-- What is written takes fuel. -/
theorem Writes.exists_fuel {piece : Piece} (h : Writes depth piece cs)
    (hfuel : 2 * cs.length ≤ fuel) : ∃ n, fuel = n + 1 ∧ 2 * cs.length ≤ n + 1 := by
  obtain ⟨c, more, rfl, -⟩ := h.exists_cons
  rw [List.length_cons] at hfuel ⊢
  exact ⟨fuel - 1, by omega, by omega⟩

end Steps

/-- The text is read to the end, where a bracket that is waited for included, and the readings hold
what was written. -/
def Piece.IsRead (depth : Nat) (cs : List Char) : Piece → Prop
  | .value written => ∀ fuel rest, 2 * cs.length ≤ fuel → Ends rest →
    ∃ read, value? fuel depth (cs ++ rest) = some (read, rest) ∧ read.Holds written
  | .items written => ∀ fuel rest, 2 * cs.length ≤ fuel →
    ∃ reads, items? fuel depth (cs ++ rest) = some (reads, rest) ∧
      List.Forall₂ Reading.Holds reads written
  | .assignments written => ∀ fuel rest, 2 * cs.length ≤ fuel →
    ∃ reads, List.Forall₂ IsAssignment reads written ∧ ∀ made,
      entries? fuel depth made (cs ++ rest) = (assignAll reads made).map (·, rest)

/-- What is written is read back.  Each character that is written pays for two steps, one from a
value into its parts and one from a part to the next. -/
theorem Writes.isRead {depth : Nat} {piece : Piece} {cs : List Char} (h : Writes depth piece cs) :
    piece.IsRead depth cs := by
  have hwhole := h
  induction h with
  | boolean value =>
    intro fuel rest hfuel hrest
    obtain ⟨fuel, rfl, -⟩ := hwhole.exists_fuel hfuel
    exact value?_boolean value hrest
  | string h =>
    intro fuel rest hfuel hrest
    obtain ⟨fuel, rfl, -⟩ := hwhole.exists_fuel hfuel
    exact value?_string h hrest
  | array hdepth hgap h ih =>
    intro fuel rest hfuel hrest
    obtain ⟨fuel, rfl, hfuel⟩ := hwhole.exists_fuel hfuel
    simp only [List.cons_append, List.length_cons, List.length_append] at hfuel
    exact value?_array hdepth (ih h fuel rest (by omega)) (h.skipBlank hgap)
  | noItem =>
    intro fuel rest hfuel
    obtain ⟨fuel, rfl, -⟩ := hwhole.exists_fuel hfuel
    exact ⟨[], rfl, .nil⟩
  | @lastItem depth cs gap item hitem hgap ih =>
    intro fuel rest hfuel
    obtain ⟨fuel, rfl, hfuel⟩ := hwhole.exists_fuel hfuel
    simp only [List.length_append, List.length_singleton] at hfuel
    obtain ⟨read, hread, hholds⟩ := ih hitem fuel (gap ++ ']' :: rest) (by omega)
      (ends_gap hgap (ends_cons (by decide) rest))
    obtain ⟨c, more, rfl, -, hc, -⟩ := hitem.exists_value
    refine ⟨[read], ?_, .cons hholds .nil⟩
    simp only [List.append_assoc, List.cons_append, List.nil_append] at hread ⊢
    rw [items?_of_value? hc hread, skipBlank_append_cons hgap (by decide)]
    rfl
  | @item depth cs gap gap' others item items hitem hgap hgap' hothers ih ihothers =>
    intro fuel rest hfuel
    obtain ⟨fuel, rfl, hfuel⟩ := hwhole.exists_fuel hfuel
    simp only [List.length_append, List.length_cons] at hfuel
    obtain ⟨read, hread, hholds⟩ := ih hitem fuel (gap ++ ',' :: (gap' ++ (others ++ rest)))
      (by omega) (ends_gap hgap (ends_cons (by decide) _))
    obtain ⟨reads, hreads, hrest⟩ := ihothers hothers fuel rest (by omega)
    obtain ⟨c, more, rfl, -, hc, -⟩ := hitem.exists_value
    refine ⟨read :: reads, ?_, .cons hholds hrest⟩
    simp only [List.append_assoc, List.cons_append] at hread ⊢
    rw [items?_of_value? hc hread, skipBlank_append_cons hgap (by decide)]
    simp only [hothers.skipBlank hgap', hreads, bind, Option.bind]
  | table hdepth hgap hassigns h ih =>
    intro fuel rest hfuel hrest
    obtain ⟨fuel, rfl, hfuel⟩ := hwhole.exists_fuel hfuel
    simp only [List.cons_append, List.length_cons, List.length_append] at hfuel
    exact value?_table hdepth hassigns (ih h fuel rest (by omega)) (h.skipBlank hgap)
  | noAssignment =>
    intro fuel rest hfuel
    obtain ⟨fuel, rfl, -⟩ := hwhole.exists_fuel hfuel
    exact ⟨[], .nil, fun made => rfl⟩
  | @lastAssignment depth path before cs gap value hpath hvalue hgap ih =>
    intro fuel rest hfuel
    obtain ⟨fuel, rfl, hfuel⟩ := hwhole.exists_fuel hfuel
    simp only [List.length_append, List.length_singleton] at hfuel
    obtain ⟨read, hread, hholds⟩ := ih hvalue fuel (gap ++ '\x7d' :: rest) (by omega)
      (ends_gap hgap (ends_cons (by decide) rest))
    obtain ⟨c, more, rfl, hc, -⟩ := hvalue.exists_value
    rw [List.cons_append] at hread
    obtain ⟨keys, hnames, hentries⟩ := entries?_of_value? hpath hc.1.1 hread
    refine ⟨[(keys, read)], .cons ⟨hnames, hholds⟩ .nil, fun made => ?_⟩
    simp only [List.append_assoc, List.cons_append, List.nil_append] at hentries ⊢
    rw [hentries, skipBlank_append_cons hgap (by decide), assignAll, List.foldlM_cons]
    cases Entries.assign read true keys made with
    | none => rfl
    | some made => rfl
  | @assignment depth path before cs gap gap' others value assignments hpath hvalue hgap hgap'
      hothers ih ihothers =>
    intro fuel rest hfuel
    obtain ⟨fuel, rfl, hfuel⟩ := hwhole.exists_fuel hfuel
    simp only [List.length_append, List.length_cons] at hfuel
    obtain ⟨read, hread, hholds⟩ := ih hvalue fuel (gap ++ ',' :: (gap' ++ (others ++ rest)))
      (by omega) (ends_gap hgap (ends_cons (by decide) _))
    obtain ⟨reads, hreads, hrest⟩ := ihothers hothers fuel rest (by omega)
    obtain ⟨c, more, rfl, hc, -⟩ := hvalue.exists_value
    rw [List.cons_append] at hread
    obtain ⟨keys, hnames, hentries⟩ := entries?_of_value? hpath hc.1.1 hread
    refine ⟨(keys, read) :: reads, .cons ⟨hnames, hholds⟩ hreads, fun made => ?_⟩
    simp only [List.append_assoc, List.cons_append] at hentries ⊢
    rw [hentries, skipBlank_append_cons hgap (by decide), assignAll, List.foldlM_cons]
    simp only [hothers.skipBlank hgap', hrest]
    cases Entries.assign read true keys made with
    | none => rfl
    | some made => rfl

/-! ## Values that can be written -/

theorem exists_writesBefore (key : String) : ∃ before, WritesBefore [key] before :=
  (exists_spelled key.toList).elim fun _ h =>
    ⟨_, .equals (.last (.basic h)) (by simp [depthLimit]) isSpaces_nil isSpaces_nil⟩

section Existence

variable {depth : Nat}

theorem exists_writes_string (text : String) :
    ∃ cs, Writes depth (.value (.string text)) cs :=
  (exists_spelled text.toList).elim fun _ h => ⟨_, .string (.basic h)⟩

theorem exists_writes_items {items : List Datum}
    (h : ∀ item ∈ items, ∃ cs, Writes depth (.value item) cs) :
    ∃ cs, Writes depth (.items items) cs := by
  induction items with
  | nil => exact ⟨_, .noItem⟩
  | cons item items ih =>
    obtain ⟨⟨cs, hitem⟩, h⟩ := List.forall_mem_cons.1 h
    obtain ⟨others, hothers⟩ := ih h
    exact ⟨_, .item hitem .nil .nil hothers⟩

theorem exists_writes_array {items : List Datum} (hdepth : depth < depthLimit)
    (h : ∀ item ∈ items, ∃ cs, Writes (depth + 1) (.value item) cs) :
    ∃ cs, Writes depth (.value (.sequence items)) cs :=
  (exists_writes_items h).elim fun _ hitems => ⟨_, .array hdepth .nil hitems⟩

/-- A table can be made by one assignment for each of its entries. -/
theorem assigns_map {entries : List (String × Datum)} (h : (entries.map Prod.fst).Nodup) :
    Assigns entries (entries.map fun entry => ([entry.1], entry.2)) := by
  induction entries with
  | nil => exact .nil
  | cons entry entries ih =>
    obtain ⟨hfresh, h⟩ := List.nodup_cons.1 h
    exact .entry hfresh (ih h)

theorem exists_writes_assignments {entries : List (String × Datum)}
    (h : ∀ entry ∈ entries, ∃ cs, Writes depth (.value entry.2) cs) :
    ∃ cs, Writes depth (.assignments (entries.map fun entry => ([entry.1], entry.2))) cs := by
  induction entries with
  | nil => exact ⟨_, .noAssignment⟩
  | cons entry entries ih =>
    obtain ⟨⟨cs, hvalue⟩, h⟩ := List.forall_mem_cons.1 h
    obtain ⟨others, hothers⟩ := ih h
    obtain ⟨before, hbefore⟩ := exists_writesBefore entry.1
    exact ⟨_, .assignment hbefore hvalue .nil .nil hothers⟩

theorem exists_writes_table {entries : List (String × Datum)} (hdepth : depth < depthLimit)
    (hnodup : (entries.map Prod.fst).Nodup)
    (h : ∀ entry ∈ entries, ∃ cs, Writes (depth + 1) (.value entry.2) cs) :
    ∃ cs, Writes depth (.value (.table entries)) cs :=
  (exists_writes_assignments h).elim fun _ hassignments =>
    ⟨_, .table hdepth .nil (assigns_map hnodup) hassignments⟩

end Existence

end Concordance.Toml
