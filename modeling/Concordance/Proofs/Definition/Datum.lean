import Concordance.Definition.Shape
import Concordance.Proofs.Order.Lookup
import Concordance.Proofs.Outcome
import Mathlib.Data.List.Forall2
import Mathlib.Data.List.Nodup

/-!
# Values that show a definition

What a definition file says, apart from the notation that it says it in: a tree of strings,
booleans, sequences and tables.  A record is shown by a table of its fields, in any order; a field
that has its default may be left out or shown all the same.  Many values show one definition.

A reading holds a value if it is whole and has the same parts, where the entries of a table may
stand in another order.
-/

namespace Concordance

open Text (Extent)

/-- A value of the kinds that definitions are made of. -/
inductive Datum where
  | null
  | boolean (value : Bool)
  | string (value : String)
  | sequence (items : List Datum)
  | table (entries : List (String × Datum))

/-- The reading is whole and has the parts of the value. -/
inductive Reading.Holds : Reading → Datum → Prop
  | null (extent : Extent) : Holds (.null extent) .null
  | boolean (value : Bool) (extent : Extent) : Holds (.boolean value extent) (.boolean value)
  | string (value : String) (extent : Extent) : Holds (.string value extent) (.string value)
  | sequence {extent behind : Extent} {items : List Reading} {values : List Datum}
      (hitems : List.Forall₂ Holds items values) :
      Holds (.sequence extent items (.closed behind)) (.sequence values)
  | table {extent behind : Extent} {readings ordered : List (String × Extent × Reading)}
      {entries : List (String × Datum)} (hperm : readings.Perm ordered)
      (hkeys : ordered.map Prod.fst = entries.map Prod.fst)
      (hvalues : List.Forall₂ Holds (ordered.map fun entry => entry.2.2) (entries.map Prod.snd)) :
      Holds (.table extent readings (.closed behind)) (.table entries)

namespace Reading

/-- The readings of a table belong to the entries of the value, one to one and under one key. -/
theorem Holds.of_forall₂ {extent behind : Extent}
    {readings ordered : List (String × Extent × Reading)} {entries : List (String × Datum)}
    (hperm : readings.Perm ordered)
    (h : List.Forall₂ (fun reading entry => reading.1 = entry.1 ∧ reading.2.2.Holds entry.2)
      ordered entries) : Holds (.table extent readings (.closed behind)) (.table entries) := by
  refine .table hperm ?_ ?_
  · rw [← List.forall₂_eq_eq_eq, List.forall₂_map_left_iff, List.forall₂_map_right_iff]
    exact h.imp fun _ _ hpair => hpair.1
  · rw [List.forall₂_map_left_iff, List.forall₂_map_right_iff]
    exact h.imp fun _ _ hpair => hpair.2

theorem exists_of_mem_ordered {ordered : List (String × Extent × Reading)}
    {entries : List (String × Datum)} (hkeys : ordered.map Prod.fst = entries.map Prod.fst)
    (hvalues : List.Forall₂ Holds (ordered.map fun entry => entry.2.2) (entries.map Prod.snd)) :
    ∀ reading ∈ ordered, ∃ entry ∈ entries, entry.1 = reading.1 ∧
      reading.2.2.Holds entry.2 := by
  induction ordered generalizing entries with
  | nil => simp
  | cons first rest ih =>
    cases entries with
    | nil => cases hkeys
    | cons entry entries =>
      obtain ⟨hkey, hkeys⟩ := List.cons.inj hkeys
      obtain ⟨hvalue, hvalues⟩ := List.forall₂_cons.1 hvalues
      refine List.forall_mem_cons.2 ⟨⟨entry, List.mem_cons_self, hkey.symm, hvalue⟩, ?_⟩
      intro reading hreading
      obtain ⟨other, hother, hpair⟩ := ih hkeys hvalues reading hreading
      exact ⟨other, List.mem_cons_of_mem entry hother, hpair⟩

/-- A reading that holds a table has its keys, and under each of them holds the value. -/
theorem Holds.exists_table {reading : Reading} {entries : List (String × Datum)}
    (h : reading.Holds (.table entries)) :
    ∃ extent readings behind, reading = .table extent readings (.closed behind) ∧
      (readings.map Prod.fst).Perm (entries.map Prod.fst) ∧
        ∀ reading ∈ readings, ∃ entry ∈ entries, entry.1 = reading.1 ∧
          reading.2.2.Holds entry.2 := by
  cases h with
  | table hperm hkeys hvalues =>
    refine ⟨_, _, _, rfl, hkeys ▸ hperm.map Prod.fst, fun reading hreading => ?_⟩
    exact exists_of_mem_ordered hkeys hvalues reading (hperm.mem_iff.1 hreading)

end Reading

/-! ## Records -/

/-- A field of a record: its name, when it has its default, and which values show it. -/
structure Field (σ : Type) where
  name : String
  IsDefault : σ → Prop
  Shows : σ → Datum → Prop

/-- The value is a table of fields of the record, none of them twice.  A field that is missing has
its default. -/
inductive ShowsFields {σ : Type} (fields : List (Field σ)) (record : σ) : Datum → Prop
  | table {entries : List (String × Datum)} (hnodup : (entries.map Prod.fst).Nodup)
      (hshows : ∀ entry ∈ entries, ∃ field ∈ fields, field.name = entry.1 ∧
        field.Shows record entry.2)
      (hrest : ∀ field ∈ fields, field.name ∈ entries.map Prod.fst ∨ field.IsDefault record) :
      ShowsFields fields record (.table entries)

/-- Records that agree in the fields are shown by the same values. -/
theorem ShowsFields.congr {σ : Type} {fields : List (Field σ)} {first second : σ} {value : Datum}
    (h : ShowsFields fields first value)
    (hdefault : ∀ field ∈ fields, field.IsDefault first → field.IsDefault second)
    (hshows : ∀ field ∈ fields, ∀ value, field.Shows first value → field.Shows second value) :
    ShowsFields fields second value := by
  obtain ⟨hnodup, hentries, hrest⟩ := h
  refine .table hnodup (fun entry hentry => ?_) fun field hfield => ?_
  · obtain ⟨field, hfield, hname, hvalue⟩ := hentries entry hentry
    exact ⟨field, hfield, hname, hshows field hfield _ hvalue⟩
  · exact (hrest field hfield).imp_right (hdefault field hfield)

/-- The values that show a text that may be missing. -/
inductive ShowsOptional : Option String → Datum → Prop
  | missing : ShowsOptional none .null
  | present (text : String) : ShowsOptional (some text) (.string text)

/-- The value is a sequence, and its items show the given ones. -/
inductive ShowsAll {α : Type} (shows : α → Datum → Prop) (items : List α) : Datum → Prop
  | sequence {values : List Datum} (hvalues : List.Forall₂ shows items values) :
      ShowsAll shows items (.sequence values)

namespace AttributeDefinition

def fields : List (Field AttributeDefinition) :=
  [⟨"from", fun _ => False, fun a value => value = .string a.source⟩,
    ⟨"to", fun _ => False, fun a value => value = .string a.target⟩]

def Shown (a : AttributeDefinition) (value : Datum) : Prop :=
  ShowsFields fields a value

end AttributeDefinition

namespace RuleDefinition

def fields : List (Field RuleDefinition) :=
  [⟨"from", fun _ => False, fun rule value => value = .string rule.source⟩,
    ⟨"to", fun _ => False, fun rule value => value = .string rule.target⟩,
    ⟨"include_value", fun rule => rule.keepsText = false,
      fun rule value => value = .boolean rule.keepsText⟩,
    ⟨"attributes", fun rule => rule.attributes = [],
      fun rule value => ShowsAll AttributeDefinition.Shown rule.attributes value⟩]

def Shown (rule : RuleDefinition) (value : Datum) : Prop :=
  ShowsFields fields rule value

end RuleDefinition

/-- The value is a table of the bindings, in any order. -/
inductive Bindings.Shown (bindings : Bindings) : Datum → Prop
  | table {entries : List (String × Datum)}
      (hperm : entries.Perm
        (bindings.toList.map fun binding => (binding.1, .string binding.2))) :
      Shown bindings (.table entries)

namespace Definition

/-- The fields of the section that holds the rules. -/
def rulesFields : List (Field Definition) :=
  [⟨"document_id", fun definition => definition.documentId = none,
      fun definition value => ShowsOptional definition.documentId value⟩,
    ⟨"parent", fun _ => False, fun definition value => definition.parent.Shown value⟩,
    ⟨"children", fun definition => definition.children = [],
      fun definition value => ShowsAll RuleDefinition.Shown definition.children value⟩]

/-- The fields of the section on the output. -/
def outputFields : List (Field Definition) :=
  [⟨"record_container", fun definition => definition.container = none,
    fun definition value => ShowsOptional definition.container value⟩]

def fields : List (Field Definition) :=
  [⟨"namespaces", fun definition => definition.bindings = .empty,
      fun definition value => Bindings.Shown definition.bindings value⟩,
    ⟨"mapping", fun _ => False, fun definition value => ShowsFields rulesFields definition value⟩,
    ⟨"output", fun definition => definition.container = none,
      fun definition value => ShowsFields outputFields definition value⟩]

/-- The value says what the definition says. -/
def Shown (definition : Definition) (value : Datum) : Prop :=
  ShowsFields fields definition value

end Definition

/-! ## From readings back to records -/

/-- A record is filled from a table of its fields.  `mix` gives the record at every stage, in which
the fields that were seen are those of `target` and the others are still those of `start`. -/
structure Shape.Fills {σ : Type} (shape : Shape σ) (fields : List (Field σ)) (start target : σ)
    (mix : List String → σ) : Prop where
  names : shape.fields.map Prod.fst = fields.map Field.name
  required : ∀ field ∈ fields, (field.name, false) ∈ shape.fields → ¬field.IsDefault target
  start : mix [] = start
  enter : ∀ (seen : List String), ∀ field ∈ fields, field.name ∉ seen →
    ∀ (reading : Reading) (value : Datum), reading.Holds value → field.Shows target value →
      shape.enter field.name reading (mix seen) = .ok (mix (field.name :: seen))
  target : ∀ seen : List String, (∀ field ∈ fields, field.name ∈ seen ∨ field.IsDefault target) →
    mix seen = target

namespace Shape.Fills

variable {σ : Type} {shape : Shape σ} {fields : List (Field σ)} {start target : σ}
  {mix : List String → σ} (h : shape.Fills fields start target mix)

include h

theorem enterEntries {readings : List (String × Extent × Reading)}
    (hshows : ∀ entry ∈ readings, ∃ field ∈ fields, field.name = entry.1 ∧
      ∃ value, entry.2.2.Holds value ∧ field.Shows target value)
    (seen : List String) (hseen : ∀ entry ∈ readings, entry.1 ∉ seen)
    (hnodup : (readings.map Prod.fst).Nodup) :
    ∃ seen', shape.enterEntries seen readings (mix seen) = .ok (seen', mix seen') ∧
      ∀ name, name ∈ seen' ↔ name ∈ readings.map Prod.fst ∨ name ∈ seen := by
  induction readings generalizing seen with
  | nil => exact ⟨seen, rfl, by simp⟩
  | cons entry rest ih =>
    obtain ⟨key, extent, reading⟩ := entry
    obtain ⟨⟨field, hfield, rfl, value, hholds, hvalue⟩, hrest⟩ := List.forall_mem_cons.1 hshows
    obtain ⟨hfresh, hseen⟩ := List.forall_mem_cons.1 hseen
    obtain ⟨hkey, hnodup⟩ := List.nodup_cons.1 hnodup
    have hseen' : ∀ entry ∈ rest, entry.1 ∉ field.name :: seen := by
      intro entry hentry hmem
      rcases List.mem_cons.1 hmem with heq | hmem
      · exact hkey (List.mem_map.2 ⟨entry, hentry, heq⟩)
      · exact hseen entry hentry hmem
    obtain ⟨seen', hentered, hnames⟩ := ih hrest (field.name :: seen) hseen' hnodup
    have hknown : (shape.fields.map Prod.fst).contains field.name = true := by
      rw [h.names, List.contains_iff_mem]
      exact List.mem_map_of_mem hfield
    have hnew : ¬seen.contains field.name = true := by
      rw [List.contains_iff_mem]
      exact hfresh
    refine ⟨seen', ?_, fun name => ?_⟩
    · rw [Shape.enterEntries, if_pos hknown, if_neg hnew,
        h.enter seen field hfield hfresh reading value hholds hvalue]
      exact hentered
    · rw [hnames, List.map_cons, List.mem_cons, List.mem_cons]
      tauto

/-- A reading that holds a table of the fields is read as the record. -/
theorem read {value : Datum} (hvalue : ShowsFields fields target value) {reading : Reading}
    (hholds : reading.Holds value) (surplus : Bool) :
    shape.read surplus start reading = .ok target := by
  obtain @⟨entries, hnodup, hshows, hrest⟩ := hvalue
  obtain ⟨extent, readings, behind, rfl, hperm, hentries⟩ := hholds.exists_table
  have hreadings : ∀ reading ∈ readings, ∃ field ∈ fields, field.name = reading.1 ∧
      ∃ value, reading.2.2.Holds value ∧ field.Shows target value := by
    intro reading hreading
    obtain ⟨entry, hentry, hkey, hvalue⟩ := hentries reading hreading
    obtain ⟨field, hfield, hname, hshown⟩ := hshows entry hentry
    exact ⟨field, hfield, hname.trans hkey, entry.2, hvalue, hshown⟩
  obtain ⟨seen, hentered, hseen⟩ := h.enterEntries hreadings [] (by simp)
    (hperm.nodup_iff.2 hnodup)
  have hfilled : ∀ field ∈ fields, field.name ∈ seen ∨ field.IsDefault target := by
    intro field hfield
    rw [hseen, hperm.mem_iff]
    exact (hrest field hfield).imp_left Or.inl
  have hnone : shape.fields.find? (fun field => !field.2 && !seen.contains field.1) = none := by
    rw [List.find?_eq_none]
    rintro ⟨name, optional⟩ hmem
    have hname : name ∈ fields.map Field.name := h.names ▸ List.mem_map_of_mem hmem
    obtain ⟨field, hfield, rfl⟩ := List.mem_map.1 hname
    cases optional with
    | true => simp
    | false => simpa using (hfilled field hfield).resolve_right (h.required field hfield hmem)
  rw [h.start] at hentered
  rw [Shape.read, hentered]
  simp only [bind, Except.bind, hnone]
  rw [h.target seen hfilled]

end Shape.Fills

/-! ## The records of a definition -/

section Scalars

variable {reading : Reading}

theorem Reading.Holds.asString {text : String} (h : reading.Holds (.string text)) :
    reading.asString = .ok text := by
  cases h
  rfl

theorem Reading.Holds.asBool {value : Bool} (h : reading.Holds (.boolean value)) :
    reading.asBool = .ok value := by
  cases h
  rfl

theorem Reading.Holds.asOptionalString {value : Datum} (h : reading.Holds value)
    {text : Option String} (hshows : ShowsOptional text value) :
    reading.asOptionalString = .ok text := by
  cases hshows with
  | missing =>
    cases h
    rfl
  | present text =>
    cases h
    rfl

theorem Reading.Holds.asList {α : Type} {value : Datum} (h : reading.Holds value)
    {shows : α → Datum → Prop} {item : Reading → Except ShapeError α}
    (hitem : ∀ reading value a, reading.Holds value → shows a value → item reading = .ok a)
    {items : List α} (hshows : ShowsAll shows items value) : reading.asList item = .ok items := by
  obtain @⟨values, hvalues⟩ := hshows
  cases h with
  | @sequence extent behind readings _ hreadings =>
    have hmap : readings.mapM item = .ok items := by
      induction hreadings generalizing items with
      | nil =>
        cases hvalues
        rfl
      | cons hfirst _ ih =>
        cases hvalues with
        | cons hshown hvalues =>
          rw [List.mapM_cons]
          exact bind_eq_ok_iff.2
            ⟨_, hitem _ _ _ hfirst hshown, bind_eq_ok_iff.2 ⟨_, ih hvalues, rfl⟩⟩
    rw [Reading.asList, hmap]
    rfl

end Scalars

/-! ## Attributes and rules -/

/-- What is entered takes the place of a default, unless it is the default. -/
theorem ite_eq_of_or {α : Type} {entered : Prop} [Decidable entered] {a default : α}
    (h : entered ∨ a = default) : (if entered then a else default) = a := by
  by_cases hentered : entered
  · rw [if_pos hentered]
  · rw [if_neg hentered, h.resolve_left hentered]

section Rules

variable {reading : Reading} {value : Datum} {surplus : Bool}

theorem AttributeDefinition.fills (a : AttributeDefinition) :
    shape.Fills fields ⟨"", ""⟩ a fun seen =>
      ⟨if "from" ∈ seen then a.source else "", if "to" ∈ seen then a.target else ""⟩ where
  names := rfl
  required := by simp [fields]
  start := by simp
  enter seen field hfield hfresh reading value hholds hvalue := by
    simp only [fields, List.mem_cons, List.not_mem_nil, or_false] at hfield
    rcases hfield with rfl | rfl
    · subst hvalue
      simp [shape, hholds.asString]
    · subst hvalue
      simp [shape, hholds.asString]
  target seen h := by
    simp only [fields, List.forall_mem_cons, or_false] at h
    obtain ⟨hfrom, hto, -⟩ := h
    rw [if_pos hfrom, if_pos hto]

theorem AttributeDefinition.ofReading_eq_ok {a : AttributeDefinition} (h : a.Shown value)
    (hholds : reading.Holds value) : ofReading surplus reading = .ok a :=
  a.fills.read h hholds surplus

theorem RuleDefinition.fills (rule : RuleDefinition) (surplus : Bool) :
    (shape surplus).Fills fields ⟨"", "", false, []⟩ rule fun seen =>
      ⟨if "from" ∈ seen then rule.source else "", if "to" ∈ seen then rule.target else "",
        if "include_value" ∈ seen then rule.keepsText else false,
        if "attributes" ∈ seen then rule.attributes else []⟩ where
  names := rfl
  required := by simp [fields, shape]
  start := by simp
  enter seen field hfield hfresh reading value hholds hvalue := by
    simp only [fields, List.mem_cons, List.not_mem_nil, or_false] at hfield
    rcases hfield with rfl | rfl | rfl | rfl
    · subst hvalue
      simp [shape, hholds.asString]
    · subst hvalue
      simp [shape, hholds.asString]
    · subst hvalue
      simp [shape, hholds.asBool]
    · have hlist : reading.asList (AttributeDefinition.ofReading surplus) = .ok rule.attributes :=
        hholds.asList (fun _ _ _ hitem hshown => AttributeDefinition.ofReading_eq_ok hshown hitem)
          hvalue
      simp [shape, hlist]
  target seen h := by
    simp only [fields, List.forall_mem_cons, or_false] at h
    obtain ⟨hfrom, hto, htext, hattributes, -⟩ := h
    rw [if_pos hfrom, if_pos hto, ite_eq_of_or htext, ite_eq_of_or hattributes]

theorem RuleDefinition.ofReading_eq_ok {rule : RuleDefinition} (h : rule.Shown value)
    (hholds : reading.Holds value) : ofReading surplus reading = .ok rule :=
  (rule.fills surplus).read h hholds surplus

end Rules

/-! ## Bindings -/

section Bindings

/-- The bindings of a table of strings are entered one by one. -/
theorem exists_foldlM_bindings {readings : List (String × Extent × Reading)}
    (hstrings : ∀ reading ∈ readings, ∃ text, reading.2.2.Holds (.string text))
    (hnodup : (readings.map Prod.fst).Nodup) (bindings : Bindings)
    (hfresh : ∀ reading ∈ readings, ∀ binding ∈ bindings.toList, binding.1 ≠ reading.1) :
    ∃ after : Bindings,
      readings.foldlM (fun (bindings : Bindings) entry => do
        let value ← entry.2.2.asString
        pure (bindings.insertOver (entry.1, value))) bindings =
          (.ok after : Except ShapeError Bindings) ∧
      ∀ binding, binding ∈ after.toList ↔ binding ∈ bindings.toList ∨
        ∃ reading ∈ readings, reading.1 = binding.1 ∧
          reading.2.2.Holds (.string binding.2) := by
  induction readings generalizing bindings with
  | nil => exact ⟨bindings, rfl, by simp⟩
  | cons reading rest ih =>
    obtain ⟨⟨text, htext⟩, hstrings⟩ := List.forall_mem_cons.1 hstrings
    obtain ⟨hnew, hfresh⟩ := List.forall_mem_cons.1 hfresh
    obtain ⟨hkey, hnodup⟩ := List.nodup_cons.1 hnodup
    have hinserted {binding : String × String} :
        binding ∈ (bindings.insertOver (reading.1, text)).toList ↔
          binding = (reading.1, text) ∨ binding ∈ bindings.toList :=
      Ascending.mem_insertOver_iff fun b hb heq => absurd heq (hnew b hb)
    have hfresh' : ∀ other ∈ rest, ∀ binding ∈ (bindings.insertOver (reading.1, text)).toList,
        binding.1 ≠ other.1 := by
      intro other hother binding hbinding
      rcases hinserted.1 hbinding with rfl | hbinding
      · exact fun heq => hkey (List.mem_map.2 ⟨other, hother, heq.symm⟩)
      · exact hfresh other hother binding hbinding
    obtain ⟨after, hafter, hmem⟩ := ih hstrings hnodup _ hfresh'
    refine ⟨after, ?_, fun binding => ?_⟩
    · rw [List.foldlM_cons, htext.asString]
      exact hafter
    · have hfirst : binding = (reading.1, text) ↔
          reading.1 = binding.1 ∧ reading.2.2.Holds (.string binding.2) := by
        constructor
        · rintro rfl
          exact ⟨rfl, htext⟩
        · rintro ⟨hfst, hholds⟩
          have hsnd := htext.asString.symm.trans hholds.asString
          cases hsnd
          exact Prod.ext hfst.symm rfl
      simp only [hmem, hinserted, List.mem_cons, or_and_right, exists_or, exists_eq_left]
      rw [hfirst]
      tauto

theorem Bindings.Shown.asBindings {bindings : Bindings} {value : Datum}
    (h : Bindings.Shown bindings value) {reading : Reading} (hholds : reading.Holds value) :
    reading.asBindings = .ok bindings := by
  obtain @⟨entries, hperm⟩ := h
  obtain ⟨extent, readings, behind, rfl, hkeys, hentries⟩ := hholds.exists_table
  have hbound : ∀ reading ∈ readings, ∃ binding ∈ bindings.toList, binding.1 = reading.1 ∧
      reading.2.2.Holds (.string binding.2) := by
    intro reading hreading
    obtain ⟨entry, hentry, hkey, hvalue⟩ := hentries reading hreading
    obtain ⟨binding, hbinding, rfl⟩ := List.mem_map.1 (hperm.mem_iff.1 hentry)
    exact ⟨binding, hbinding, hkey, hvalue⟩
  have hfsts : (readings.map Prod.fst).Perm (bindings.toList.map Prod.fst) := by
    have hmap := hperm.map Prod.fst
    rw [List.map_map] at hmap
    exact hkeys.trans hmap
  have hnodup : (bindings.toList.map Prod.fst).Nodup :=
    List.pairwise_map.2 bindings.pairwise_ne
  obtain ⟨after, hafter, hmem⟩ := exists_foldlM_bindings
    (fun reading hreading =>
      (hbound reading hreading).elim fun binding hbinding => ⟨binding.2, hbinding.2.2⟩)
    (hfsts.nodup_iff.2 hnodup) .empty (fun reading hreading binding hbinding => by cases hbinding)
  have heq : after = bindings := by
    refine Ascending.eq_of_mem_iff fun binding => (hmem binding).trans ?_
    constructor
    · rintro (hnone | ⟨reading, hreading, hkey, hholds⟩)
      · cases hnone
      · obtain ⟨other, hother, hkey', hholds'⟩ := hbound reading hreading
        have hsnd := hholds.asString.symm.trans hholds'.asString
        obtain rfl : other = binding := Prod.ext (hkey'.trans hkey) (Except.ok.inj hsnd).symm
        exact hother
    · intro hbinding
      have hkey : binding.1 ∈ readings.map Prod.fst :=
        hfsts.mem_iff.2 (List.mem_map_of_mem hbinding)
      obtain ⟨reading, hreading, hkey⟩ := List.mem_map.1 hkey
      obtain ⟨other, hother, hkey', hholds⟩ := hbound reading hreading
      obtain rfl : other = binding :=
        List.inj_on_of_nodup_map hnodup hother hbinding (hkey'.trans hkey)
      exact Or.inr ⟨reading, hreading, hkey, hholds⟩
  rw [Reading.asBindings, hafter, heq]
  rfl

end Bindings

/-! ## Definitions -/

namespace Definition

section Sections

variable (definition start : Definition)

/-- The section that holds the rules leaves the namespaces and the record container alone. -/
theorem rules_fills (surplus : Bool) (hid : start.documentId = none)
    (hparent : start.parent = ⟨"", "", false, []⟩) (hchildren : start.children = []) :
    (rulesShape surplus).Fills rulesFields start
      { definition with bindings := start.bindings, container := start.container } fun seen =>
        { start with
          documentId := if "document_id" ∈ seen then definition.documentId else none
          parent := if "parent" ∈ seen then definition.parent else ⟨"", "", false, []⟩
          children := if "children" ∈ seen then definition.children else [] } where
  names := rfl
  required := by simp [rulesFields, rulesShape]
  start := by
    cases start
    simp_all
  enter seen field hfield hfresh reading value hholds hvalue := by
    simp only [rulesFields, List.mem_cons, List.not_mem_nil, or_false] at hfield
    rcases hfield with rfl | rfl | rfl
    · simp [rulesShape, hholds.asOptionalString hvalue]
    · simp [rulesShape, RuleDefinition.ofReading_eq_ok hvalue hholds]
    · have hlist : reading.asList (RuleDefinition.ofReading surplus) = .ok definition.children :=
        hholds.asList (fun _ _ _ hitem hshown => RuleDefinition.ofReading_eq_ok hshown hitem) hvalue
      simp [rulesShape, hlist]
  target seen h := by
    simp only [rulesFields, List.forall_mem_cons, or_false] at h
    obtain ⟨hid, hparent, hchildren, -⟩ := h
    rw [ite_eq_of_or hid, if_pos hparent, ite_eq_of_or hchildren]

theorem output_fills (hcontainer : start.container = none) :
    outputShape.Fills outputFields start { start with container := definition.container }
      fun seen =>
        { start with
          container := if "record_container" ∈ seen then definition.container else none } where
  names := rfl
  required := by simp [outputFields, outputShape]
  start := by
    cases start
    simp_all
  enter seen field hfield hfresh reading value hholds hvalue := by
    simp only [outputFields, List.mem_cons, List.not_mem_nil, or_false] at hfield
    subst hfield
    simp [outputShape, hholds.asOptionalString hvalue]
  target seen h := by
    simp only [outputFields, List.forall_mem_cons] at h
    rw [ite_eq_of_or h.1]

end Sections

/-- The record in which the sections that were seen are those of the definition. -/
def withSections (definition : Definition) (seen : List String) : Definition where
  bindings := if "namespaces" ∈ seen then definition.bindings else .empty
  documentId := if "mapping" ∈ seen then definition.documentId else none
  parent := if "mapping" ∈ seen then definition.parent else ⟨"", "", false, []⟩
  children := if "mapping" ∈ seen then definition.children else []
  container := if "output" ∈ seen then definition.container else none

theorem read_rules {definition : Definition} {seen : List String} (hfresh : "mapping" ∉ seen)
    {reading : Reading} {value : Datum} (hholds : reading.Holds value)
    (hvalue : ShowsFields rulesFields definition value) (surplus : Bool) :
    (rulesShape surplus).read surplus (definition.withSections seen) reading =
      .ok (definition.withSections ("mapping" :: seen)) := by
  have hfills := rules_fills definition (definition.withSections seen) surplus
    (by simp [withSections, hfresh]) (by simp [withSections, hfresh])
    (by simp [withSections, hfresh])
  have hread := hfills.read
    (hvalue.congr (by simp [rulesFields]) (by simp [rulesFields])) hholds surplus
  rw [hread]
  simp [withSections]

theorem read_output {definition : Definition} {seen : List String} (hfresh : "output" ∉ seen)
    {reading : Reading} {value : Datum} (hholds : reading.Holds value)
    (hvalue : ShowsFields outputFields definition value) (surplus : Bool) :
    outputShape.read surplus (definition.withSections seen) reading =
      .ok (definition.withSections ("output" :: seen)) := by
  have hfills := output_fills definition (definition.withSections seen)
    (by simp [withSections, hfresh])
  have hread := hfills.read
    (hvalue.congr (by simp [outputFields]) (by simp [outputFields])) hholds surplus
  rw [hread]
  simp [withSections]

theorem fills (definition : Definition) (surplus : Bool) :
    (shape surplus).Fills fields ⟨.empty, none, ⟨"", "", false, []⟩, [], none⟩ definition
      definition.withSections where
  names := rfl
  required := by simp [fields, shape]
  start := by simp [withSections]
  enter seen field hfield hfresh reading value hholds hvalue := by
    simp only [fields, List.mem_cons, List.not_mem_nil, or_false] at hfield
    rcases hfield with rfl | rfl | rfl
    · simp [shape, withSections, hvalue.asBindings hholds]
    · exact read_rules hfresh hholds hvalue surplus
    · exact read_output hfresh hholds hvalue surplus
  target seen h := by
    simp only [fields, List.forall_mem_cons, or_false] at h
    obtain ⟨hbindings, hmapping, houtput, -⟩ := h
    rw [withSections, ite_eq_of_or hbindings, ite_eq_of_or houtput]
    simp only [if_pos hmapping]

/-- A reading that holds what the definition says is read as the definition. -/
theorem ofReading_eq_ok {definition : Definition} {value : Datum} (h : definition.Shown value)
    {reading : Reading} (hholds : reading.Holds value) (surplus : Bool) :
    ofReading surplus reading = .ok definition :=
  (definition.fills surplus).read h hholds surplus

end Definition

end Concordance
