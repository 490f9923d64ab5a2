import Concordance.Batch.Load
import Concordance.Proofs.Definition.Json
import Concordance.Proofs.Definition.Toml.Text

/-!
# Texts of a definition

The texts that say what a definition says: every text that writes, in the grammar of its notation, a
value that shows the definition.  Each definition can be written in both notations, and whatever
text was chosen, it is the definition that is read from it.
-/

namespace Concordance

open Toml (depthLimit)

/-! ## A value for every definition -/

section Writable

variable {depth : Nat}

def AttributeDefinition.value (a : AttributeDefinition) : Datum :=
  .table [("from", .string a.source), ("to", .string a.target)]

theorem AttributeDefinition.shown_value (a : AttributeDefinition) : a.Shown a.value :=
  .table (by simp) (by simp [fields]) (by simp [fields])

theorem AttributeDefinition.exists_writes (a : AttributeDefinition) (h : depth < depthLimit) :
    ∃ cs, Toml.Writes depth (.value a.value) cs := by
  refine Toml.exists_writes_table h (by simp) ?_
  simp only [List.forall_mem_cons, List.not_mem_nil, false_imp_iff, implies_true, and_true]
  exact ⟨Toml.exists_writes_string _, Toml.exists_writes_string _⟩

def RuleDefinition.value (rule : RuleDefinition) : Datum :=
  .table [("from", .string rule.source), ("to", .string rule.target),
    ("include_value", .boolean rule.keepsText),
    ("attributes", .sequence (rule.attributes.map AttributeDefinition.value))]

/-- The values of items show them one by one. -/
theorem showsAll_map {α : Type} {shows : α → Datum → Prop} {value : α → Datum}
    (h : ∀ a, shows a (value a)) (items : List α) :
    ShowsAll shows items (.sequence (items.map value)) :=
  .sequence (List.forall₂_map_right_iff.2 (List.forall₂_same.2 fun a _ => h a))

theorem RuleDefinition.shown_value (rule : RuleDefinition) : rule.Shown rule.value := by
  have hattributes := showsAll_map AttributeDefinition.shown_value rule.attributes
  exact .table (by simp) (by simp [fields, hattributes]) (by simp [fields])

theorem RuleDefinition.exists_writes (rule : RuleDefinition) (h : depth + 2 < depthLimit) :
    ∃ cs, Toml.Writes depth (.value rule.value) cs := by
  refine Toml.exists_writes_table (by omega) (by simp) ?_
  simp only [List.forall_mem_cons, List.not_mem_nil, false_imp_iff, implies_true, and_true]
  refine ⟨Toml.exists_writes_string _, Toml.exists_writes_string _, ⟨_, .boolean _⟩, ?_⟩
  refine Toml.exists_writes_array (by omega) (List.forall_mem_map.2 fun a _ => ?_)
  exact a.exists_writes h

end Writable

namespace Definition

variable (definition : Definition)

/-- The entry of a text that may be missing. -/
def optionalEntry (name : String) (text : Option String) : List (String × Datum) :=
  (text.map fun text => (name, Datum.string text)).toList

def rulesEntries : List (String × Datum) :=
  optionalEntry "document_id" definition.documentId ++
    [("parent", definition.parent.value),
      ("children", .sequence (definition.children.map RuleDefinition.value))]

def entries : List (String × Datum) :=
  [("namespaces", .table (definition.bindings.toList.map fun b => (b.1, .string b.2))),
    ("mapping", .table definition.rulesEntries),
    ("output", .table (optionalEntry "record_container" definition.container))]

theorem shows_rules : ShowsFields rulesFields definition (.table definition.rulesEntries) := by
  have hchildren := showsAll_map RuleDefinition.shown_value definition.children
  have hparent := definition.parent.shown_value
  cases hid : definition.documentId with
  | none =>
    refine .table ?_ ?_ ?_
    all_goals simp [rulesEntries, optionalEntry, rulesFields, hid, hparent, hchildren]
  | some id =>
    refine .table ?_ ?_ ?_
    all_goals
      simp [rulesEntries, optionalEntry, rulesFields, hid, hparent, hchildren,
        ShowsOptional.present]

theorem shows_output :
    ShowsFields outputFields definition
      (.table (optionalEntry "record_container" definition.container)) := by
  cases hcontainer : definition.container with
  | none =>
    refine .table ?_ ?_ ?_
    all_goals simp [optionalEntry, outputFields, hcontainer]
  | some container =>
    refine .table ?_ ?_ ?_
    all_goals simp [optionalEntry, outputFields, hcontainer, ShowsOptional.present]

theorem shown_entries : definition.Shown (.table definition.entries) := by
  have hbindings : Bindings.Shown definition.bindings
      (.table (definition.bindings.toList.map fun b => (b.1, .string b.2))) :=
    .table (List.Perm.refl _)
  have hrules := definition.shows_rules
  have houtput := definition.shows_output
  refine .table ?_ ?_ ?_
  all_goals simp [entries, fields, hbindings, hrules, houtput]

theorem exists_writes_optionalEntry (name : String) (text : Option String) {depth : Nat} :
    ∀ entry ∈ optionalEntry name text, ∃ cs, Toml.Writes depth (.value entry.2) cs := by
  cases text with
  | none => simp [optionalEntry]
  | some text => simpa [optionalEntry] using Toml.exists_writes_string text

theorem exists_writes_entries :
    ∀ entry ∈ definition.entries, ∃ cs, Toml.Writes 0 (.value entry.2) cs := by
  simp only [entries, List.forall_mem_cons, List.not_mem_nil, false_imp_iff, implies_true,
    and_true]
  refine ⟨?_, ?_, ?_⟩
  · refine Toml.exists_writes_table (by decide) ?_
      (List.forall_mem_map.2 fun b _ => Toml.exists_writes_string b.2)
    rw [List.map_map]
    exact List.pairwise_map.2 definition.bindings.pairwise_ne
  · obtain @⟨_, hnodup⟩ := definition.shows_rules
    refine Toml.exists_writes_table (by decide) hnodup ?_
    rw [rulesEntries, List.forall_mem_append]
    refine ⟨exists_writes_optionalEntry _ _, ?_⟩
    simp only [List.forall_mem_cons, List.not_mem_nil, false_imp_iff, implies_true, and_true]
    refine ⟨definition.parent.exists_writes (by decide), ?_⟩
    refine Toml.exists_writes_array (by decide) (List.forall_mem_map.2 fun rule _ => ?_)
    exact rule.exists_writes (by decide)
  · obtain @⟨_, hnodup⟩ := definition.shows_output
    exact Toml.exists_writes_table (by decide) hnodup (exists_writes_optionalEntry _ _)

/-! ## Texts -/

/-- The text writes the definition in the notation. -/
inductive Written (definition : Definition) : Notation → String → Prop
  | toml {value : Datum} {text : String} (hshown : definition.Shown value)
      (htext : Toml.WritesText value text) : Written definition .toml text
  | json {value : Datum} {text : String} (hshown : definition.Shown value)
      (htext : Json.WritesText value text) : Written definition .json text

/-- Every definition can be written in every notation. -/
theorem exists_written (format : Notation) : ∃ text, definition.Written format text := by
  cases format with
  | toml =>
    obtain @⟨_, hnodup⟩ := definition.shown_entries
    obtain ⟨text, htext⟩ := Toml.exists_writesText hnodup definition.exists_writes_entries
    exact ⟨text, .toml definition.shown_entries htext⟩
  | json =>
    obtain ⟨text, htext⟩ := Json.exists_writesText (.table definition.entries)
    exact ⟨text, .json definition.shown_entries htext⟩

variable {definition} {format : Notation} {text : String}

/-- What is written is read. -/
theorem Written.ofText (h : definition.Written format text) :
    ofText format text = .ok definition := by
  cases h with
  | toml hshown htext => exact ofToml_eq_ok hshown htext
  | json hshown htext => exact ofJson_eq_ok hshown htext

theorem Written.ofFile (h : definition.Written format text) {path : Path}
    (hpath : path.notation? = some format) : ofFile path text.toUTF8 = .ok definition := by
  rw [Definition.ofFile, Text.fromUTF8?_toUTF8]
  simp only [hpath, h.ofText]
  rfl

end Definition

end Concordance
