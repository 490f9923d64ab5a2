import Concordance.Definition.Toml.Table
import Concordance.Proofs.Definition.Datum

/-!
# Assignments of a TOML table

How assignments make the entries of a table, in the document itself and in inline tables: under
single keys, or under dotted ones that make the tables on their way.  The nodes that they make have
readings that hold the values.
-/

namespace Concordance.Toml

open Text (Extent)

/-! ## Changing one entry -/

namespace Entries

variable {key : String} {f : Option (Extent × Node) → Option (Extent × Node)} {entries : Entries}

theorem change_of_not_mem (h : key ∉ entries.map Prod.fst) :
    entries.change key f = (f none).map fun node => entries ++ [(key, node)] := by
  induction entries with
  | nil => rfl
  | cons entry rest ih =>
    obtain ⟨hhead, hrest⟩ := not_or.1 (mt List.mem_cons.2 h)
    rw [change, if_neg fun heq => hhead heq.symm, ih hrest, Option.map_map]
    rfl

theorem change_append (h : key ∉ entries.map Prod.fst) (node : Extent × Node) (rest : Entries) :
    change key f (entries ++ (key, node) :: rest) =
      (f (some node)).map fun node => entries ++ (key, node) :: rest := by
  induction entries with
  | nil => rw [List.nil_append, change, if_pos rfl]; rfl
  | cons entry others ih =>
    obtain ⟨hhead, hothers⟩ := not_or.1 (mt List.mem_cons.2 h)
    rw [List.cons_append, change, if_neg fun heq => hhead heq.symm, ih hothers, Option.map_map]
    rfl

theorem changeLast_append (f : Entries → Option Entries) (elements : List (Extent × Entries))
    (last : Extent × Entries) :
    changeLast f (elements ++ [last]) =
      (f last.2).map fun entries => elements ++ [(last.1, entries)] := by
  induction elements with
  | nil => rfl
  | cons first rest ih =>
    have hne : rest ++ [last] ≠ [] := List.concat_ne_nil last rest
    obtain ⟨next, more, heq⟩ := List.exists_cons_of_ne_nil hne
    rw [List.cons_append, heq, changeLast, ← heq, ih, Option.map_map]
    · rfl
    · simp

end Entries

/-! ## Nodes that hold values -/

/-- The nodes at the keys of a table stand for the entries of a value. -/
def Made (made : Entries) (entries : List (String × Datum)) : Prop :=
  List.Forall₂ (fun node entry => node.1 = entry.1 ∧ node.2.2.reading.Holds entry.2) made entries

theorem Made.map_fst {made : Entries} {entries : List (String × Datum)} (h : Made made entries) :
    made.map Prod.fst = entries.map Prod.fst := by
  rw [← List.forall₂_eq_eq_eq, List.forall₂_map_left_iff, List.forall₂_map_right_iff]
  exact h.imp fun _ _ hpair => hpair.1

theorem Made.entryReadings {made : Entries} {entries : List (String × Datum)}
    (h : Made made entries) :
    List.Forall₂ (fun reading entry => reading.1 = entry.1 ∧ reading.2.2.Holds entry.2)
      (Node.entryReadings made) entries := by
  induction h with
  | nil => exact .nil
  | cons hpair _ ih => exact .cons hpair ih

/-- The reading of a table shows its entries in the order of their keys. -/
theorem Made.holds {made : Entries} {entries : List (String × Datum)} (h : Made made entries)
    (extent : Extent) :
    (tableReading extent (Node.entryReadings made)).Holds (.table entries) :=
  .of_forall₂ (List.mergeSort_perm _ _) h.entryReadings

/-! ## Assignments -/

/-- Assignments that make the entries of a table.  A table within it may be made by assignments
under dotted keys, one after another. -/
inductive Assigns : List (String × Datum) → List (List String × Datum) → Prop
  | nil : Assigns [] []
  | entry {key : String} {value : Datum} {entries : List (String × Datum)}
      {assignments : List (List String × Datum)} (hfresh : key ∉ entries.map Prod.fst)
      (hrest : Assigns entries assignments) :
      Assigns ((key, value) :: entries) (([key], value) :: assignments)
  | dotted {key : String} {inner entries : List (String × Datum)}
      {below assignments : List (List String × Datum)} (hfresh : key ∉ entries.map Prod.fst)
      (hinner : Assigns inner below) (hne : inner ≠ []) (hrest : Assigns entries assignments) :
      Assigns ((key, .table inner) :: entries)
        (below.map (fun assignment => (key :: assignment.1, assignment.2)) ++ assignments)

/-- The path and the reading of an assignment are those of the names and the value. -/
def IsAssignment (read : List Key × Reading) (assignment : List String × Datum) : Prop :=
  read.1.map Prod.fst = assignment.1 ∧ read.2.Holds assignment.2

/-- Carries out assignments in one table. -/
def assignAll (reads : List (List Key × Reading)) (entries : Entries) : Option Entries :=
  reads.foldlM (fun entries read => entries.assign read.2 true read.1) entries

theorem assignAll_append (first second : List (List Key × Reading)) (entries : Entries) :
    assignAll (first ++ second) entries = (assignAll first entries).bind (assignAll second) :=
  List.foldlM_append ..

theorem Assigns.path_ne_nil {entries : List (String × Datum)}
    {assignments : List (List String × Datum)} (h : Assigns entries assignments) :
    ∀ assignment ∈ assignments, assignment.1 ≠ [] := by
  induction h with
  | nil => simp
  | entry _ _ ih => exact List.forall_mem_cons.2 ⟨List.cons_ne_nil _ _, ih⟩
  | dotted _ _ _ _ _ ih =>
    refine List.forall_mem_append.2 ⟨fun assignment hmem => ?_, ih⟩
    obtain ⟨below, -, rfl⟩ := List.mem_map.1 hmem
    exact List.cons_ne_nil _ _

theorem Assigns.ne_nil {entries : List (String × Datum)}
    {assignments : List (List String × Datum)} (h : Assigns entries assignments)
    (hne : entries ≠ []) : assignments ≠ [] := by
  induction h with
  | nil => exact absurd rfl hne
  | entry => exact List.cons_ne_nil _ _
  | dotted _ _ hinner _ ih => simp [ih hinner]

section Dotted

variable {key : String} {entries : Entries}

/-- An assignment under a dotted key makes a table at its first key. -/
theorem assign_dotted (value : Reading) {first : Key} (hfirst : first.1 = key) {path : List Key}
    (hpath : path ≠ []) (hfresh : key ∉ entries.map Prod.fst) :
    entries.assign value true (first :: path) =
      (Entries.assign value true path []).map fun inner =>
        entries ++ [(key, first.2, Node.table first.2 .dotted inner)] := by
  subst hfirst
  obtain ⟨next, more, rfl⟩ := List.exists_cons_of_ne_nil hpath
  rw [Entries.assign, Entries.change_of_not_mem hfresh, Option.map_map]
  · rfl
  · simp

/-- An assignment under a dotted key goes into the table that dotted keys have made. -/
theorem assign_dotted_append (value : Reading) {first : Key} (hfirst : first.1 = key)
    {path : List Key} (hpath : path ≠ []) (hfresh : key ∉ entries.map Prod.fst)
    (extent place : Extent) (inner : Entries) :
    Entries.assign value true (first :: path)
        (entries ++ [(key, extent, Node.table place .dotted inner)]) =
      (inner.assign value true path).map fun inner =>
        entries ++ [(key, extent, Node.table place .dotted inner)] := by
  subst hfirst
  obtain ⟨next, more, rfl⟩ := List.exists_cons_of_ne_nil hpath
  rw [Entries.assign, Entries.change_append hfresh]
  · simp only [decide_true, Option.map_map]
    rfl
  · simp

/-- The path begins with the key and goes on. -/
def LeadsInto (key : String) (read : List Key × Reading) : Prop :=
  ∃ first path, read.1 = first :: path ∧ first.1 = key ∧ path ≠ []

theorem assignAll_leadsInto_append {reads : List (List Key × Reading)}
    (hreads : ∀ read ∈ reads, LeadsInto key read) (hfresh : key ∉ entries.map Prod.fst)
    (extent place : Extent) (inner : Entries) :
    assignAll reads (entries ++ [(key, extent, Node.table place .dotted inner)]) =
      (assignAll (reads.map fun read => (read.1.tail, read.2)) inner).map fun inner =>
        entries ++ [(key, extent, Node.table place .dotted inner)] := by
  induction reads generalizing inner with
  | nil => rfl
  | cons read rest ih =>
    obtain ⟨⟨first, path, hread, hfirst, hpath⟩, hrest⟩ := List.forall_mem_cons.1 hreads
    rw [assignAll, List.foldlM_cons, hread, assign_dotted_append read.2 hfirst hpath hfresh]
    rw [assignAll, List.map_cons, List.foldlM_cons, hread, List.tail_cons]
    cases Entries.assign read.2 true path inner with
    | none => rfl
    | some inner => exact ih hrest inner

/-- Assignments that all lead into one table are carried out inside it. -/
theorem exists_assignAll_leadsInto {reads : List (List Key × Reading)} (hne : reads ≠ [])
    (hreads : ∀ read ∈ reads, LeadsInto key read) (hfresh : key ∉ entries.map Prod.fst) :
    ∃ extent place, assignAll reads entries =
      (assignAll (reads.map fun read => (read.1.tail, read.2)) []).map fun inner =>
        entries ++ [(key, extent, Node.table place .dotted inner)] := by
  obtain ⟨read, rest, rfl⟩ := List.exists_cons_of_ne_nil hne
  obtain ⟨⟨first, path, hread, hfirst, hpath⟩, hrest⟩ := List.forall_mem_cons.1 hreads
  refine ⟨first.2, first.2, ?_⟩
  rw [assignAll, List.foldlM_cons, hread, assign_dotted read.2 hfirst hpath hfresh]
  rw [assignAll, List.map_cons, List.foldlM_cons, hread, List.tail_cons]
  cases Entries.assign read.2 true path [] with
  | none => rfl
  | some inner => exact assignAll_leadsInto_append hrest hfresh _ _ inner

end Dotted

/-- A key is still free behind a new one that differs from it. -/
theorem not_mem_map_fst_append {key other : String} {entries : Entries} {node : Extent × Node}
    (hne : key ≠ other) (h : key ∉ entries.map Prod.fst) :
    key ∉ (entries ++ [(other, node)]).map Prod.fst := by
  rw [List.map_append, List.mem_append]
  exact not_or.2 ⟨h, by simpa using hne⟩

/-- A path of names begins with a key of the first of them. -/
theorem exists_key_of_map_fst {path : List Key} {key : String} {names : List String}
    (h : path.map Prod.fst = key :: names) :
    ∃ extent rest, path = (key, extent) :: rest ∧ rest.map Prod.fst = names := by
  obtain ⟨⟨first, extent⟩, rest, rfl, rfl, hrest⟩ := List.map_eq_cons_iff.1 h
  exact ⟨extent, rest, rfl, hrest⟩

/-- Assignments under one key lead into its table, and are there the assignments below it. -/
theorem leadsInto_of_forall₂ {key : String} {reads : List (List Key × Reading)}
    {below : List (List String × Datum)} (hpaths : ∀ assignment ∈ below, assignment.1 ≠ [])
    (h : List.Forall₂ (fun read assignment => IsAssignment read (key :: assignment.1, assignment.2))
      reads below) :
    (∀ read ∈ reads, LeadsInto key read) ∧
      List.Forall₂ IsAssignment (reads.map fun read => (read.1.tail, read.2)) below := by
  induction h with
  | nil => exact ⟨by simp, .nil⟩
  | @cons read assignment reads below hpair _ ih =>
    obtain ⟨hpath, hpaths⟩ := List.forall_mem_cons.1 hpaths
    obtain ⟨hleads, hbelow⟩ := ih hpaths
    obtain ⟨hnames, hholds⟩ := hpair
    obtain ⟨extent, rest, hread, hrest⟩ := exists_key_of_map_fst hnames
    have hne : rest ≠ [] := by
      rintro rfl
      exact hpath hrest.symm
    refine ⟨List.forall_mem_cons.2 ⟨⟨_, rest, hread, rfl, hne⟩, hleads⟩, .cons ⟨?_, hholds⟩ hbelow⟩
    exact (congrArg (fun path => path.tail.map Prod.fst) hread).trans hrest

/-- Assignments make the entries that they are for, behind those that are there. -/
theorem Assigns.exists_made {entries : List (String × Datum)}
    {assignments : List (List String × Datum)} (h : Assigns entries assignments)
    {reads : List (List Key × Reading)} (hreads : List.Forall₂ IsAssignment reads assignments)
    (before : Entries) (hbefore : ∀ key ∈ entries.map Prod.fst, key ∉ before.map Prod.fst) :
    ∃ made, assignAll reads before = some (before ++ made) ∧ Made made entries := by
  induction h generalizing reads before with
  | nil =>
    cases hreads
    exact ⟨[], by rw [List.append_nil]; rfl, .nil⟩
  | @entry key value entries assignments hfresh hrest ih =>
    obtain ⟨⟨path, read⟩, others, ⟨hpath, hholds⟩, hothers, rfl⟩ :=
      List.forall₂_cons_right_iff.1 hreads
    obtain ⟨extent, rest, rfl, hnil⟩ := exists_key_of_map_fst hpath
    obtain rfl := List.map_eq_nil_iff.1 hnil
    obtain ⟨hkey, hbefore⟩ := List.forall_mem_cons.1 hbefore
    have hassign : before.assign read true [(key, extent)] =
        some (before ++ [(key, extent, .value read)]) := by
      rw [Entries.assign, if_pos rfl, Entries.change_of_not_mem hkey]
      rfl
    obtain ⟨made, hmade, hentries⟩ := ih hothers
      (before ++ [(key, extent, .value read)]) fun other hother =>
        not_mem_map_fst_append (fun heq => hfresh (heq ▸ hother)) (hbefore other hother)
    refine ⟨(key, extent, .value read) :: made, ?_, .cons ⟨rfl, hholds⟩ hentries⟩
    rw [assignAll, List.foldlM_cons, hassign]
    exact hmade.trans (by rw [List.append_assoc]; rfl)
  | @dotted key inner entries below assignments hfresh hinner hne hrest ihinner ih =>
    obtain ⟨hkey, hbefore⟩ := List.forall_mem_cons.1 hbefore
    obtain ⟨within, others, rfl, hwithin, hothers⟩ :
        ∃ within others, reads = within ++ others ∧
          List.Forall₂ (fun read assignment =>
            IsAssignment read (key :: assignment.1, assignment.2)) within below ∧
          List.Forall₂ IsAssignment others assignments :=
      ⟨_, _, (List.take_append_drop _ reads).symm,
        List.forall₂_map_right_iff.1 (List.forall₂_take_append _ _ _ hreads),
        List.forall₂_drop_append _ _ _ hreads⟩
    obtain ⟨hleads, hbelow⟩ := leadsInto_of_forall₂ hinner.path_ne_nil hwithin
    have hwithin_ne : within ≠ [] := by
      rintro rfl
      exact hinner.ne_nil hne (List.forall₂_nil_left_iff.1 hwithin)
    obtain ⟨nodes, hnodes, hmadeInner⟩ := ihinner hbelow [] (by simp)
    obtain ⟨extent, place, hassign⟩ :=
      exists_assignAll_leadsInto hwithin_ne hleads hkey
    obtain ⟨made, hmade, hentries⟩ := ih hothers
      (before ++ [(key, extent, Node.table place .dotted nodes)]) fun other hother =>
        not_mem_map_fst_append (fun heq => hfresh (heq ▸ hother)) (hbefore other hother)
    refine ⟨(key, extent, Node.table place .dotted nodes) :: made, ?_,
      .cons ⟨rfl, hmadeInner.holds place⟩ hentries⟩
    rw [assignAll_append, hassign, hnodes]
    exact hmade.trans (by rw [List.append_assoc]; rfl)

end Concordance.Toml
