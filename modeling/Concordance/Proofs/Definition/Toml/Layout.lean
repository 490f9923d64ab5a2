import Concordance.Proofs.Definition.Toml.Assignments

/-!
# Layouts of a TOML document

How the lines of a document, apart from their spelling, lay out a table.  Its entries are assigned
first.  Tables under headers of their own and arrays of tables follow, in any order, and each of
them is laid out in the same way before the next begins.  Carrying out the lines makes nodes whose
readings hold the values.
-/

namespace Concordance.Toml

open Text (Extent)

/-! ## Going down into tables -/

namespace Entries

variable {f : Option (Extent × Node) → Option (Extent × Node)}

/-- What becomes of the node at a key from which a path goes on. -/
def descend (f : Option (Extent × Node) → Option (Extent × Node)) (path : List Key)
    (place : Extent) : Option (Extent × Node) → Option (Extent × Node)
  | none => (walk f path []).map fun inner => (place, .table place .passed inner)
  | some (extent, .table place origin inner) =>
    (walk f path inner).map fun inner => (extent, .table place origin inner)
  | some (extent, .tables place elements) =>
    (changeLast (walk f path) elements).map fun elements => (extent, .tables place elements)
  | some (_, .value _) => none

theorem walk_cons (key : Key) {path : List Key} (hne : path ≠ []) (entries : Entries) :
    entries.walk f (key :: path) = entries.change key.1 (descend f path key.2) := by
  obtain ⟨next, more, rfl⟩ := List.exists_cons_of_ne_nil hne
  rw [walk]
  · rfl
  · simp

/-- To go down a path is to go down its first part, and on from its last table. -/
theorem walk_append (path : List Key) (key : Key) {more : List Key} (hne : more ≠ [])
    (entries : Entries) :
    entries.walk f (path ++ key :: more) =
      entries.walk (descend f more key.2) (path ++ [key]) := by
  induction path generalizing entries with
  | nil => exact walk_cons key hne entries
  | cons first rest ih =>
    have hwalk : walk f (rest ++ key :: more) =
        walk (descend f more key.2) (rest ++ [key]) :=
      funext ih
    rw [List.cons_append, List.cons_append, walk_cons first (by simp) entries,
      walk_cons first (by simp) entries]
    congr 1
    funext node
    simp only [descend, hwalk]

end Entries

/-- What surrounds a table of the document, given the names that lead to the table.  Whatever is
done at the end of a path through the table is done in its entries, and nothing else changes. -/
structure Surrounds (names : List String) (around : Entries → Entries) : Prop where
  walk : ∀ (f : Option (Extent × Node) → Option (Extent × Node)) (path : List Key) (key : Key)
    (entries : Entries), path.map Prod.fst = names →
      (around entries).walk f (path ++ [key]) = (entries.change key.1 f).map around
  inside : ∀ (f : Entries → Option Entries) (path : List Key) (entries : Entries),
    path.map Prod.fst = names → (around entries).inside f path = (f entries).map around

theorem surrounds_document : Surrounds [] id where
  walk f path key entries hpath := by
    obtain rfl := List.map_eq_nil_iff.1 hpath
    rw [Option.map_id]
    rfl
  inside f path entries hpath := by
    obtain rfl := List.map_eq_nil_iff.1 hpath
    rw [Option.map_id]
    rfl

theorem exists_path_of_map_fst {path : List Key} {names : List String} {name : String}
    (h : path.map Prod.fst = names ++ [name]) :
    ∃ front extent, path = front ++ [(name, extent)] ∧ front.map Prod.fst = names := by
  obtain ⟨front, last, rfl, hfront, hlast⟩ := List.map_eq_append_iff.1 h
  obtain ⟨extent, rest, rfl, hrest⟩ := exists_key_of_map_fst hlast
  obtain rfl := List.map_eq_nil_iff.1 hrest
  exact ⟨front, extent, rfl, hfront⟩

section Surroundings

variable {names : List String} {around : Entries → Entries} (h : Surrounds names around)
  {key : String} {before : Entries} (hfresh : key ∉ before.map Prod.fst)

include h hfresh

theorem Surrounds.table (extent place : Extent) (origin : Origin) :
    Surrounds (names ++ [key]) fun inner =>
      around (before ++ [(key, extent, .table place origin inner)]) where
  walk f path last inner hpath := by
    obtain ⟨front, there, rfl, hfront⟩ := exists_path_of_map_fst hpath
    rw [List.append_assoc, List.singleton_append, Entries.walk_append _ _ (by simp),
      h.walk _ _ _ _ hfront, Entries.change_append hfresh]
    simp only [Entries.descend, Entries.walk, Option.map_map]
    rfl
  inside f path inner hpath := by
    obtain ⟨front, there, rfl, hfront⟩ := exists_path_of_map_fst hpath
    rw [Entries.inside, h.walk _ _ _ _ hfront, Entries.change_append hfresh]
    · simp only [Option.map_map]
      rfl
    · simp

theorem Surrounds.element (extent place header : Extent)
    (elements : List (Extent × Entries)) :
    Surrounds (names ++ [key]) fun inner =>
      around (before ++ [(key, extent, .tables place (elements ++ [(header, inner)]))]) where
  walk f path last inner hpath := by
    obtain ⟨front, there, rfl, hfront⟩ := exists_path_of_map_fst hpath
    rw [List.append_assoc, List.singleton_append, Entries.walk_append _ _ (by simp),
      h.walk _ _ _ _ hfront, Entries.change_append hfresh]
    simp only [Entries.descend, Entries.changeLast_append, Entries.walk, Option.map_map]
    rfl
  inside f path inner hpath := by
    obtain ⟨front, there, rfl, hfront⟩ := exists_path_of_map_fst hpath
    rw [Entries.inside, h.walk _ _ _ _ hfront, Entries.change_append hfresh]
    · simp only [Entries.changeLast_append, Option.map_map]
      rfl
    · simp

end Surroundings

/-! ## Lines -/

/-- A line of a document, apart from its spelling. -/
inductive Line where
  | header (path : List String)
  | element (path : List String)
  | assignment (path : List String) (value : Datum)

/-- What is laid out: the whole content of a table, the tables and arrays in it that follow its
assignments, or the elements of an array of tables. -/
inductive Part where
  | content (entries : List (String × Datum))
  | sections (entries : List (String × Datum))
  | elements (key : String) (items : List Datum)

/-- The lines lay out a part of the table that the names lead to.  A table without assignments of
its own needs no header if there are tables or arrays in it. -/
inductive Lays : List String → Part → List Line → Prop
  | content {names : List String} {body sections : List (String × Datum)}
      {assignments : List (List String × Datum)} {lines : List Line}
      (hbody : Assigns body assignments) (hsections : Lays names (.sections sections) lines)
      (hdisjoint : (body.map Prod.fst).Disjoint (sections.map Prod.fst)) :
      Lays names (.content (body ++ sections))
        (assignments.map (fun assignment => .assignment assignment.1 assignment.2) ++ lines)
  | nothing {names : List String} : Lays names (.sections []) []
  | table {names : List String} {key : String} {inner entries : List (String × Datum)}
      {lines others : List Line} (hfresh : key ∉ entries.map Prod.fst)
      (hinner : Lays (names ++ [key]) (.content inner) lines)
      (hrest : Lays names (.sections entries) others) :
      Lays names (.sections ((key, .table inner) :: entries))
        (.header (names ++ [key]) :: lines ++ others)
  | passed {names : List String} {key : String} {inner entries : List (String × Datum)}
      {lines others : List Line} (hfresh : key ∉ entries.map Prod.fst)
      (hinner : Lays (names ++ [key]) (.sections inner) lines) (hne : inner ≠ [])
      (hrest : Lays names (.sections entries) others) :
      Lays names (.sections ((key, .table inner) :: entries)) (lines ++ others)
  | array {names : List String} {key : String} {items : List Datum}
      {entries : List (String × Datum)} {lines others : List Line}
      (hfresh : key ∉ entries.map Prod.fst) (hitems : Lays names (.elements key items) lines)
      (hne : items ≠ []) (hrest : Lays names (.sections entries) others) :
      Lays names (.sections ((key, .sequence items) :: entries)) (lines ++ others)
  | noElement {names : List String} {key : String} : Lays names (.elements key []) []
  | element {names : List String} {key : String} {inner : List (String × Datum)}
      {items : List Datum} {lines others : List Line}
      (hinner : Lays (names ++ [key]) (.content inner) lines)
      (hrest : Lays names (.elements key items) others) :
      Lays names (.elements key (.table inner :: items))
        (.element (names ++ [key]) :: lines ++ others)

/-- The line is the header of something in the table that the names lead to. -/
inductive Line.Under (names : List String) : Line → Prop
  | header {path : List String} (hne : path ≠ []) : Under names (.header (names ++ path))
  | element {path : List String} (hne : path ≠ []) : Under names (.element (names ++ path))

theorem Line.Under.of_append {names path : List String} {line : Line}
    (h : line.Under (names ++ path)) : line.Under names := by
  cases h with
  | header hne =>
    rw [List.append_assoc]
    exact .header (List.append_ne_nil_of_right_ne_nil path hne)
  | element hne =>
    rw [List.append_assoc]
    exact .element (List.append_ne_nil_of_right_ne_nil path hne)

/-- Which line comes first, if there is anything to lay out. -/
def Part.Heads (names : List String) (lines : List Line) : Part → Prop
  | .content _ => True
  | .sections entries => entries ≠ [] → ∃ line rest, lines = line :: rest ∧ line.Under names
  | .elements key items => items ≠ [] → ∃ rest, lines = .element (names ++ [key]) :: rest

theorem Lays.heads {names : List String} {part : Part} {lines : List Line}
    (h : Lays names part lines) : part.Heads names lines := by
  induction h with
  | content => trivial
  | nothing | noElement => exact fun hne => absurd rfl hne
  | table => exact fun _ => ⟨_, _, rfl, .header (List.cons_ne_nil _ _)⟩
  | passed _ _ hne _ ih =>
    intro
    obtain ⟨line, rest, rfl, hunder⟩ := ih hne
    exact ⟨line, _, rfl, hunder.of_append⟩
  | array _ _ hne _ ih =>
    intro
    obtain ⟨rest, rfl⟩ := ih hne
    exact ⟨_, _, rfl, .element (List.cons_ne_nil _ _)⟩
  | element => exact fun _ => ⟨_, rfl⟩

/-! ## Carrying out the lines -/

/-- The statement is what the line says. -/
inductive Says : Statement → Line → Prop
  | header {extent : Extent} {path : List Key} {names : List String}
      (hpath : path.map Prod.fst = names) : Says (.header extent path) (.header names)
  | element {extent : Extent} {path : List Key} {names : List String}
      (hpath : path.map Prod.fst = names) : Says (.element extent path) (.element names)
  | assignment {path : List Key} {read : Reading} {names : List String} {value : Datum}
      (h : IsAssignment (path, read) (names, value)) :
      Says (.assignment path read) (.assignment names value)

/-- The elements of an array of tables stand for the items of a value. -/
def MadeElements (made : List (Extent × Entries)) (items : List Datum) : Prop :=
  List.Forall₂ (fun element item =>
    (tableReading element.1 (Node.entryReadings element.2)).Holds item) made items

theorem MadeElements.holds {made : List (Extent × Entries)} {items : List Datum}
    (h : MadeElements made items) (extent : Extent) :
    (Node.tables extent made).reading.Holds (.sequence items) := by
  refine .sequence ?_
  induction h with
  | nil => exact .nil
  | cons hpair _ ih => exact .cons hpair ih

/-- Statements that only assign are carried out in the table of the latest header. -/
theorem run_assignments {names : List String} {around : Entries → Entries}
    (h : Surrounds names around) {path : List Key} (hpath : path.map Prod.fst = names)
    {assignments : List (List String × Datum)} {statements : List Statement}
    (hspelled : List.Forall₂ Says statements
      (assignments.map fun assignment => .assignment assignment.1 assignment.2)) :
    ∃ reads, List.Forall₂ IsAssignment reads assignments ∧ ∀ entries more,
      run path (around entries) (statements ++ more) =
        (assignAll reads entries).bind fun made => run path (around made) more := by
  rw [List.forall₂_map_right_iff] at hspelled
  induction hspelled with
  | nil => exact ⟨[], .nil, fun entries more => rfl⟩
  | cons hspelled _ ih =>
    cases hspelled with
    | @assignment keys read names value hassign =>
      obtain ⟨reads, hreads, hrun⟩ := ih
      refine ⟨(keys, read) :: reads, .cons hassign hreads, fun entries more => ?_⟩
      rw [List.cons_append, run, h.inside _ _ _ hpath, assignAll, List.foldlM_cons]
      cases entries.assign read true keys with
      | none => rfl
      | some made => exact hrun made more

section Opening

variable {names : List String} {around : Entries → Entries} (h : Surrounds names around)
  {key : String} {before : Entries} (hfresh : key ∉ before.map Prod.fst) (header : List Key)
  {path : List Key} (extent : Extent)

include h hfresh

theorem exists_run_header (hpath : path.map Prod.fst = names ++ [key]) :
    ∃ there, ∀ more, run header (around before) (.header extent path :: more) =
      run path (around (before ++ [(key, there, .table extent .headed [])])) more := by
  obtain ⟨front, there, rfl, hfront⟩ := exists_path_of_map_fst hpath
  refine ⟨there, fun more => ?_⟩
  rw [run, Entries.openTable, h.walk _ _ _ _ hfront, Entries.change_of_not_mem hfresh]
  simp [Entries.lastExtent]

theorem run_element (hpath : path.map Prod.fst = names ++ [key]) (there place : Extent)
    (elements : List (Extent × Entries)) (more : List Statement) :
    run header (around (before ++ [(key, there, .tables place elements)]))
        (.element extent path :: more) =
      run path (around (before ++ [(key, there, .tables place (elements ++ [(extent, [])]))]))
        more := by
  obtain ⟨front, last, rfl, hfront⟩ := exists_path_of_map_fst hpath
  rw [run, Entries.openElement, h.walk _ _ _ _ hfront, Entries.change_append hfresh]
  rfl

/-- The first element of an array of tables is opened as if the array were there and empty. -/
theorem exists_run_first_element (hpath : path.map Prod.fst = names ++ [key]) :
    ∃ there, ∀ more, run header (around before) (.element extent path :: more) =
      run header (around (before ++ [(key, there, .tables extent [])]))
        (.element extent path :: more) := by
  obtain ⟨front, last, rfl, hfront⟩ := exists_path_of_map_fst hpath
  refine ⟨last, fun more => ?_⟩
  rw [run_element h hfresh header extent hpath, run, Entries.openElement, h.walk _ _ _ _ hfront,
    Entries.change_of_not_mem hfresh]
  simp [Entries.lastExtent]

/-- What is opened in a table that is not there is opened as if the table were there and empty. -/
theorem exists_run_passed {line : Line} (hunder : line.Under (names ++ [key]))
    {statement : Statement} (hspelled : Says statement line) :
    ∃ there, ∀ more, run header (around before) (statement :: more) =
      run header (around (before ++ [(key, there, .table there .passed [])]))
        (statement :: more) := by
  have hwalk : ∀ {path : List Key} {rest : List String},
      path.map Prod.fst = names ++ [key] ++ rest → rest ≠ [] → ∃ there, ∀ f,
        (around before).walk f path =
          (around (before ++ [(key, there, .table there .passed [])])).walk f path := by
    intro path rest hpath hne
    rw [List.append_assoc, List.singleton_append] at hpath
    obtain ⟨front, back, rfl, hfront, hback⟩ := List.map_eq_append_iff.1 hpath
    obtain ⟨there, inner, rfl, hinner⟩ := exists_key_of_map_fst hback
    have hinner_ne : inner ≠ [] := by
      rintro rfl
      exact hne hinner.symm
    refine ⟨there, fun f => ?_⟩
    rw [Entries.walk_append _ _ hinner_ne, Entries.walk_append _ _ hinner_ne,
      h.walk _ _ _ _ hfront, h.walk _ _ _ _ hfront, Entries.change_of_not_mem hfresh,
      Entries.change_append hfresh]
    rfl
  cases hunder with
  | header hne =>
    cases hspelled with
    | header hpath =>
      obtain ⟨there, hthere⟩ := hwalk hpath hne
      exact ⟨there, fun more => by simp only [run, Entries.openTable, hthere]⟩
  | element hne =>
    cases hspelled with
    | element hpath =>
      obtain ⟨there, hthere⟩ := hwalk hpath hne
      exact ⟨there, fun more => by simp only [run, Entries.openElement, hthere]⟩

end Opening

/-- Whatever statements the lines are spelled as, carrying them out makes the part in its place in
the document, and nothing else. -/
def Part.IsMade (names : List String) (lines : List Line) : Part → Prop
  | .content entries => ∀ around, Surrounds names around → ∀ path, path.map Prod.fst = names →
    ∀ statements, List.Forall₂ Says statements lines →
      ∃ made last, Made made entries ∧ ∀ more,
        run path (around []) (statements ++ more) = run last (around made) more
  | .sections entries => ∀ around, Surrounds names around → ∀ before : Entries,
    (∀ key ∈ entries.map Prod.fst, key ∉ before.map Prod.fst) →
      ∀ statements, List.Forall₂ Says statements lines → ∀ header,
        ∃ made last, Made made entries ∧ ∀ more,
          run header (around before) (statements ++ more) = run last (around (before ++ made)) more
  | .elements key items => ∀ around, Surrounds names around → ∀ before : Entries,
    key ∉ before.map Prod.fst → ∀ extent place elements statements,
      List.Forall₂ Says statements lines → ∀ header,
        ∃ made last, MadeElements made items ∧ ∀ more,
          run header (around (before ++ [(key, extent, .tables place elements)]))
              (statements ++ more) =
            run last (around (before ++ [(key, extent, .tables place (elements ++ made))])) more

theorem exists_append_of_spelled {statements : List Statement} {first second : List Line}
    (h : List.Forall₂ Says statements (first ++ second)) :
    ∃ front back, statements = front ++ back ∧ List.Forall₂ Says front first ∧
      List.Forall₂ Says back second :=
  ⟨_, _, (List.take_append_drop _ statements).symm, List.forall₂_take_append _ _ _ h,
    List.forall₂_drop_append _ _ _ h⟩

/-- What is made at a new key is made behind the rest, and the others follow. -/
theorem exists_made_cons {names : List String} {around : Entries → Entries}
    (h : Surrounds names around) {key : String} {value : Datum} {entries : List (String × Datum)}
    (hfresh : key ∉ entries.map Prod.fst) {others : List Line}
    (hothers : (Part.sections entries).IsMade names others) {before : Entries}
    (hbefore : ∀ other ∈ entries.map Prod.fst, other ∉ before.map Prod.fst)
    (node : Extent × Node) (hnode : node.2.reading.Holds value) {rest : List Statement}
    (hrest : List.Forall₂ Says rest others) (header : List Key) :
    ∃ made last, Made made ((key, value) :: entries) ∧ ∀ more,
      run header (around (before ++ [(key, node)])) (rest ++ more) =
        run last (around (before ++ made)) more := by
  obtain ⟨made, last, hmade, hrun⟩ := hothers around h (before ++ [(key, node)])
    (fun other hother => not_mem_map_fst_append (fun heq => hfresh (heq ▸ hother))
      (hbefore other hother)) rest hrest header
  refine ⟨(key, node) :: made, last, .cons ⟨rfl, hnode⟩ hmade, fun more => ?_⟩
  rw [hrun more, List.append_assoc]
  rfl

theorem Lays.isMade {names : List String} {part : Part} {lines : List Line}
    (h : Lays names part lines) : part.IsMade names lines := by
  induction h with
  | @content names body sections assignments lines hbody hsections hdisjoint ih =>
    intro around haround path hpath statements hspelled
    obtain ⟨front, back, rfl, hfront, hback⟩ := exists_append_of_spelled hspelled
    obtain ⟨reads, hreads, hassigned⟩ := run_assignments haround hpath hfront
    obtain ⟨first, hfirst, hbodyMade⟩ := hbody.exists_made hreads [] (by simp)
    obtain ⟨second, last, hsectionsMade, hrun⟩ := ih around haround first
      (fun key hkey => hbodyMade.map_fst ▸ fun hmem => hdisjoint hmem hkey) back hback path
    refine ⟨first ++ second, last, List.rel_append hbodyMade hsectionsMade, fun more => ?_⟩
    rw [List.append_assoc, hassigned, hfirst]
    exact hrun more
  | nothing =>
    intro around haround before hbefore statements hspelled header
    cases hspelled
    exact ⟨[], header, .nil, fun more => by rw [List.append_nil]; rfl⟩
  | @table names key inner entries lines others hfresh hinner hrest ihinner ih =>
    intro around haround before hbefore statements hspelled header
    obtain ⟨hkey, hbefore⟩ := List.forall_mem_cons.1 hbefore
    obtain ⟨front, back, rfl, hfront, hback⟩ := exists_append_of_spelled hspelled
    obtain ⟨_, within, hheader, hwithin, rfl⟩ := List.forall₂_cons_right_iff.1 hfront
    obtain @⟨extent, path, _, hpath⟩ := hheader
    obtain ⟨there, hopened⟩ := exists_run_header haround hkey header extent hpath
    obtain ⟨nodes, last, hnodes, hrun⟩ :=
      ihinner _ (haround.table hkey there extent .headed) path hpath within hwithin
    obtain ⟨made, last', hmade, hrun'⟩ := exists_made_cons haround hfresh ih hbefore
      (there, .table extent .headed nodes) (hnodes.holds extent) hback last
    refine ⟨made, last', hmade, fun more => ?_⟩
    rw [List.cons_append, List.cons_append, hopened, List.append_assoc, hrun]
    exact hrun' more
  | @passed names key inner entries lines others hfresh hinner hne hrest ihinner ih =>
    intro around haround before hbefore statements hspelled header
    obtain ⟨hkey, hbefore⟩ := List.forall_mem_cons.1 hbefore
    obtain ⟨front, back, rfl, hfront, hback⟩ := exists_append_of_spelled hspelled
    obtain ⟨line, rest, rfl, hunder⟩ := hinner.heads hne
    obtain ⟨statement, within, hstatement, hwithin, rfl⟩ := List.forall₂_cons_right_iff.1 hfront
    obtain ⟨there, hpassed⟩ :=
      exists_run_passed haround hkey header hunder hstatement
    obtain ⟨nodes, last, hnodes, hrun⟩ := ihinner _ (haround.table hkey there there .passed) []
      (by simp) _ (.cons hstatement hwithin) header
    obtain ⟨made, last', hmade, hrun'⟩ := exists_made_cons haround hfresh ih hbefore
      (there, .table there .passed nodes) (hnodes.holds there) hback last
    refine ⟨made, last', hmade, fun more => ?_⟩
    rw [List.cons_append, List.cons_append, hpassed, List.append_assoc]
    exact (hrun (back ++ more)).trans (hrun' more)
  | @array names key items entries lines others hfresh hitems hne hrest ihitems ih =>
    intro around haround before hbefore statements hspelled header
    obtain ⟨hkey, hbefore⟩ := List.forall_mem_cons.1 hbefore
    obtain ⟨front, back, rfl, hfront, hback⟩ := exists_append_of_spelled hspelled
    obtain ⟨rest, rfl⟩ := hitems.heads hne
    obtain ⟨_, within, hfirst, hwithin, rfl⟩ := List.forall₂_cons_right_iff.1 hfront
    obtain _ | @⟨extent, path, _, hpath⟩ := hfirst
    obtain ⟨there, hopened⟩ := exists_run_first_element haround hkey header extent hpath
    obtain ⟨elements, last, helements, hrun⟩ := ihitems around haround before hkey there extent []
      _ (.cons (.element hpath) hwithin) header
    obtain ⟨made, last', hmade, hrun'⟩ := exists_made_cons haround hfresh ih hbefore
      (there, .tables extent elements) (helements.holds extent) hback last
    refine ⟨made, last', hmade, fun more => ?_⟩
    rw [List.cons_append, List.cons_append, hopened, List.append_assoc]
    exact (hrun (back ++ more)).trans (hrun' more)
  | noElement =>
    intro around haround before hkey extent place elements statements hspelled header
    cases hspelled
    exact ⟨[], header, .nil, fun more => by rw [List.append_nil]; rfl⟩
  | @element names key inner items lines others hinner hrest ihinner ih =>
    intro around haround before hkey extent place elements statements hspelled header
    obtain ⟨front, back, rfl, hfront, hback⟩ := exists_append_of_spelled hspelled
    obtain ⟨_, within, hfirst, hwithin, rfl⟩ := List.forall₂_cons_right_iff.1 hfront
    obtain _ | @⟨there, path, _, hpath⟩ := hfirst
    obtain ⟨nodes, last, hnodes, hrun⟩ := ihinner _
      (haround.element hkey extent place there elements) path hpath within hwithin
    obtain ⟨made, last', hmade, hrun'⟩ := ih around haround before hkey extent place
      (elements ++ [(there, nodes)]) back hback last
    refine ⟨(there, nodes) :: made, last', .cons (hnodes.holds there) hmade, fun more => ?_⟩
    rw [List.cons_append, List.cons_append, run_element haround hkey header there hpath,
      List.append_assoc, hrun, hrun', List.append_assoc]
    rfl

/-- The reading of a document holds the table that its lines lay out. -/
theorem Lays.document? {entries : List (String × Datum)} {lines : List Line}
    (h : Lays [] (.content entries) lines) {statements : List Statement}
    (hspelled : List.Forall₂ Says statements lines) (extent : Extent) :
    ∃ read, document? extent statements = some read ∧ read.Holds (.table entries) := by
  obtain ⟨made, last, hmade, hrun⟩ :=
    h.isMade id surrounds_document [] rfl statements hspelled
  refine ⟨_, ?_, hmade.holds extent⟩
  have hdone := hrun []
  rw [List.append_nil] at hdone
  rw [Toml.document?, show run [] [] statements = some made from hdone]
  rfl

end Concordance.Toml
