import Concordance.Disk.FileTree

/-!
# What paths name

A path names a location that its text alone decides: silent parts stay, a parent step drops the
last name, and every other part is a name.  Paths with different components may name the same
location.  Joining a path with a plain name leads one name further, whatever the path is like.
-/

namespace Concordance

/-- Where a part of a path leads. -/
def Location.step (location : Location) (part : String) : Location :=
  if part = "" ∨ part = "." then location
  else if part = ".." then location.dropLast
  else location ++ [part]

namespace Path

/-- The location that a path names, whether anything is there or not. -/
def location (here : Location) (path : Path) : Location :=
  path.parts.foldl Location.step (if path.isAbsolute then [] else here)

theorem parts_ne_nil (path : Path) : path.parts ≠ [] := by
  simp [parts, split, List.splitOn_ne_nil]

/-- Whether a part of a path is a name. -/
structure IsName (part : String) : Prop where
  slash : '/' ∉ part.toList
  silent : ¬(part = "" ∨ part = ".")
  parent : part ≠ ".."

theorem split_eq_singleton {part : String} (h : '/' ∉ part.toList) : split part = [part] := by
  simp [split, List.splitOn_eq_singleton h]

/-- The parts of a path have no slashes. -/
theorem slash_notMem_of_mem_splitOn {part text : List Char} (h : part ∈ text.splitOn '/') :
    '/' ∉ part := by
  induction text generalizing part with
  | nil => simp_all [List.splitOn_nil]
  | cons first rest ih =>
    rw [List.splitOn_cons_eq_if_modifyHead] at h
    by_cases hfirst : first = '/'
    · simp only [hfirst, beq_self_eq_true, if_true, List.mem_cons] at h
      obtain rfl | h := h
      · simp
      · exact ih h
    · simp only [beq_iff_eq, if_neg hfirst] at h
      cases hrest : rest.splitOn '/' with
      | nil => exact absurd hrest (List.splitOn_ne_nil '/' rest)
      | cons next others =>
        simp only [hrest, List.modifyHead_cons, List.mem_cons] at h ih
        obtain rfl | h := h
        · simpa [Ne.symm hfirst, eq_comm] using ih (.inl rfl)
        · exact ih (.inr h)

theorem slash_notMem_of_mem_parts {path : Path} {part : String} (h : part ∈ path.parts) :
    '/' ∉ part.toList := by
  simp only [parts, split, List.mem_map] at h
  obtain ⟨cs, hcs, rfl⟩ := h
  simpa using slash_notMem_of_mem_splitOn hcs

theorem innerComponent_eq_name_iff {part name : String} :
    innerComponent part = some (.name name) ↔
      part = name ∧ ¬(name = "" ∨ name = ".") ∧ name ≠ ".." := by
  unfold innerComponent
  split
  · next hsilent =>
    simp only [reduceCtorEq, false_iff]
    rintro ⟨rfl, hname, -⟩
    exact hname hsilent
  · next hsilent =>
    split
    · next hparent =>
      simp only [Option.some.injEq, reduceCtorEq, false_iff]
      rintro ⟨rfl, -, hname⟩
      exact hname hparent
    · next hparent =>
      simp only [Option.some.injEq, Component.name.injEq]
      constructor
      · rintro rfl
        exact ⟨rfl, hsilent, hparent⟩
      · exact And.left

/-- The components of a path are those of its parts, except for the slash and the dot that it may
begin with. -/
theorem mem_components_iff {path : Path} {component : Component} (hroot : component ≠ .root)
    (hhere : component ≠ .here) :
    component ∈ path.components ↔ ∃ part ∈ path.parts, innerComponent part = some component := by
  unfold components
  split
  · simp [hroot, List.mem_filterMap]
  · cases path.parts with
    | nil => simp [partComponents]
    | cons first rest =>
      simp only [partComponents, List.mem_append, List.mem_filterMap, List.mem_cons,
        exists_eq_or_imp]
      refine or_congr_left ?_
      split
      · next hdot => simp [hdot, hhere, innerComponent]
      · rw [Option.mem_toList]

/-- The names on a path are the parts that are neither silent nor steps back. -/
theorem name_mem_components_iff {path : Path} {name : String} :
    Component.name name ∈ path.components ↔ name ∈ path.parts ∧ IsName name := by
  rw [mem_components_iff (by simp) (by simp)]
  constructor
  · rintro ⟨part, hmem, hpart⟩
    obtain ⟨rfl, hsilent, hparent⟩ := innerComponent_eq_name_iff.mp hpart
    exact ⟨hmem, slash_notMem_of_mem_parts hmem, hsilent, hparent⟩
  · rintro ⟨hmem, -, hsilent, hparent⟩
    exact ⟨name, hmem, innerComponent_eq_name_iff.mpr ⟨rfl, hsilent, hparent⟩⟩

theorem getLast?_components_of_fileName? {path : Path} {name : String}
    (h : path.fileName? = some name) : path.components.getLast? = some (.name name) := by
  unfold fileName? at h
  split at h
  · next text hlast =>
    cases h
    exact hlast
  · cases h

theorem isName_of_fileName? {path : Path} {name : String} (h : path.fileName? = some name) :
    IsName name :=
  (name_mem_components_iff.mp (List.mem_of_getLast? (getLast?_components_of_fileName? h))).2

theorem slash_notMem_stem {path : Path} {stem : String} (h : path.stem? = some stem) :
    '/' ∉ stem.toList := by
  obtain ⟨name, hname, rfl⟩ : ∃ name, path.fileName? = some name ∧
      (splitExtension name).1 = stem := by simpa [stem?] using h
  have hslash := (isName_of_fileName? hname).slash
  -- What is before the last dot is part of the name.
  unfold splitExtension
  dsimp only
  split
  · exact hslash
  · next before hbefore =>
    intro hmem
    rw [String.toList_ofList] at hmem
    refine hslash ?_
    have hback := List.mem_reverse.mp hmem
    have htail := List.mem_of_mem_tail hback
    simpa using (List.dropWhile_suffix _).mem htail

theorem isName_stylesheet {path : Path} {stem : String} (h : path.stem? = some stem) :
    IsName (stem ++ ".xsl") := by
  have hlength : (stem ++ ".xsl").length = stem.length + 4 := by
    rw [String.length_append]
    rfl
  refine ⟨by simpa using slash_notMem_stem h, ?_, ?_⟩
  · rintro (heq | heq)
    · simp [heq] at hlength
    · rw [heq] at hlength
      exact absurd hlength (by change 1 ≠ _; omega)
  · intro heq
    rw [heq] at hlength
    exact absurd hlength (by change 2 ≠ _; omega)

theorem parts_append_slash {path : Path} {before : List Char} {part : String}
    (htext : path.text.toList = before ++ '/' :: part.toList) (h : '/' ∉ part.toList) :
    path.parts = split (String.ofList before) ++ [part] := by
  rw [parts, split, htext, List.splitOn_append_cons_self, List.splitOn_eq_singleton h]
  simp [split]

/-- The parts of a path that stay before a name that is joined to it. -/
def folder (path : Path) : List String :=
  if path.text = "" then []
  else if path.text.toList.getLast? = some '/' then path.parts.dropLast
  else path.parts

theorem mem_parts_of_mem_folder {path : Path} {part : String} (h : part ∈ path.folder) :
    part ∈ path.parts := by
  unfold folder at h
  split at h
  · cases h
  · split at h
    · exact List.dropLast_subset _ h
    · exact h

theorem not_slash_head {name : String} (h : '/' ∉ name.toList) :
    ¬(name.toList.head? == some '/') = true :=
  fun hhead => h (List.mem_of_head? (by simpa using hhead))

theorem parts_join (path : Path) {name : String} (h : '/' ∉ name.toList) :
    (path.join name).parts = path.folder ++ [name] := by
  unfold join folder
  rw [if_neg (not_slash_head h)]
  by_cases hempty : path.text = ""
  · rw [if_pos (Or.inl hempty), if_pos hempty, hempty]
    simpa [parts] using split_eq_singleton h
  · rw [if_neg hempty]
    by_cases hend : path.text.toList.getLast? = some '/'
    · -- The slash at the end is followed by a silent part, in whose place the name comes.
      obtain ⟨before, hbefore⟩ := List.getLast?_eq_some_iff.mp hend
      have hparts : path.parts = split (String.ofList before) ++ [""] :=
        parts_append_slash (by simpa using hbefore) (by simp)
      rw [if_pos (Or.inr hend), if_pos hend, hparts, List.dropLast_concat]
      exact parts_append_slash (by simp [hbefore]) h
    · rw [if_neg (by simp [hempty, hend]), if_neg hend]
      have htext : (Path.mk (path.text ++ "/" ++ name)).text.toList =
          path.text.toList ++ '/' :: name.toList := by simp
      simpa [parts] using parts_append_slash htext h

theorem isAbsolute_join (path : Path) {name : String} (h : '/' ∉ name.toList) :
    (path.join name).isAbsolute = path.isAbsolute := by
  unfold join
  rw [if_neg (not_slash_head h)]
  cases htext : path.text.toList with
  | nil =>
    have hempty : path.text = "" := String.toList_eq_nil_iff.mp htext
    rw [if_pos (Or.inl hempty)]
    simpa [isAbsolute, hempty] using not_slash_head h
  | cons first rest => split <;> simp [isAbsolute, htext]

/-- The part that a joined name replaces is empty. -/
theorem parts_eq_folder_or (path : Path) :
    path.parts = path.folder ∨ path.parts = path.folder ++ [""] := by
  unfold folder
  split
  · next hempty => exact Or.inr (by simp [parts, hempty, split])
  · split
    · next hend =>
      obtain ⟨before, hbefore⟩ := List.getLast?_eq_some_iff.mp hend
      have hparts : path.parts = split (String.ofList before) ++ [""] :=
        parts_append_slash (by simpa using hbefore) (by simp)
      rw [hparts, List.dropLast_concat]
      exact Or.inr rfl
    · exact Or.inl rfl

theorem foldl_step_folder (path : Path) (start : Location) :
    path.folder.foldl Location.step start = path.parts.foldl Location.step start := by
  have hsilent (location : Location) : location.step "" = location := if_pos (.inl rfl)
  rcases path.parts_eq_folder_or with h | h
  · rw [h]
  · rw [h, List.foldl_append, List.foldl_cons, List.foldl_nil, hsilent]

/-- A plain name leads one name further. -/
theorem location_join (here : Location) (path : Path) {name : String} (h : IsName name) :
    (path.join name).location here = path.location here ++ [name] := by
  rw [location, parts_join path h.slash, isAbsolute_join path h.slash, List.foldl_append,
    foldl_step_folder, List.foldl_cons, List.foldl_nil, Location.step, if_neg h.silent,
    if_neg h.parent]
  rfl

end Path

end Concordance
