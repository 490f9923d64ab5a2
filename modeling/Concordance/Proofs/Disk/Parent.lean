import Concordance.Proofs.Disk.Location

/-!
# Parents of paths

A path says the same as its components, so that its last name is the last name on the way to its
location.  The parent of a path is written without the parts that say nothing, and the path that
leads from it to a plain name has it as its parent again.  Where a path leads somewhere its parent
leads to a directory.
-/

namespace Concordance

/-! ## Components -/

/-- Where a component leads. -/
def Component.lead (location : Location) : Component → Location
  | .root => []
  | .here => location
  | .parent => location.dropLast
  | .name text => location ++ [text]

namespace Path

theorem step_eq_foldl_innerComponent (location : Location) (part : String) :
    location.step part = (innerComponent part).toList.foldl Component.lead location := by
  unfold Location.step innerComponent
  split
  · rfl
  · split <;> rfl

theorem foldl_step_eq_foldl_filterMap (parts : List String) (location : Location) :
    parts.foldl Location.step location =
      (parts.filterMap innerComponent).foldl Component.lead location := by
  induction parts generalizing location with
  | nil => rfl
  | cons part rest ih =>
    rw [List.foldl_cons, ih, step_eq_foldl_innerComponent, List.filterMap_cons]
    cases innerComponent part <;> rfl

/-- A path leads where its components lead, one after another. -/
theorem location_eq_foldl_components (here : Location) (path : Path) :
    path.location here = path.components.foldl Component.lead here := by
  rw [location, components]
  by_cases habsolute : path.isAbsolute = true
  · rw [if_pos habsolute, if_pos habsolute, foldl_step_eq_foldl_filterMap]
    rfl
  · rw [if_neg habsolute, if_neg habsolute]
    cases path.parts with
    | nil => rfl
    | cons first rest =>
      rw [List.foldl_cons, foldl_step_eq_foldl_filterMap, partComponents, List.foldl_append]
      by_cases hdot : first = "."
      · simp [hdot, Location.step, Component.lead]
      · rw [if_neg hdot, step_eq_foldl_innerComponent]

/-- The file name is the last name on the way. -/
theorem exists_location_eq_of_fileName? {path : Path} {name : String}
    (h : path.fileName? = some name) (here : Location) :
    ∃ folder, path.location here = folder ++ [name] := by
  obtain ⟨before, hcomponents⟩ :=
    List.getLast?_eq_some_iff.mp (getLast?_components_of_fileName? h)
  refine ⟨before.foldl Component.lead here, ?_⟩
  rw [location_eq_foldl_components, hcomponents, List.foldl_append]
  rfl

theorem innerComponent_eq_parent_iff {part : String} :
    innerComponent part = some .parent ↔ part = ".." := by
  unfold innerComponent
  split
  · next hsilent => rcases hsilent with rfl | rfl <;> simp
  · split <;> simp_all

/-- Parent steps are the parts of two dots. -/
theorem parent_mem_components_iff {path : Path} :
    Component.parent ∈ path.components ↔ ".." ∈ path.parts := by
  rw [mem_components_iff (by simp) (by simp)]
  simp [innerComponent_eq_parent_iff]

/-! ## Parts -/

theorem text_eq_intercalate_parts (path : Path) : path.text = "/".intercalate path.parts := by
  apply String.toList_injective
  rw [String.toList_intercalate, parts, split, List.map_map]
  have hparts : (path.text.toList.splitOn '/').map (String.toList ∘ String.ofList) =
      path.text.toList.splitOn '/' := by
    simp [Function.comp_def]
  rw [hparts]
  exact (List.intercalate_splitOn '/').symm

theorem split_intercalate {parts : List String} (h : ∀ part ∈ parts, '/' ∉ part.toList)
    (hparts : parts ≠ []) : split ("/".intercalate parts) = parts := by
  have hchars : ∀ cs ∈ parts.map String.toList, '/' ∉ cs := by
    simpa using h
  have hslash : "/".toList = ['/'] := rfl
  rw [split, String.toList_intercalate, hslash, List.splitOn_intercalate '/' hchars (by simpa)]
  simp [Function.comp_def]

/-- A path begins at the root where its first part is empty and not its only one. -/
theorem isAbsolute_iff {path : Path} :
    path.isAbsolute = true ↔ ∃ rest, rest ≠ [] ∧ path.parts = "" :: rest := by
  have htext := path.text_eq_intercalate_parts
  cases hparts : path.parts with
  | nil => exact absurd hparts path.parts_ne_nil
  | cons first rest =>
    have hfirst : '/' ∉ first.toList := slash_notMem_of_mem_parts (hparts ▸ List.mem_cons_self)
    rw [hparts] at htext
    simp only [isAbsolute, htext, beq_iff_eq, List.cons.injEq]
    by_cases hrest : rest = []
    · subst hrest
      simp only [String.intercalate_singleton]
      constructor
      · intro hhead
        exact absurd (List.mem_of_head? hhead) hfirst
      · rintro ⟨_, hne, -, hnil⟩
        exact absurd hnil.symm hne
    · rw [String.intercalate_cons_of_ne_nil hrest, String.toList_append, String.toList_append]
      cases hchars : first.toList with
      | nil =>
        have hempty : first = "" := String.toList_eq_nil_iff.mp hchars
        simp [hempty, hrest]
      | cons c cs =>
        have hne : first ≠ "" := by
          rintro rfl
          simp at hchars
        have hc : c ≠ '/' := by
          rintro rfl
          rw [hchars] at hfirst
          exact hfirst List.mem_cons_self
        simp [hne, hc]

/-! ## Silent parts at the end -/

theorem dropSilent_concat (parts : List String) {part : String} (h : isSilent part = false) :
    dropSilent (parts ++ [part]) = parts ++ [part] := by
  cases parts with
  | nil => rfl
  | cons first rest =>
    rw [List.cons_append, dropSilent, List.reverse_append, List.reverse_singleton,
      List.singleton_append, List.dropWhile_cons_of_neg (by simp [h])]
    simp

theorem dropSilent_prefix_self (parts : List String) : dropSilent parts <+: parts := by
  cases parts with
  | nil => exact List.prefix_refl []
  | cons first rest =>
    rw [dropSilent, List.cons_prefix_cons]
    have hsuffix := List.reverse_prefix.2 (List.dropWhile_suffix (l := rest.reverse) isSilent)
    exact ⟨rfl, by simpa using hsuffix⟩

theorem slash_notMem_dropSilent {parts : List String} (h : ∀ part ∈ parts, '/' ∉ part.toList) :
    ∀ part ∈ dropSilent parts, '/' ∉ part.toList :=
  fun part hpart => h part ((dropSilent_prefix_self parts).subset hpart)

theorem dropSilent_ne_nil {parts : List String} (h : parts ≠ []) : dropSilent parts ≠ [] := by
  cases parts with
  | nil => exact absurd rfl h
  | cons first rest => simp [dropSilent]

/-- What is left ends in a part that is not silent or is a single part. -/
theorem dropSilent_cases {parts : List String} (h : parts ≠ []) :
    (∃ part, dropSilent parts = [part]) ∨
      ∃ before part, dropSilent parts = before ++ [part] ∧ isSilent part = false := by
  cases parts with
  | nil => exact absurd rfl h
  | cons first rest =>
    rw [dropSilent]
    cases hkept : rest.reverse.dropWhile isSilent with
    | nil => exact Or.inl ⟨first, rfl⟩
    | cons part before =>
      have hpart : isSilent part = false := by
        have := List.head?_dropWhile_not isSilent rest.reverse
        simpa [hkept] using this
      exact Or.inr ⟨first :: before.reverse, part, by simp, hpart⟩

theorem dropSilent_dropSilent (parts : List String) :
    dropSilent (dropSilent parts) = dropSilent parts := by
  cases parts with
  | nil => rfl
  | cons first rest =>
    rcases dropSilent_cases (List.cons_ne_nil first rest) with ⟨part, h⟩ | ⟨before, part, h, hpart⟩
    · rw [h]
      rfl
    · rw [h, dropSilent_concat before hpart]

/-! ## Parents -/

/-- The path of parts from which the silent ones at the end are dropped. -/
def ofParts : List String → Path
  | [] => ⟨""⟩
  | first :: rest =>
    let kept := dropSilent (first :: rest)
    ⟨if kept = [""] then "/" else "/".intercalate kept⟩

theorem eq_ofParts_of_parent? {path parent : Path} (h : path.parent? = some parent) :
    parent = ofParts (dropSilent path.parts).dropLast := by
  unfold parent? at h
  split at h
  · cases h
  · cases h
  · split at h
    · next hnil =>
      rw [hnil]
      exact (Option.some.inj h).symm
    · next hcons =>
      cases hkept : (dropSilent path.parts).dropLast with
      | nil => exact absurd hkept hcons
      | cons first rest =>
        rw [hkept] at h
        exact (Option.some.inj h).symm

theorem exists_parent?_of_stem? {path : Path} {stem : String} (h : path.stem? = some stem) :
    ∃ parent, path.parent? = some parent := by
  obtain ⟨name, hname, -⟩ := Option.map_eq_some_iff.mp h
  rw [parent?, getLast?_components_of_fileName? hname]
  cases (dropSilent path.parts).dropLast with
  | nil => exact ⟨_, rfl⟩
  | cons first rest => exact ⟨_, rfl⟩

theorem partComponents_concat (parts : List String) {part : String} {component : Component}
    (h : innerComponent part = some component) :
    partComponents (parts ++ [part]) = partComponents parts ++ [component] := by
  cases parts with
  | nil =>
    have hdot : part ≠ "." := by
      rintro rfl
      cases h
    simp [partComponents, hdot, h]
  | cons first rest => simp [partComponents, List.filterMap_append, h]

theorem partComponents_folder (path : Path) :
    partComponents path.folder = partComponents path.parts := by
  rcases path.parts_eq_folder_or with h | h
  · rw [h]
  · rw [h]
    cases path.folder with
    | nil => rfl
    | cons first rest => simp [partComponents, List.filterMap_append, innerComponent]

theorem filterMap_folder (path : Path) :
    path.folder.filterMap innerComponent = path.parts.filterMap innerComponent := by
  rcases path.parts_eq_folder_or with h | h
  · rw [h]
  · simp [h, List.filterMap_append, innerComponent]

/-- A plain name is one component more. -/
theorem components_join (path : Path) {name : String} (h : IsName name) :
    (path.join name).components = path.components ++ [.name name] := by
  have hinner : innerComponent name = some (.name name) :=
    innerComponent_eq_name_iff.mpr ⟨rfl, h.silent, h.parent⟩
  unfold components
  rw [isAbsolute_join path h.slash, parts_join path h.slash]
  split
  · rw [List.filterMap_append, filterMap_folder, List.filterMap_cons_some hinner,
      List.filterMap_nil, List.cons_append]
  · rw [partComponents_concat _ hinner, partComponents_folder]

/-- The parent does not depend on the name. -/
theorem parent?_join (path : Path) {name : String} (h : IsName name) :
    (path.join name).parent? = some (ofParts path.folder) := by
  have hsilent : isSilent name = false := by
    simpa [isSilent] using h.silent
  unfold parent?
  rw [components_join path h, List.getLast?_concat, parts_join path h.slash,
    dropSilent_concat _ hsilent, List.dropLast_concat]
  cases path.folder <;> rfl

/-! ## How parents are written -/

section

variable {before : List String} {part : String}

theorem exists_toList_intercalate (before : List String) (part : String) :
    ∃ front, ("/".intercalate (before ++ [part])).toList = front ++ part.toList := by
  by_cases hbefore : before = []
  · exact ⟨[], by simp [hbefore]⟩
  · refine ⟨("/".intercalate before ++ "/").toList, ?_⟩
    rw [String.intercalate_append_of_ne_nil hbefore (by simp), String.intercalate_singleton,
      String.toList_append]

variable (slash : ∀ other ∈ before ++ [part], '/' ∉ other.toList) (nonempty : part ≠ "")

include nonempty in
theorem intercalate_ne_empty : "/".intercalate (before ++ [part]) ≠ "" := by
  intro hempty
  obtain ⟨front, htext⟩ := exists_toList_intercalate before part
  rw [hempty] at htext
  exact nonempty (String.toList_eq_nil_iff.mp (List.append_eq_nil_iff.mp htext.symm).2)

include slash nonempty in
/-- A last part that is not empty keeps a slash from being at the end. -/
theorem getLast?_intercalate_ne_slash :
    ("/".intercalate (before ++ [part])).toList.getLast? ≠ some '/' := by
  obtain ⟨front, htext⟩ := exists_toList_intercalate before part
  have hchars : part.toList ≠ [] := fun hnil => nonempty (String.toList_eq_nil_iff.mp hnil)
  rw [htext, List.getLast?_append_of_ne_nil _ hchars]
  intro hlast
  exact slash part (by simp) (List.mem_of_getLast? hlast)

include slash nonempty in
theorem folder_intercalate : (Path.mk ("/".intercalate (before ++ [part]))).folder =
    before ++ [part] := by
  rw [folder, if_neg (intercalate_ne_empty nonempty),
    if_neg (getLast?_intercalate_ne_slash slash nonempty)]
  exact split_intercalate slash (by simp)

end

/-- The ways in which the path of some parts is written: not at all, as the root, or with a last
part that is not empty. -/
theorem ofParts_cases (parts : List String) :
    (parts = [] ∧ ofParts parts = ⟨""⟩) ∨
      (dropSilent parts = [""] ∧ ofParts parts = ⟨"/"⟩) ∨
        ∃ before part, part ≠ "" ∧ dropSilent parts = before ++ [part] ∧
          ofParts parts = ⟨"/".intercalate (before ++ [part])⟩ := by
  cases parts with
  | nil => exact Or.inl ⟨rfl, rfl⟩
  | cons first rest =>
    by_cases hroot : dropSilent (first :: rest) = [""]
    · exact Or.inr (Or.inl ⟨hroot, by simp only [ofParts, hroot, if_true]⟩)
    · have htext : ofParts (first :: rest) = ⟨"/".intercalate (dropSilent (first :: rest))⟩ := by
        simp only [ofParts, if_neg hroot]
      rcases dropSilent_cases (List.cons_ne_nil first rest) with
        ⟨part, h⟩ | ⟨before, part, h, hpart⟩
      · refine Or.inr (Or.inr ⟨[], part, fun hempty => hroot (hempty ▸ h), h, ?_⟩)
        rw [htext, h]
        rfl
      · refine Or.inr (Or.inr ⟨before, part, ?_, h, by rw [htext, h]⟩)
        rintro rfl
        cases hpart

/-- A path that is written from parts has those before a name that is joined to it. -/
theorem folder_ofParts {parts : List String} (slash : ∀ part ∈ parts, '/' ∉ part.toList) :
    (ofParts parts).folder = dropSilent parts := by
  rcases ofParts_cases parts with
    ⟨rfl, htext⟩ | ⟨hkept, htext⟩ | ⟨before, part, nonempty, hkept, htext⟩
  · rw [htext]
    rfl
  · rw [htext, hkept]
    decide
  · have hslash := slash_notMem_dropSilent slash
    rw [hkept] at hslash
    rw [htext, folder_intercalate hslash nonempty, hkept]

theorem ofParts_dropSilent (parts : List String) : ofParts (dropSilent parts) = ofParts parts := by
  cases parts with
  | nil => rfl
  | cons first rest =>
    have hself := dropSilent_dropSilent (first :: rest)
    rw [dropSilent] at hself ⊢
    rw [ofParts, hself, ofParts, dropSilent]

theorem ofParts_folder_ofParts {parts : List String} (slash : ∀ part ∈ parts, '/' ∉ part.toList) :
    ofParts (ofParts parts).folder = ofParts parts := by
  rw [folder_ofParts slash, ofParts_dropSilent]

theorem slash_notMem_parentParts {path : Path} :
    ∀ part ∈ (dropSilent path.parts).dropLast, '/' ∉ part.toList := by
  intro part hpart
  exact slash_notMem_dropSilent (fun _ => slash_notMem_of_mem_parts) part
    (List.dropLast_subset _ hpart)

/-- A parent is the parent of the path that leads from it to a name. -/
theorem parent?_join_parent {path parent : Path} (h : path.parent? = some parent) {name : String}
    (hname : IsName name) : (parent.join name).parent? = some parent := by
  rw [parent?_join parent hname, eq_ofParts_of_parent? h,
    ofParts_folder_ofParts slash_notMem_parentParts]

end Path

namespace FileTree

variable {tree : FileTree} {path parent : Path}

/-- What a path that leads somewhere goes through is a directory. -/
theorem isDirectory_of_parts {location : Location} (h : tree.locate path = .ok location)
    {kept more : List String} (hparts : path.parts = kept ++ more) (hmore : more ≠ [])
    (habsolute : parent.isAbsolute = path.isAbsolute)
    (hfold : ∀ start middle, kept.foldlM tree.follow start = .ok middle →
      parent.parts.foldlM tree.follow start = .ok middle)
    (hempty : parent.text ≠ "") (hshort : parent.text.utf8ByteSize ≤ path.text.utf8ByteSize) :
    tree.isDirectory parent = true := by
  obtain ⟨-, hlong, hway⟩ := locate_eq_ok_iff.mp h
  rw [hparts, List.foldlM_append] at hway
  obtain ⟨middle, hkept, hrest⟩ := bind_eq_ok_iff.mp hway
  have hlocate : tree.locate parent = .ok middle := by
    refine locate_eq_ok_iff.mpr ⟨hempty, Nat.le_trans hshort hlong, ?_⟩
    rw [habsolute]
    exact hfold _ middle hkept
  refine isDirectory_iff.mpr ⟨middle, hlocate, ?_⟩
  obtain ⟨next, rest, rfl⟩ := List.exists_cons_of_ne_nil hmore
  rw [List.foldlM_cons] at hrest
  obtain ⟨_, hnext, -⟩ := bind_eq_ok_iff.mp hrest
  exact (follow_eq_ok_iff.mp hnext).1

/-- Where a path leads somewhere its parent is the empty path or leads to a directory. -/
theorem isDirectory_parent {location : Location} (h : tree.locate path = .ok location)
    (hparent : path.parent? = some parent) : parent.text = "" ∨ tree.isDirectory parent = true := by
  obtain rfl := Path.eq_ofParts_of_parent? hparent
  set within := (Path.dropSilent path.parts).dropLast with hwithin
  -- the parent goes along with the path, but not to its end
  obtain ⟨more, hparts⟩ : Path.dropSilent within <+: path.parts :=
    (Path.dropSilent_prefix_self within).trans
      ((List.dropLast_prefix _).trans (Path.dropSilent_prefix_self path.parts))
  have hmore : more ≠ [] := by
    rintro rfl
    have hlength := congrArg List.length hparts
    have hle := (Path.dropSilent_prefix_self within).length_le
    have hle' := (Path.dropSilent_prefix_self path.parts).length_le
    have hpos := List.length_pos_of_ne_nil (Path.dropSilent_ne_nil path.parts_ne_nil)
    rw [hwithin, List.length_dropLast] at hle
    rw [List.append_nil, hwithin] at hlength
    omega
  have hsize {kept : List String} (hne : kept ≠ []) (hkept : Path.dropSilent within = kept) :
      ("/".intercalate kept).utf8ByteSize + 1 ≤ path.text.utf8ByteSize := by
    rw [path.text_eq_intercalate_parts, ← hparts, hkept,
      String.intercalate_append_of_ne_nil hne hmore, String.utf8ByteSize_append,
      String.utf8ByteSize_append]
    exact Nat.le_add_right _ _
  rcases Path.ofParts_cases within with
    ⟨-, htext⟩ | ⟨hkept, htext⟩ | ⟨before, part, nonempty, hkept, htext⟩
  · exact Or.inl (by rw [htext])
  · refine Or.inr ?_
    rw [htext]
    rw [hkept] at hparts
    have habsolute : path.isAbsolute = true := Path.isAbsolute_iff.mpr ⟨more, hmore, hparts.symm⟩
    refine isDirectory_of_parts h hparts.symm hmore ?_ ?_ (by decide) ?_
    · rw [habsolute]
      rfl
    · intro start middle hmiddle
      have hstay : tree.follow start "" = .ok middle := by
        simpa only [List.foldlM_cons, List.foldlM_nil, bind_pure] using hmiddle
      have hsame : middle = start := (follow_eq_ok_iff.mp hstay).2.2
      rw [hsame] at hstay ⊢
      have hroot : (Path.mk "/").parts = ["", ""] := by decide
      rw [hroot, List.foldlM_cons]
      exact bind_eq_ok_iff.mpr ⟨start, hstay, bind_eq_ok_iff.mpr ⟨start, hstay, rfl⟩⟩
    · exact Nat.le_trans (by decide) (hsize (by simp) hkept)
  · refine Or.inr ?_
    rw [htext]
    have hslash : ∀ other ∈ before ++ [part], '/' ∉ other.toList := by
      rw [← hkept]
      exact Path.slash_notMem_dropSilent Path.slash_notMem_parentParts
    have hself : (Path.mk ("/".intercalate (before ++ [part]))).parts = before ++ [part] :=
      Path.split_intercalate hslash (by simp)
    rw [hkept] at hparts
    refine isDirectory_of_parts h hparts.symm hmore ?_ ?_ ?_ ?_
    · rw [Bool.eq_iff_iff, Path.isAbsolute_iff, Path.isAbsolute_iff, hself, ← hparts]
      constructor
      · rintro ⟨rest, hrest, heq⟩
        exact ⟨rest ++ more, by simp [hmore], by rw [heq, List.cons_append]⟩
      · rintro ⟨rest, -, heq⟩
        cases before with
        | nil => exact absurd (List.cons.inj heq).1 nonempty
        | cons first others =>
          exact ⟨others ++ [part], by simp, by rw [List.cons_append, (List.cons.inj heq).1]⟩
    · intro start middle hmiddle
      rw [hself]
      exact hmiddle
    · exact Path.intercalate_ne_empty nonempty
    · exact Nat.le_of_succ_le (hsize (by simp) hkept)

end FileTree

end Concordance
