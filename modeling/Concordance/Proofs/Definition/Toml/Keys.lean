import Concordance.Proofs.Definition.Toml.Strings

/-!
# Keys of TOML

How keys are written, and what may stand between the parts of a text.  Reading a key in front of its
equals sign or of the bracket behind it gives its parts.
-/

namespace Concordance.Toml

/-! ## Between the parts -/

/-- White space, line breaks and comments. -/
inductive IsGap : List Char → Prop
  | nil : IsGap []
  | space {c : Char} {gap : List Char} (hc : isSpace c = true) (h : IsGap gap) : IsGap (c :: gap)
  | newline {newline gap : List Char} (hnewline : IsBreak newline) (h : IsGap gap) :
      IsGap (newline ++ gap)
  | comment {cs newline gap : List Char} (hcs : ∀ c ∈ cs, isLineChar c = true)
      (hnewline : IsBreak newline) (h : IsGap gap) : IsGap ('#' :: cs ++ newline ++ gap)

/-- A character that is neither white space nor begins a line break or a comment. -/
def IsFirm (c : Char) : Prop :=
  IsSolid c ∧ c ≠ '#'

instance (c : Char) : Decidable (IsFirm c) :=
  inferInstanceAs (Decidable (_ ∧ _))

section Skipping

variable {c : Char} {gap spaces cs rest : List Char}

theorem skipSpace_append (h : IsSpaces spaces) : skipSpace (spaces ++ rest) = skipSpace rest :=
  List.dropWhile_append_of_pos h

theorem skipSpace_cons (hc : isSpace c = false) : skipSpace (c :: rest) = c :: rest :=
  List.dropWhile_cons_of_neg (by simp [hc])

theorem skipSpace_append_cons (h : IsSpaces spaces) (hc : isSpace c = false) :
    skipSpace (spaces ++ c :: rest) = c :: rest := by
  rw [skipSpace_append h, skipSpace_cons hc]

theorem skipBlank_space (hc : isSpace c = true) : skipBlank (c :: rest) = skipBlank rest := by
  simp only [isSpace, Bool.or_eq_true, beq_iff_eq] at hc
  rcases hc with rfl | rfl
  · rw [skipBlank]
  · rw [skipBlank]

theorem skipBlank_break {newline : List Char} (h : IsBreak newline) :
    skipBlank (newline ++ rest) = skipBlank rest := by
  rcases h with rfl | rfl
  · rw [List.singleton_append, skipBlank]
  · rw [List.cons_append, List.singleton_append, skipBlank]

/-- A comment ends at the line break behind it. -/
theorem dropWhile_comment (hcs : ∀ c ∈ cs, isLineChar c = true) {newline : List Char}
    (h : IsBreak newline) : (cs ++ newline ++ rest).dropWhile isLineChar = newline ++ rest := by
  rw [List.append_assoc, List.dropWhile_append_of_pos hcs]
  rcases h with rfl | rfl
  · rfl
  · rfl

theorem skipBlank_append (h : IsGap gap) : skipBlank (gap ++ rest) = skipBlank rest := by
  induction h with
  | nil => rfl
  | space hc h ih => rw [List.cons_append, skipBlank_space hc, ih]
  | newline hnewline h ih => rw [List.append_assoc, skipBlank_break hnewline, ih]
  | comment hcs hnewline h ih =>
    rw [List.append_assoc, List.cons_append, List.cons_append, skipBlank,
      dropWhile_comment hcs hnewline, skipBlank_break hnewline, ih]

theorem skipBlank_cons (h : IsFirm c) : skipBlank (c :: rest) = c :: rest := by
  obtain ⟨hsolid, hcomment⟩ := h
  rw [skipBlank]
  · exact fun _ heq => hsolid.ne_of_isSpace rfl (List.cons.inj heq).1
  · exact fun _ heq => hsolid.ne_of_isSpace rfl (List.cons.inj heq).1
  · exact fun _ heq => hsolid.2.1 (List.cons.inj heq).1
  · exact fun _ heq => hsolid.2.2 (List.cons.inj heq).1
  · exact fun _ heq => hcomment (List.cons.inj heq).1

theorem skipBlank_append_cons (h : IsGap gap) (hc : IsFirm c) :
    skipBlank (gap ++ c :: rest) = c :: rest := by
  rw [skipBlank_append h, skipBlank_cons hc]

end Skipping

/-! ## Keys -/

/-- How one part of a key is written. -/
inductive WritesKey (key : String) : List Char → Prop
  | bare (hne : key.toList ≠ []) (h : ∀ c ∈ key.toList, isBareChar c = true) :
      WritesKey key key.toList
  | basic {written : List Char} (h : Spelled key.toList written) :
      WritesKey key ('"' :: written ++ ['"'])
  | literal (h : IsLiteral key.toList) : WritesKey key ('\'' :: key.toList ++ ['\''])

/-- How a key is written, with dots between its parts. -/
inductive WritesPath : List String → List Char → Prop
  | last {key : String} {cs : List Char} (h : WritesKey key cs) : WritesPath [key] cs
  | more {key : String} {path : List String} {cs spaces spaces' others : List Char}
      (h : WritesKey key cs) (hspaces : IsSpaces spaces) (hspaces' : IsSpaces spaces')
      (hrest : WritesPath path others) :
      WritesPath (key :: path) (cs ++ spaces ++ '.' :: spaces' ++ others)

theorem WritesKey.keyPart? {key : String} {cs : List Char} (h : WritesKey key cs)
    {rest : List Char} (hrest : ∀ c ∈ rest.head?, isBareChar c = false) :
    keyPart? (cs ++ rest) = some (key, rest) := by
  cases h with
  | bare hne h =>
    obtain ⟨htake, hdrop⟩ := takeWhile_append_of_head? h hrest
    obtain ⟨c, more, hkey⟩ := List.exists_cons_of_ne_nil hne
    have hc : isBareChar c = true := h c (hkey ▸ List.mem_cons_self)
    have hne_quote {quote : Char} (hquote : isBareChar quote = false) (others : List Char) :
        key.toList ++ rest ≠ quote :: others := by
      rw [hkey]
      rintro heq
      rw [(List.cons.inj heq).1, hquote] at hc
      cases hc
    rw [Toml.keyPart?, htake, hdrop]
    · rw [hkey]
      simp only [← hkey, String.ofList_toList]
    · exact hne_quote (by decide)
    · exact hne_quote (by decide)
  | basic h =>
    rw [List.append_assoc, List.cons_append, List.singleton_append, Toml.keyPart?, h.basicBody?,
      Option.map_some, String.ofList_toList]
  | literal h =>
    rw [List.append_assoc, List.cons_append, List.singleton_append, Toml.keyPart?, h.literalBody?,
      Option.map_some, String.ofList_toList]

/-- A key goes on behind a dot only. -/
theorem key?_of_keyPart? {parts : Nat} {key : String} {cs rest : List Char}
    (hkey : keyPart? cs = some (key, rest)) {mark : Char} {more : List Char}
    (hrest : skipSpace rest = mark :: more) (hmark : mark ≠ '.') :
    key? (parts + 1) cs = some ([(key, ⟨cs, rest⟩)], mark :: more) := by
  rw [key?, hkey]
  simp only [bind, Option.bind, hrest]
  split
  next heq => exact absurd (List.cons.inj heq).1 hmark
  next => rfl

theorem key?_of_dot {parts : Nat} {key : String} {cs rest : List Char}
    (hkey : keyPart? cs = some (key, rest)) {more : List Char}
    (hrest : skipSpace rest = '.' :: more) {path : List Key} {behind : List Char}
    (hpath : key? parts (skipSpace more) = some (path, behind)) :
    key? (parts + 1) cs = some ((key, ⟨cs, rest⟩) :: path, behind) := by
  rw [key?, hkey]
  simp only [bind, Option.bind, hrest, hpath]

theorem head?_spaces {spaces : List Char} (h : IsSpaces spaces) {mark : Char}
    (hmark : isBareChar mark = false) (rest : List Char) :
    ∀ c ∈ (spaces ++ mark :: rest).head?, isBareChar c = false := by
  have hspace {c : Char} (hc : isSpace c = true) : isBareChar c = false := by
    simp only [isSpace, Bool.or_eq_true, beq_iff_eq] at hc
    rcases hc with rfl | rfl
    · rfl
    · rfl
  intro c hc
  cases spaces with
  | nil =>
    obtain rfl : mark = c := by simpa using hc
    exact hmark
  | cons first spaces =>
    obtain rfl : first = c := by simpa using hc
    exact hspace (h first List.mem_cons_self)

/-- Whether a character may begin a key. -/
def BeginsKey (c : Char) : Prop :=
  isBareChar c = true ∨ c = '"' ∨ c = '\''

/-- What is not the beginning of a key is not its first character. -/
theorem BeginsKey.ne {c other : Char} (h : BeginsKey c) (hbare : isBareChar other = false)
    (hdouble : other ≠ '"') (hsingle : other ≠ '\'') : c ≠ other := by
  rintro rfl
  rcases h with h | h | h
  · exact absurd h (by simp [hbare])
  · exact hdouble h
  · exact hsingle h

theorem BeginsKey.isSpace {c : Char} (h : BeginsKey c) : isSpace c = false := by
  have hblank : c ≠ ' ' := h.ne (by decide) (by decide) (by decide)
  have htab : c ≠ '\t' := h.ne (by decide) (by decide) (by decide)
  simp [Toml.isSpace, hblank, htab]

theorem BeginsKey.isFirm {c : Char} (h : BeginsKey c) : IsFirm c :=
  ⟨⟨h.isSpace, h.ne (by decide) (by decide) (by decide), h.ne (by decide) (by decide) (by decide)⟩,
    h.ne (by decide) (by decide) (by decide)⟩

theorem WritesKey.exists_cons {key : String} {cs : List Char} (h : WritesKey key cs) :
    ∃ c rest, cs = c :: rest ∧ BeginsKey c := by
  cases h with
  | bare hne h =>
    obtain ⟨c, rest, hkey⟩ := List.exists_cons_of_ne_nil hne
    exact ⟨c, rest, hkey, Or.inl (h c (hkey ▸ List.mem_cons_self))⟩
  | basic => exact ⟨'"', _, rfl, Or.inr (Or.inl rfl)⟩
  | literal => exact ⟨'\'', _, rfl, Or.inr (Or.inr rfl)⟩

theorem WritesPath.exists_cons {path : List String} {cs : List Char} (h : WritesPath path cs) :
    ∃ c rest, cs = c :: rest ∧ BeginsKey c := by
  cases h with
  | last h => exact h.exists_cons
  | more h =>
    obtain ⟨c, rest, rfl, hc⟩ := h.exists_cons
    exact ⟨c, _, rfl, hc⟩

theorem WritesPath.key? {path : List String} {cs : List Char} (h : WritesPath path cs)
    {parts : Nat} (hparts : path.length ≤ parts) {spaces : List Char} (hspaces : IsSpaces spaces)
    {mark : Char} (hmark : mark = '=' ∨ mark = ']') (rest : List Char) :
    ∃ keys, keys.map Prod.fst = path ∧
      key? parts (cs ++ (spaces ++ mark :: rest)) = some (keys, mark :: rest) := by
  have hmark_ends : isBareChar mark = false ∧ isSpace mark = false ∧ mark ≠ '.' := by
    rcases hmark with rfl | rfl
    · decide
    · decide
  obtain ⟨hbare, hspace, hdot⟩ := hmark_ends
  induction h generalizing parts with
  | @last key cs h =>
    obtain ⟨parts, rfl⟩ := Nat.exists_eq_add_of_le' (show 1 ≤ parts from hparts)
    exact ⟨_, rfl, key?_of_keyPart? (h.keyPart? (head?_spaces hspaces hbare rest))
      (skipSpace_append_cons hspaces hspace) hdot⟩
  | @more key path cs gap gap' others h hgap hgap' hrest ih =>
    obtain ⟨parts, rfl⟩ := Nat.exists_eq_add_of_le' (Nat.le_trans (Nat.le_add_left 1 _) hparts)
    obtain ⟨keys, hnames, hkeys⟩ := ih (Nat.le_of_succ_le_succ hparts)
    obtain ⟨c, behind, rfl, hc⟩ := hrest.exists_cons
    have hkey := h.keyPart? (head?_spaces hgap (show isBareChar '.' = false by decide)
      (gap' ++ (c :: behind ++ (spaces ++ mark :: rest))))
    have hskip : skipSpace (gap ++ '.' :: (gap' ++ (c :: behind ++ (spaces ++ mark :: rest)))) =
        '.' :: (gap' ++ (c :: behind ++ (spaces ++ mark :: rest))) :=
      skipSpace_append_cons hgap (by decide)
    have hbehind : skipSpace (gap' ++ (c :: behind ++ (spaces ++ mark :: rest))) =
        c :: behind ++ (spaces ++ mark :: rest) :=
      skipSpace_append_cons hgap' hc.isSpace
    have hfull := key?_of_dot hkey hskip (hbehind.symm ▸ hkeys)
    simp only [List.append_assoc, List.cons_append] at hfull ⊢
    exact ⟨_, by rw [List.map_cons, hnames], hfull⟩

/-- How a key is written with the equals sign behind it. -/
inductive WritesBefore (path : List String) : List Char → Prop
  | equals {cs spaces spaces' : List Char} (h : WritesPath path cs)
      (hparts : path.length ≤ depthLimit) (hspaces : IsSpaces spaces)
      (hspaces' : IsSpaces spaces') : WritesBefore path (cs ++ spaces ++ '=' :: spaces')

theorem WritesBefore.exists_cons {path : List String} {cs : List Char}
    (h : WritesBefore path cs) : ∃ c rest, cs = c :: rest ∧ BeginsKey c := by
  obtain ⟨h⟩ := h
  obtain ⟨c, rest, rfl, hc⟩ := h.exists_cons
  exact ⟨c, _, rfl, hc⟩

theorem WritesBefore.keyBefore? {path : List String} {cs : List Char}
    (h : WritesBefore path cs) {c : Char} (hc : isSpace c = false) (rest : List Char) :
    ∃ keys, keys.map Prod.fst = path ∧ keyBefore? (cs ++ c :: rest) = some (keys, c :: rest) := by
  obtain @⟨cs, spaces, spaces', h, hparts, hspaces, hspaces'⟩ := h
  obtain ⟨keys, hnames, hkeys⟩ := h.key? hparts hspaces (Or.inl rfl) (spaces' ++ c :: rest)
  refine ⟨keys, hnames, ?_⟩
  simp only [List.append_assoc, List.cons_append]
  rw [Toml.keyBefore?, hkeys]
  simp only [bind, Option.bind, skipSpace_append_cons hspaces' hc]

end Concordance.Toml
