import Concordance.Proofs.Xml.Pieces
import Mathlib.Logic.Function.Iterate

/-!
# What comments are made of

A round parts hyphens that meet and may leave others together, since it takes the pairs without
overlap.  It leaves no three together, however, so the second round is the last.  What comes of the
rounds does not depend on how many there are: every round keeps the text with one space between
every two hyphens that meet, and the last round has arrived at it.
-/

namespace Concordance.Xml

/-! ## Hyphens that meet -/

/-- There are pairs where the text holds two hyphens in a row. -/
theorem hyphenPairs_ne_zero_iff {cs : List Char} : hyphenPairs cs ≠ 0 ↔ ['-', '-'] <:+: cs := by
  fun_induction hyphenPairs cs with
  | case1 a b rest ih =>
    have hhead : ['-', '-'] <+: a :: b :: rest ↔ a = '-' ∧ b = '-' := by
      simp [List.cons_prefix_cons, eq_comm]
    rw [List.infix_cons_iff, hhead, ← ih]
    by_cases hpair : a = '-' ∧ b = '-'
    · simp [hpair]
    · simp [hpair]
  | case2 cs hshort =>
    cases cs with
    | nil => simp
    | cons a rest =>
      cases rest with
      | nil => simp [List.infix_cons_iff]
      | cons b rest => exact absurd rfl (hshort a b rest)

theorem hyphenPairs_cons_of_ne {c : Char} (h : c ≠ '-') (cs : List Char) :
    hyphenPairs (c :: cs) = hyphenPairs cs := by
  cases cs with
  | nil => rfl
  | cons d cs => simp [hyphenPairs, h]

theorem hyphenPairs_hyphen_cons {cs : List Char} (h : cs.head? ≠ some '-') :
    hyphenPairs ('-' :: cs) = hyphenPairs cs := by
  cases cs with
  | nil => rfl
  | cons d cs =>
    have hd : d ≠ '-' := by simpa using h
    simp [hyphenPairs, hd]

/-! ## Rounds -/

theorem partPairs_cons_of_ne {c : Char} (h : c ≠ '-') (cs : List Char) :
    partPairs (c :: cs) = c :: partPairs cs := by
  rw [partPairs]
  exact fun _ hc _ => h hc

theorem partPairs_hyphen_cons {cs : List Char} (h : cs.head? ≠ some '-') :
    partPairs ('-' :: cs) = '-' :: partPairs cs := by
  rw [partPairs]
  rintro rest - rfl
  exact h rfl

theorem head?_partPairs (cs : List Char) : (partPairs cs).head? = cs.head? := by
  cases cs with
  | nil => rfl
  | cons c cs =>
    obtain ⟨rest, hrest⟩ := exists_partPairs_cons c cs
    rw [hrest]
    rfl

/-- Two rounds leave no pair, and neither do they where a hyphen comes before the second. -/
theorem hyphenPairs_partPairs_partPairs (cs : List Char) :
    hyphenPairs (partPairs (partPairs cs)) = 0 ∧
      hyphenPairs (partPairs ('-' :: partPairs cs)) = 0 := by
  have hspace : ' ' ≠ '-' := by decide
  fun_induction partPairs cs with
  | case1 rest ih =>
    have hfirst : partPairs ('-' :: ' ' :: '-' :: partPairs rest) =
        '-' :: ' ' :: partPairs ('-' :: partPairs rest) := by
      rw [partPairs_hyphen_cons (by simp), partPairs_cons_of_ne hspace]
    have hsecond : partPairs ('-' :: '-' :: ' ' :: '-' :: partPairs rest) =
        '-' :: ' ' :: '-' :: ' ' :: partPairs ('-' :: partPairs rest) := by
      rw [partPairs, partPairs_cons_of_ne hspace]
    have hnone {rest : List Char} (hrest : hyphenPairs rest = 0) :
        hyphenPairs ('-' :: ' ' :: rest) = 0 := by
      rw [hyphenPairs_hyphen_cons (by simp), hyphenPairs_cons_of_ne hspace, hrest]
    rw [hfirst, hsecond]
    exact ⟨hnone ih.2, hnone (hnone ih.2)⟩
  | case2 d rest hpair ih =>
    by_cases hd : d = '-'
    · subst hd
      -- the rest begins with no hyphen, before the rounds and after them
      have hrest : rest.head? ≠ some '-' := by
        intro hhead
        obtain ⟨tail, htail⟩ := List.head?_eq_some_iff.mp hhead
        exact hpair tail rfl htail
      have hafter : (partPairs (partPairs rest)).head? ≠ some '-' := by
        rwa [head?_partPairs, head?_partPairs]
      refine ⟨ih.2, ?_⟩
      rw [partPairs, hyphenPairs_hyphen_cons (by simp), hyphenPairs_cons_of_ne hspace,
        hyphenPairs_hyphen_cons hafter]
      exact ih.1
    · rw [partPairs_hyphen_cons (by simpa using hd), partPairs_cons_of_ne hd,
        hyphenPairs_hyphen_cons (by simpa using hd), hyphenPairs_cons_of_ne hd]
      exact ⟨ih.1, ih.1⟩
  | case3 => exact ⟨rfl, rfl⟩

/-- So many rounds are made of a text: one as long as it holds two hyphens in a row, each with fewer
pairs left. -/
structure Rounds (cs : List Char) (count : Nat) : Prop where
  goesOn_iff : ∀ k ≤ count, ['-', '-'] <:+: partPairs^[k] cs ↔ k < count
  fewer : ∀ k < count, hyphenPairs (partPairs^[k + 1] cs) < hyphenPairs (partPairs^[k] cs)

theorem exists_rounds (cs : List Char) :
    ∃ count, Rounds cs count ∧ partAllPairs cs = partPairs^[count] cs := by
  fun_induction partAllPairs cs with
  | case1 cs hnone =>
    refine ⟨0, ⟨fun k hk => ?_, fun k hk => absurd hk (Nat.not_lt_zero k)⟩, rfl⟩
    obtain rfl := Nat.le_zero.mp hk
    rw [Function.iterate_zero_apply, ← hyphenPairs_ne_zero_iff]
    simp [hnone]
  | case2 cs hsome ih =>
    obtain ⟨count, hrounds, hparted⟩ := ih
    refine ⟨count + 1, ⟨fun k hk => ?_, fun k hk => ?_⟩, hparted⟩
    · cases k with
      | zero =>
        rw [Function.iterate_zero_apply, ← hyphenPairs_ne_zero_iff]
        simp [hsome]
      | succ k =>
        rw [Function.iterate_succ_apply, hrounds.goesOn_iff k (Nat.le_of_succ_le_succ hk)]
        exact Nat.succ_lt_succ_iff.symm
    · cases k with
      | zero => exact hyphenPairs_partPairs_lt hsome
      | succ k => exact hrounds.fewer k (Nat.lt_of_succ_lt_succ hk)

theorem Rounds.le_two {cs : List Char} {count : Nat} (h : Rounds cs count) : count ≤ 2 := by
  by_contra hmore
  have htwo : 2 < count := Nat.lt_of_not_le hmore
  have hleft := (h.goesOn_iff 2 (Nat.le_of_lt htwo)).mpr htwo
  exact hyphenPairs_ne_zero_iff.mpr hleft (hyphenPairs_partPairs_partPairs cs).1

/-- One round may not be enough. -/
example : partPairs ['-', '-', '-'] = ['-', ' ', '-', '-'] := by decide

/-! ## What the rounds arrive at -/

/-- The text with one space between every two hyphens that meet. -/
def spaced : List Char → List Char
  | a :: b :: rest =>
    if a = '-' ∧ b = '-' then a :: ' ' :: spaced (b :: rest) else a :: spaced (b :: rest)
  | cs => cs

theorem spaced_cons_of_ne {c : Char} (h : c ≠ '-') (cs : List Char) :
    spaced (c :: cs) = c :: spaced cs := by
  cases cs with
  | nil => rfl
  | cons d cs => simp [spaced, h]

theorem spaced_append {front : List Char} (h : '-' ∉ front) (cs : List Char) :
    spaced (front ++ cs) = front ++ spaced cs := by
  induction front with
  | nil => rfl
  | cons c rest ih =>
    obtain ⟨hc, hrest⟩ := List.ne_and_not_mem_of_not_mem_cons h
    rw [List.cons_append, spaced_cons_of_ne (Ne.symm hc), ih hrest, List.cons_append]

theorem spaced_eq_self {cs : List Char} (h : hyphenPairs cs = 0) : spaced cs = cs := by
  fun_induction spaced cs with
  | case1 a b rest hpair ih => simp [hyphenPairs, hpair] at h
  | case2 a b rest hpair ih =>
    rw [ih (by simpa [hyphenPairs, hpair] using h)]
  | case3 => rfl

/-- A round behind a character keeps the text with all its spaces. -/
theorem spaced_cons_partPairs (c : Char) (cs : List Char) :
    spaced (c :: partPairs cs) = spaced (c :: cs) := by
  have hspace : ' ' ≠ '-' := by decide
  fun_induction partPairs cs generalizing c with
  | case1 rest ih =>
    have hparted : spaced ('-' :: ' ' :: '-' :: partPairs rest) = spaced ('-' :: '-' :: rest) := by
      rw [spaced, if_neg (by simp), spaced_cons_of_ne hspace, ih, spaced, if_pos ⟨rfl, rfl⟩]
    rw [spaced, hparted]
    rfl
  | case2 d rest _ ih => rw [spaced, spaced, ih]
  | case3 => rfl

theorem spaced_partPairs (cs : List Char) : spaced (partPairs cs) = spaced cs := by
  have hspace : ' ' ≠ '-' := by decide
  have hbehind := spaced_cons_partPairs ' ' cs
  rw [spaced_cons_of_ne hspace, spaced_cons_of_ne hspace] at hbehind
  exact (List.cons.inj hbehind).2

theorem partAllPairs_eq_spaced (cs : List Char) : partAllPairs cs = spaced cs := by
  fun_induction partAllPairs cs with
  | case1 cs hnone => exact (spaced_eq_self hnone).symm
  | case2 cs _ ih => rw [ih, spaced_partPairs]

theorem getLast?_spaced (cs : List Char) : (spaced cs).getLast? = cs.getLast? := by
  fun_induction spaced cs with
  | case1 a b rest _ ih => simp [List.getLast?_cons, ih]
  | case2 a b rest _ ih => simp [List.getLast?_cons, ih]
  | case3 => rfl

theorem sublist_spaced (cs : List Char) : cs.Sublist (spaced cs) := by
  fun_induction spaced cs with
  | case1 a b rest _ ih => exact (ih.cons ' ').cons_cons a
  | case2 a b rest _ ih => exact ih.cons_cons a
  | case3 cs => exact List.Sublist.refl cs

theorem filter_spaced (cs : List Char) :
    (spaced cs).filter (· ≠ ' ') = cs.filter (· ≠ ' ') := by
  fun_induction spaced cs with
  | case1 a b rest _ ih =>
    rw [List.filter_cons, List.filter_cons_of_neg (by decide), ih, List.filter_cons (x := a)]
  | case2 a b rest _ ih => rw [List.filter_cons, ih, List.filter_cons (x := a)]
  | case3 => rfl

/-! ## Bodies -/

theorem toList_commentBody (text : String) :
    (commentBody text).toList =
      spaced text.toList ++ if text.toList.getLast? = some '-' then [' '] else [] := by
  rw [commentBody, String.toList_ofList, partAllPairs_eq_spaced, getLast?_spaced]
  split
  · rfl
  · rw [List.append_nil]

theorem filter_commentBody (text : String) :
    (commentBody text).toList.filter (· ≠ ' ') = text.toList.filter (· ≠ ' ') := by
  rw [toList_commentBody, List.filter_append, filter_spaced]
  split
  · exact List.append_nil _
  · exact List.append_nil _

/-- Nothing but spaces is put into a text. -/
theorem mem_of_mem_commentBody {text : String} {c : Char} (h : c ∈ (commentBody text).toList) :
    c ∈ text.toList ∨ c = ' ' := by
  by_cases hc : c = ' '
  · exact Or.inr hc
  · have hkept : c ∈ (commentBody text).toList.filter (· ≠ ' ') :=
      List.mem_filter.mpr ⟨h, decide_eq_true hc⟩
    rw [filter_commentBody] at hkept
    exact Or.inl (List.mem_filter.mp hkept).1

/-- Nothing is put into the part of a comment before its first hyphen. -/
theorem commentBody_append {front : String} (h : '-' ∉ front.toList) (text : String) :
    commentBody (front ++ text) = front ++ commentBody text := by
  apply String.toList_injective
  have hlast : (front.toList ++ text.toList).getLast? = some '-' ↔
      text.toList.getLast? = some '-' := by
    rw [List.getLast?_append, Option.or_eq_some_iff]
    refine or_iff_left ?_
    rintro ⟨-, hfront⟩
    exact h (List.mem_of_getLast? hfront)
  rw [toList_commentBody, String.toList_append, String.toList_append, toList_commentBody,
    spaced_append h, List.append_assoc]
  simp only [hlast]

/-- A text without either fault is its own comment, and no other text is. -/
theorem commentBody_eq_self_iff {text : String} :
    commentBody text = text ↔
      ¬['-', '-'] <:+: text.toList ∧ text.toList.getLast? ≠ some '-' := by
  rw [← hyphenPairs_ne_zero_iff, not_not]
  constructor
  · intro h
    rw [← h]
    exact ⟨hyphenPairs_commentBody text, getLast?_commentBody text⟩
  · rintro ⟨hpairs, hlast⟩
    apply String.toList_injective
    rw [toList_commentBody, spaced_eq_self hpairs, if_neg hlast, List.append_nil]

/-- The rounds come to an end, and what comes of a text is the text itself with one space between
every two hyphens that meet and one more behind a hyphen at the end. -/
theorem commentBody_exact (text : String) :
    (∃ count ≤ 2, Rounds text.toList count ∧
        partAllPairs text.toList = partPairs^[count] text.toList) ∧
      (commentBody text).toList =
        spaced text.toList ++ (if text.toList.getLast? = some '-' then [' '] else []) ∧
      ¬['-', '-'] <:+: (commentBody text).toList ∧
      (commentBody text).toList.getLast? ≠ some '-' ∧
      text.toList.Sublist (commentBody text).toList ∧
      (commentBody text).toList.filter (· ≠ ' ') = text.toList.filter (· ≠ ' ') ∧
      (commentBody text = text ↔
        ¬['-', '-'] <:+: text.toList ∧ text.toList.getLast? ≠ some '-') ∧
      commentBody (commentBody text) = commentBody text := by
  obtain ⟨count, hrounds, hparted⟩ := exists_rounds text.toList
  have hpairs : ¬['-', '-'] <:+: (commentBody text).toList := by
    rw [← hyphenPairs_ne_zero_iff, not_not]
    exact hyphenPairs_commentBody text
  have hlast := getLast?_commentBody text
  have hkept : text.toList.Sublist (commentBody text).toList := by
    rw [toList_commentBody]
    exact (sublist_spaced text.toList).trans (List.sublist_append_left _ _)
  exact ⟨⟨count, hrounds.le_two, hrounds, hparted⟩, toList_commentBody text, hpairs, hlast, hkept,
    filter_commentBody text, commentBody_eq_self_iff,
    commentBody_eq_self_iff.mpr ⟨hpairs, hlast⟩⟩

end Concordance.Xml
