/-!
# Comments

A comment may not hold two hyphens in a row, nor end in one.  A text is made fit by putting a space
between the hyphens of each pair until no pair is left, and one more after a hyphen at the end.
One round takes the pairs from the left without overlap, so a longer run of hyphens needs several
rounds; each round leaves fewer pairs than it found.
-/

namespace Concordance.Xml

/-- The number of places where two hyphens meet. -/
def hyphenPairs : List Char → Nat
  | a :: b :: rest => (if a = '-' ∧ b = '-' then 1 else 0) + hyphenPairs (b :: rest)
  | _ => 0

/-- Puts a space into each pair of hyphens, taken from the left without overlap. -/
def partPairs : List Char → List Char
  | '-' :: '-' :: rest => '-' :: ' ' :: '-' :: partPairs rest
  | c :: rest => c :: partPairs rest
  | [] => []

theorem hyphenPairs_cons_partPairs_le (c : Char) (cs : List Char) :
    hyphenPairs (c :: partPairs cs) ≤ hyphenPairs (c :: cs) := by
  fun_induction partPairs cs generalizing c with
  | case1 rest ih =>
    have := ih '-'
    simp only [hyphenPairs]
    grind
  | case2 d rest hd ih =>
    have := ih d
    simp only [hyphenPairs]
    grind
  | case3 => simp

theorem exists_partPairs_cons (c : Char) (cs : List Char) :
    ∃ rest, partPairs (c :: cs) = c :: rest := by
  unfold partPairs
  split <;> simp_all

/-- A round leaves fewer pairs, if there are any. -/
theorem hyphenPairs_partPairs_lt {cs : List Char} (h : hyphenPairs cs ≠ 0) :
    hyphenPairs (partPairs cs) < hyphenPairs cs := by
  fun_induction partPairs cs with
  | case1 rest ih =>
    have := hyphenPairs_cons_partPairs_le '-' rest
    simp only [hyphenPairs]
    grind
  | case2 d rest hd ih =>
    cases rest with
    | nil => simp [hyphenPairs] at h
    | cons e rest =>
      have hde : ¬(d = '-' ∧ e = '-') := by
        rintro ⟨rfl, rfl⟩
        exact hd rest rfl rfl
      have h' : hyphenPairs (e :: rest) ≠ 0 := by
        simpa [hyphenPairs, hde] using h
      obtain ⟨t, ht⟩ := exists_partPairs_cons e rest
      have := ih h'
      rw [ht] at this ⊢
      simpa [hyphenPairs, hde] using this
  | case3 => simp [hyphenPairs] at h

/-- Puts spaces into pairs of hyphens round by round until no pair is left. -/
def partAllPairs (cs : List Char) : List Char :=
  if hyphenPairs cs = 0 then cs else partAllPairs (partPairs cs)
termination_by hyphenPairs cs
decreasing_by exact hyphenPairs_partPairs_lt ‹_›

/-- The text as it may stand in a comment. -/
def commentBody (text : String) : String :=
  let parted := partAllPairs text.toList
  String.ofList (if parted.getLast? = some '-' then parted ++ [' '] else parted)

end Concordance.Xml
