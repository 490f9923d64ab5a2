import Concordance.Order.Ascending

/-!
# Looking up members of ascending sets

A key is a property that selects one class of members comparing equal, so that a strictly ascending
list has at most one member with it.  Both insertions are described by what is found under a key
afterwards.  An ascending set is determined by its members, whatever order they came in.
-/

namespace Concordance

open Std

variable {α : Type} {cmp : α → α → Ordering} {p : α → Bool}

/-- The members with the property `p` are those that compare equal to any one of them. -/
def IsKey (cmp : α → α → Ordering) (p : α → Bool) : Prop :=
  ∀ a b, p a = true → (p b = true ↔ cmp a b = .eq)

theorem find?_insertOver [TransCmp cmp]
    (hp : IsKey cmp p) (a : α) (items : List α) :
    (insertOver cmp a items).find? p = if p a then some a else items.find? p := by
  induction items with
  | nil => by_cases ha : p a = true <;> simp [insertOver, ha]
  | cons b rest ih =>
    rw [insertOver]
    by_cases ha : p a = true
    · split
      next => simp [ha]
      next => simp [ha]
      next hab =>
        have hb : ¬ p b = true := by
          intro hb
          simp [(hp a b ha).1 hb] at hab
        simp [hb, ih, ha]
    · split
      next => simp [ha]
      next hab =>
        -- `b` compares equal to `a`, which does not have the key
        have hb : ¬ p b = true := by
          intro hb
          exact ha ((hp b a hb).2 (OrientedCmp.eq_symm hab))
        simp [ha, hb]
      next => simp [List.find?_cons, ha, ih]

theorem find?_insertNew [TransCmp cmp]
    (hp : IsKey cmp p) (a : α) {items : List α}
    (hitems : items.Pairwise fun x y => cmp x y = .lt) :
    (insertNew cmp a items).find? p =
      (items.find? p).or (if p a then some a else none) := by
  induction items with
  | nil => by_cases ha : p a = true <;> simp [insertNew, ha]
  | cons b rest ih =>
    obtain ⟨hb, hrest⟩ := List.pairwise_cons.1 hitems
    rw [insertNew]
    by_cases ha : p a = true
    · split
      next hab =>
        -- everything in the list lies above `a`, so nothing in it has the key
        have hnone : (b :: rest).find? p = none := by
          refine List.find?_eq_none.2 fun c hc hpc => ?_
          have hlt : cmp a c = .lt := by
            rcases List.mem_cons.1 hc with rfl | hc
            · exact hab
            · exact TransCmp.lt_trans hab (hb c hc)
          rw [(hp a c ha).1 hpc] at hlt
          contradiction
        rw [hnone]
        simp [ha]
      next hab =>
        simp [(hp a b ha).2 hab]
      next hab =>
        have hpb : ¬ p b = true := by
          intro hpb
          simp [(hp a b ha).1 hpb] at hab
        simp [hpb, ih hrest, ha]
    · split
      next => simp [ha]
      next => simp [ha]
      next => simp [List.find?_cons, ha, ih hrest]

/-- A new member that compares equal to none is put beside the others. -/
theorem mem_insertNew_iff {a b : α} {items : List α} (hnew : ∀ c ∈ items, cmp a c ≠ .eq) :
    b ∈ insertNew cmp a items ↔ b = a ∨ b ∈ items := by
  induction items with
  | nil => simp [insertNew]
  | cons c rest ih =>
    obtain ⟨hc, hrest⟩ := List.forall_mem_cons.1 hnew
    rw [insertNew]
    split
    next => exact List.mem_cons
    next heq => exact absurd heq hc
    next => rw [List.mem_cons, ih hrest, List.mem_cons, or_left_comm]

/-- A new member is put beside the others if none but itself compares equal to it. -/
theorem mem_insertOver_iff {a b : α} {items : List α} (hsame : ∀ c ∈ items, cmp a c = .eq → c = a) :
    b ∈ insertOver cmp a items ↔ b = a ∨ b ∈ items := by
  induction items with
  | nil => simp [insertOver]
  | cons c rest ih =>
    obtain ⟨hc, hrest⟩ := List.forall_mem_cons.1 hsame
    rw [insertOver]
    split
    next => exact List.mem_cons
    next heq =>
      rw [hc heq, List.mem_cons]
      exact (or_iff_right_of_imp Or.inl).symm
    next => rw [List.mem_cons, ih hrest, List.mem_cons, or_left_comm]

/-- In a strictly ascending list a member is found under every key that it has. -/
theorem find?_eq_some_iff_mem [TransCmp cmp]
    (hp : IsKey cmp p) {items : List α}
    (hitems : items.Pairwise fun x y => cmp x y = .lt) {a : α} :
    items.find? p = some a ↔ a ∈ items ∧ p a = true := by
  constructor
  · intro h
    exact ⟨List.mem_of_find?_eq_some h, List.find?_some h⟩
  · rintro ⟨hmem, hpa⟩
    induction items with
    | nil => simp at hmem
    | cons b rest ih =>
      obtain ⟨hb, hrest⟩ := List.pairwise_cons.1 hitems
      rcases List.mem_cons.1 hmem with rfl | hmem
      · simp [hpa]
      · have hpb : ¬ p b = true := by
          intro hpb
          have := hb a hmem
          rw [(hp b a hpb).1 hpa] at this
          contradiction
        simp [hpb, ih hrest hmem]

/-- After insertions there is found under a key what was there before, or else the first of the
inserted members with the key. -/
theorem find?_foldl_insertNew [TransCmp cmp] (hp : IsKey cmp p) (items : List α)
    (set : Ascending cmp) :
    (items.foldl (fun set a => set.insertNew a) set).toList.find? p =
      (set.toList.find? p).or (items.find? p) := by
  induction items generalizing set with
  | nil => simp
  | cons a rest ih =>
    have hfirst : (set.insertNew a).toList.find? p =
        (set.toList.find? p).or (if p a then some a else none) :=
      find?_insertNew hp a set.ascending
    rw [List.foldl_cons, ih, hfirst, Option.or_assoc, List.find?_cons]
    cases p a <;> rfl

/-- There is one listing of members of which different ones do not compare equal. -/
theorem eq_of_perm_of_pairwise_isLE [OrientedCmp cmp] {as bs : List α} (hperm : as.Perm bs)
    (has : as.Pairwise fun a b => (cmp a b).isLE = true)
    (hbs : bs.Pairwise fun a b => (cmp a b).isLE = true)
    (heq : ∀ a ∈ as, ∀ b ∈ as, cmp a b = .eq → a = b) : as = bs := by
  refine hperm.eq_of_pairwise ?_ has hbs
  intro a b ha hb hab hba
  exact heq a ha b (hperm.mem_iff.2 hb) (OrientedCmp.isLE_antisymm hab hba)

namespace Ascending

/-- Members that are ordered by their keys have different ones. -/
theorem pairwise_ne {β : Type} [Ord β] [ReflCmp (compare : β → β → Ordering)] {f : α → β}
    (set : Ascending (compareOn f)) : set.toList.Pairwise fun a b => f a ≠ f b := by
  refine set.ascending.imp fun {a b} hlt heq => ?_
  have hself : compare (f b) (f b) = .eq := ReflCmp.compare_self
  rw [compareOn, heq, hself] at hlt
  cases hlt

/-- A member is put beside the others if it is the only one with its key. -/
theorem mem_insertOver_iff {β : Type} [Ord β] [LawfulEqCmp (compare : β → β → Ordering)]
    {f : α → β} [TransCmp (compareOn f)] {set : Ascending (compareOn f)} {a b : α}
    (hsame : ∀ c ∈ set.toList, f c = f a → c = a) :
    b ∈ (set.insertOver a).toList ↔ b = a ∨ b ∈ set.toList := by
  apply Concordance.mem_insertOver_iff
  intro c hc heq
  rw [compareOn, LawfulEqCmp.compare_eq_iff_eq] at heq
  exact hsame c hc heq.symm

theorem nodup [TransCmp cmp] (set : Ascending cmp) : set.toList.Nodup := by
  refine set.ascending.imp fun {a b} hlt heq => ?_
  have hself : cmp b b = .eq := ReflCmp.compare_self
  rw [heq, hself] at hlt
  cases hlt

theorem eq_of_mem_iff [TransCmp cmp] {s t : Ascending cmp}
    (h : ∀ a, a ∈ s.toList ↔ a ∈ t.toList) : s = t := by
  have hperm : s.toList.Perm t.toList := (List.perm_ext_iff_of_nodup s.nodup t.nodup).2 h
  refine Ascending.ext (hperm.eq_of_pairwise ?_ s.ascending t.ascending)
  intro a b _ _ hab hba
  rw [OrientedCmp.gt_iff_lt.2 hab] at hba
  cases hba

end Ascending

end Concordance
