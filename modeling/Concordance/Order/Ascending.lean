/-!
# Ascending lists

A set whose members are told apart by a comparison is kept as the list of its members in strictly
ascending order.  Two insertions differ in what happens to a member that compares equal to the new
one: `insertNew` keeps the old member, `insertOver` puts the new one in its place.
-/

namespace Concordance

open Std

variable {α : Type} {cmp : α → α → Ordering}

/-- Inserts `a` at its place unless a member compares equal to it. -/
def insertNew (cmp : α → α → Ordering) (a : α) : List α → List α
  | [] => [a]
  | b :: rest =>
    match cmp a b with
    | .lt => a :: b :: rest
    | .eq => b :: rest
    | .gt => b :: insertNew cmp a rest

/-- Inserts `a` at its place, where it replaces a member that compares equal to it. -/
def insertOver (cmp : α → α → Ordering) (a : α) : List α → List α
  | [] => [a]
  | b :: rest =>
    match cmp a b with
    | .lt => a :: b :: rest
    | .eq => a :: rest
    | .gt => b :: insertOver cmp a rest

theorem mem_of_mem_insertNew {a b : α} {items : List α} (h : b ∈ insertNew cmp a items) :
    b = a ∨ b ∈ items := by
  induction items with
  | nil => simpa [insertNew] using h
  | cons c rest ih =>
    rw [insertNew] at h
    split at h <;> grind

theorem mem_of_mem_insertOver {a b : α} {items : List α} (h : b ∈ insertOver cmp a items) :
    b = a ∨ b ∈ items := by
  induction items with
  | nil => simpa [insertOver] using h
  | cons c rest ih =>
    rw [insertOver] at h
    split at h <;> grind

theorem pairwise_insertNew [TransCmp cmp] (a : α) {items : List α}
    (h : items.Pairwise fun x y => cmp x y = .lt) :
    (insertNew cmp a items).Pairwise fun x y => cmp x y = .lt := by
  induction items with
  | nil => simp [insertNew]
  | cons b rest ih =>
    obtain ⟨hb, hrest⟩ := List.pairwise_cons.1 h
    rw [insertNew]
    split
    next hab =>
      refine List.pairwise_cons.2 ⟨fun c hc => ?_, h⟩
      rcases List.mem_cons.1 hc with rfl | hc
      · exact hab
      · exact TransCmp.lt_trans hab (hb c hc)
    next => exact h
    next hab =>
      refine List.pairwise_cons.2 ⟨fun c hc => ?_, ih hrest⟩
      rcases mem_of_mem_insertNew hc with rfl | hc
      · exact OrientedCmp.gt_iff_lt.1 hab
      · exact hb c hc

theorem pairwise_insertOver [TransCmp cmp] (a : α) {items : List α}
    (h : items.Pairwise fun x y => cmp x y = .lt) :
    (insertOver cmp a items).Pairwise fun x y => cmp x y = .lt := by
  induction items with
  | nil => simp [insertOver]
  | cons b rest ih =>
    obtain ⟨hb, hrest⟩ := List.pairwise_cons.1 h
    rw [insertOver]
    split
    next hab =>
      refine List.pairwise_cons.2 ⟨fun c hc => ?_, h⟩
      rcases List.mem_cons.1 hc with rfl | hc
      · exact hab
      · exact TransCmp.lt_trans hab (hb c hc)
    next hab =>
      exact List.pairwise_cons.2 ⟨fun c hc => TransCmp.lt_of_eq_of_lt hab (hb c hc), hrest⟩
    next hab =>
      refine List.pairwise_cons.2 ⟨fun c hc => ?_, ih hrest⟩
      rcases mem_of_mem_insertOver hc with rfl | hc
      · exact OrientedCmp.gt_iff_lt.1 hab
      · exact hb c hc

/-- A set of `α` as the list of its members, strictly ascending under `cmp`. -/
structure Ascending (cmp : α → α → Ordering) where
  toList : List α
  ascending : toList.Pairwise fun a b => cmp a b = .lt

namespace Ascending

/-- The set without members. -/
def empty : Ascending cmp :=
  ⟨[], .nil⟩

/-- Adds `a` unless a member compares equal to it. -/
def insertNew [TransCmp cmp] (a : α) (set : Ascending cmp) : Ascending cmp :=
  ⟨Concordance.insertNew cmp a set.toList, pairwise_insertNew a set.ascending⟩

/-- Adds `a` in place of a member that compares equal to it. -/
def insertOver [TransCmp cmp] (a : α) (set : Ascending cmp) : Ascending cmp :=
  ⟨Concordance.insertOver cmp a set.toList, pairwise_insertOver a set.ascending⟩

/-- The members with the given property. -/
def filter (keep : α → Bool) (set : Ascending cmp) : Ascending cmp :=
  ⟨set.toList.filter keep, set.ascending.filter keep⟩

/-- The number of members. -/
def size (set : Ascending cmp) : Nat :=
  set.toList.length

@[ext]
theorem ext {s t : Ascending cmp} (h : s.toList = t.toList) : s = t := by
  cases s; cases t; cases h; rfl

end Ascending

end Concordance
