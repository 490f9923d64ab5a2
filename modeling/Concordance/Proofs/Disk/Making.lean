import Concordance.Proofs.Disk.Ledger
import Concordance.Proofs.Disk.Parent

/-!
# Making directories again

Directories are made from a path upwards as far as they are missing.  Once that succeeded nothing is
missing, so doing it again succeeds and changes nothing.  Where it fails some directories further up
may have been made on the way; doing it again fails again and makes no more of them.
-/

namespace Concordance

namespace FileTree

variable {tree after : FileTree} {path : Path}

/-- A path to a directory that need not be made. -/
def IsMade (tree : FileTree) (path : Path) : Prop :=
  path.text = "" ∨ tree.isDirectory path = true

/-- A path without slashes at the end, other than that of the root. -/
def IsTrimmed (path : Path) : Prop :=
  path.text = "/" ∨ withoutSlashes path = path

theorem isTrimmed_of_getLast? (h : path.text.toList.getLast? ≠ some '/') : IsTrimmed path := by
  refine Or.inr ?_
  have hkept : path.text.toList.reverse.dropWhile (· == '/') = path.text.toList.reverse := by
    cases hchars : path.text.toList.reverse with
    | nil => rfl
    | cons c cs =>
      have hc : c ≠ '/' := by
        rintro rfl
        rw [List.getLast?_eq_head?_reverse, hchars] at h
        exact h rfl
      rw [List.dropWhile_cons_of_neg (by simpa using hc)]
  rw [withoutSlashes, hkept, List.reverse_reverse, String.ofList_toList]

theorem isTrimmed_parent {parent : Path} (h : path.parent? = some parent) : IsTrimmed parent := by
  obtain rfl := Path.eq_ofParts_of_parent? h
  set within := (Path.dropSilent path.parts).dropLast
  rcases Path.ofParts_cases within with
    ⟨-, htext⟩ | ⟨-, htext⟩ | ⟨before, part, nonempty, hkept, htext⟩
  · rw [htext]
    exact isTrimmed_of_getLast? (by decide)
  · rw [htext]
    exact Or.inl rfl
  · have hslash : ∀ other ∈ before ++ [part], '/' ∉ other.toList := by
      rw [← hkept]
      exact fun other hother => Path.slash_notMem_parentParts other
        ((Path.dropSilent_prefix_self within).subset hother)
    rw [htext]
    exact isTrimmed_of_getLast? (Path.getLast?_intercalate_ne_slash hslash nonempty)

theorem locate_of_isTrimmed (htrimmed : IsTrimmed path) {location : Location}
    (h : tree.locate (withoutSlashes path) = .ok location) : tree.locate path = .ok location := by
  obtain hroot | hsame := htrimmed
  · -- without its slash nothing is left of the root, which leads nowhere
    have hempty : withoutSlashes path = ⟨""⟩ := by
      rw [withoutSlashes, hroot]
      decide
    rw [hempty] at h
    exact absurd rfl (locate_eq_ok_iff.mp h).1
  · rwa [hsame] at h

theorem isMade_of_makeDirectory (h : tree.makeDirectory path = .ok after)
    (htrimmed : IsTrimmed path) :
    after.IsMade path ∧ ∀ parent, path.parent? = some parent → tree.IsMade parent := by
  obtain ⟨location, htrim, -, hhere, hset⟩ := occupant?_makeDirectory h
  have hlocate := locate_of_isTrimmed htrimmed htrim
  have hlater : after.locate path = .ok location := (rewritten_makeDirectory h).locate hlocate
  have hoccupant : after.occupant? location = some .directory := by
    rw [hset, if_pos rfl]
  exact ⟨Or.inr (isDirectory_iff.mpr ⟨location, hlater, hoccupant⟩),
    fun parent hparent => isDirectory_parent hlocate hparent⟩

end FileTree

open FileTree

/-- Paths of which each is the parent of the one before, without slashes at their ends. -/
structure Lineage (paths : List Path) : Prop where
  parents : paths.IsChain fun path parent => path.parent? = some parent
  trimmed : ∀ path ∈ paths, IsTrimmed path

theorem Path.lineage_ancestors {path : Path} (h : IsTrimmed path) : Lineage path.ancestors := by
  have hparents (count : Nat) (path : Path) :
      (path :: parents count path).IsChain (fun path parent => path.parent? = some parent) ∧
        ∀ other ∈ parents count path, IsTrimmed other := by
    induction count generalizing path with
    | zero => exact ⟨.singleton path, by simp [parents]⟩
    | succ count ih =>
      rw [parents]
      cases hparent : path.parent? with
      | none => exact ⟨.singleton path, by simp⟩
      | some parent =>
        obtain ⟨hchain, htrimmed⟩ := ih parent
        refine ⟨.cons_cons hparent hchain, ?_⟩
        intro other hother
        rcases List.mem_cons.mp hother with rfl | hother
        · exact isTrimmed_parent hparent
        · exact htrimmed other hother
  obtain ⟨hchain, htrimmed⟩ := hparents path.parts.length path
  exact ⟨hchain, List.forall_mem_cons.mpr ⟨h, htrimmed⟩⟩

section Runs

variable {tree after : FileTree} {path : Path} {above : List Path} {error : IoError}

/-- What making directories comes to in a tree. -/
def making (paths : List Path) (tree : FileTree) : Except IoError Unit × FileTree :=
  (makeDirectoryAlong paths : StateM FileTree _).run tree

theorem makeDirectory_apply_of_ok (h : tree.makeDirectory path = .ok after) :
    (Host.makeDirectory path : StateM FileTree _) tree = (.ok (), after) := by
  change attempt (·.makeDirectory path) tree = _
  rw [attempt, h]

theorem makeDirectory_apply_of_error (h : tree.makeDirectory path = .error error) :
    (Host.makeDirectory path : StateM FileTree _) tree = (.error error, tree) := by
  change attempt (·.makeDirectory path) tree = _
  rw [attempt, h]

theorem making_of_empty (h : path.text = "") : making (path :: above) tree = (.ok (), tree) := by
  rw [making, makeDirectoryAlong, if_pos h]
  rfl

section Steps

variable (hpath : path.text ≠ "")

include hpath

theorem making_of_ok (h : tree.makeDirectory path = .ok after) :
    making (path :: above) tree = (.ok (), after) := by
  rw [making, makeDirectoryAlong, if_neg hpath]
  exact bind_apply_eq (makeDirectory_apply_of_ok h)

/-- Any failure but that something is missing further up is final. -/
theorem making_of_error (h : tree.makeDirectory path = .error error) (hne : error ≠ .notFound) :
    making (path :: above) tree =
      (if tree.isDirectory path then .ok () else .error error, tree) := by
  rw [making, makeDirectoryAlong, if_neg hpath]
  refine (bind_apply_eq (makeDirectory_apply_of_error h)).trans ?_
  cases error with
  | notFound => exact absurd rfl hne
  | _ => rfl

theorem making_of_notFound (h : tree.makeDirectory path = .error .notFound)
    (habove : making above tree = (.error error, after)) :
    making (path :: above) tree = (.error error, after) := by
  rw [making, makeDirectoryAlong, if_neg hpath]
  refine (bind_apply_eq (makeDirectory_apply_of_error h)).trans ?_
  exact bind_apply_eq habove

theorem making_of_notFound_ok (h : tree.makeDirectory path = .error .notFound)
    (habove : making above tree = (.ok (), after)) {made : FileTree}
    (hmade : after.makeDirectory path = .ok made) :
    making (path :: above) tree = (.ok (), made) := by
  rw [making, makeDirectoryAlong, if_neg hpath]
  refine (bind_apply_eq (makeDirectory_apply_of_error h)).trans ?_
  refine (bind_apply_eq habove).trans ?_
  exact bind_apply_eq (makeDirectory_apply_of_ok hmade)

theorem making_of_notFound_error (h : tree.makeDirectory path = .error .notFound)
    (habove : making above tree = (.ok (), after))
    (herror : after.makeDirectory path = .error error) :
    making (path :: above) tree =
      (if after.isDirectory path then .ok () else .error error, after) := by
  rw [making, makeDirectoryAlong, if_neg hpath]
  refine (bind_apply_eq (makeDirectory_apply_of_error h)).trans ?_
  refine (bind_apply_eq habove).trans ?_
  exact bind_apply_eq (makeDirectory_apply_of_error herror)

/-- How making directories ends for the first of them.  The last attempt at it is in the tree as it
was, or in the one with the directories above it made; or these could not be made. -/
inductive Makes (path : Path) (above : List Path) (tree : FileTree) :
    Except IoError Unit × FileTree → Prop
  | made {middle after : FileTree}
      (hbefore : middle = tree ∨ making above tree = (.ok (), middle))
      (hmade : middle.makeDirectory path = .ok after) : Makes path above tree (.ok (), after)
  | refused {middle : FileTree} {error : IoError}
      (hbefore : (middle = tree ∧ error ≠ .notFound) ∨ making above tree = (.ok (), middle))
      (herror : middle.makeDirectory path = .error error) :
      Makes path above tree
        (if middle.isDirectory path then .ok () else .error error, middle)
  | missing {middle : FileTree} {error : IoError}
      (habove : making above tree = (.error error, middle)) :
      Makes path above tree (.error error, middle)

theorem makes_making (tree : FileTree) (above : List Path) :
    Makes path above tree (making (path :: above) tree) := by
  cases hfirst : tree.makeDirectory path with
  | ok made =>
    rw [making_of_ok hpath hfirst]
    exact .made (Or.inl rfl) hfirst
  | error first =>
    by_cases hmissing : first = .notFound
    · subst hmissing
      rcases habove : making above tree with ⟨result, middle⟩
      cases result with
      | error error =>
        rw [making_of_notFound hpath hfirst habove]
        exact .missing habove
      | ok made =>
        cases hsecond : middle.makeDirectory path with
        | ok made =>
          rw [making_of_notFound_ok hpath hfirst habove hsecond]
          exact .made (Or.inr habove) hsecond
        | error error =>
          rw [making_of_notFound_error hpath hfirst habove hsecond]
          exact .refused (Or.inr habove) hsecond
    · rw [making_of_error hpath hfirst hmissing]
      exact .refused (Or.inl ⟨rfl, hmissing⟩) hfirst

end Steps

/-- What is there already is left alone. -/
theorem making_of_isMade (h : tree.IsMade path) : making (path :: above) tree = (.ok (), tree) := by
  by_cases hempty : path.text = ""
  · exact making_of_empty hempty
  · have hdirectory := h.resolve_left hempty
    have hthere : tree.makeDirectory path = .error .alreadyExists := by
      rw [makeDirectory, if_pos hdirectory]
    rw [making_of_error hempty hthere (by decide), if_pos hdirectory]

/-- Once directories were made there are no more to make. -/
theorem isMade_of_making (hlineage : Lineage (path :: above))
    (h : making (path :: above) tree = (.ok (), after)) : after.IsMade path := by
  have htrimmed := hlineage.trimmed path List.mem_cons_self
  by_cases hempty : path.text = ""
  · exact Or.inl hempty
  have hmakes := makes_making hempty tree above
  generalize making (path :: above) tree = ending at hmakes h
  cases hmakes with
  | made hbefore hmade =>
    obtain ⟨-, rfl⟩ := Prod.mk.inj h
    exact (isMade_of_makeDirectory hmade htrimmed).1
  | refused hbefore herror =>
    split at h
    next hdirectory =>
      obtain ⟨-, rfl⟩ := Prod.mk.inj h
      exact Or.inr hdirectory
    next => cases h
  | missing habove => cases h

theorem Lineage.tail (h : Lineage (path :: above)) : Lineage above :=
  ⟨h.parents.of_cons, fun other hother => h.trimmed other (List.mem_cons_of_mem path hother)⟩

/-- A path whose parent could not be made cannot be made either. -/
theorem Lineage.not_made {parent : Path} {rest : List Path}
    (hlineage : Lineage (path :: parent :: rest)) (hparent : ¬tree.IsMade parent) :
    (∀ made, tree.makeDirectory path ≠ .ok made) ∧ tree.isDirectory path = false := by
  have hstep : path.parent? = some parent := (List.isChain_cons_cons.mp hlineage.parents).1
  constructor
  · intro made hmade
    have htrimmed := hlineage.trimmed path List.mem_cons_self
    exact hparent ((isMade_of_makeDirectory hmade htrimmed).2 parent hstep)
  · rw [Bool.eq_false_iff]
    intro hdirectory
    obtain ⟨location, hlocate, -⟩ := isDirectory_iff.mp hdirectory
    exact hparent (isDirectory_parent hlocate hstep)

/-- Where making directories failed the first of them is missing, and doing it again fails and
changes nothing. -/
theorem making_again {paths : List Path} (hlineage : Lineage paths)
    (h : making paths tree = (.error error, after)) :
    (∀ path ∈ paths.head?, ¬after.IsMade path) ∧
      ∃ error, making paths after = (.error error, after) := by
  induction paths generalizing error tree with
  | nil => cases h
  | cons path above ih =>
    have hempty : path.text ≠ "" := by
      intro hempty
      rw [making_of_empty hempty] at h
      cases h
    -- it is enough that the path is no directory afterwards and still fails to be made
    suffices hfails : after.isDirectory path = false ∧
        ∃ error, making (path :: above) after = (.error error, after) by
      refine ⟨?_, hfails.2⟩
      rintro _ ⟨⟩ (hmade | hmade)
      · exact hempty hmade
      · rw [hfails.1] at hmade
        cases hmade
    have hmakes := makes_making hempty tree above
    generalize making (path :: above) tree = ending at hmakes h
    cases hmakes with
    | made hbefore hmade => cases h
    | @refused middle refusal hbefore herror =>
      split at h
      next => cases h
      next hdirectory =>
        obtain ⟨-, rfl⟩ := Prod.mk.inj h
        have hdirectory := Bool.eq_false_iff.mpr hdirectory
        refine ⟨hdirectory, refusal, ?_⟩
        by_cases hmissing : refusal = .notFound
        · subst hmissing
          have habove : making above tree = (.ok (), middle) :=
            hbefore.resolve_left fun hfirst => hfirst.2 rfl
          have hagain : making above middle = (.ok (), middle) := by
            cases above with
            | nil => rfl
            | cons parent rest => exact making_of_isMade (isMade_of_making hlineage.tail habove)
          simp [making_of_notFound_error hempty herror hagain herror, hdirectory]
        · simp [making_of_error hempty herror hmissing, hdirectory]
    | @missing middle refusal habove =>
      obtain ⟨-, rfl⟩ := Prod.mk.inj h
      obtain ⟨hhead, again, hagain⟩ := ih hlineage.tail habove
      cases above with
      | nil => cases habove
      | cons parent rest =>
        obtain ⟨hnever, hdirectory⟩ := hlineage.not_made (hhead parent rfl)
        refine ⟨hdirectory, ?_⟩
        cases hsecond : middle.makeDirectory path with
        | ok made => exact absurd hsecond (hnever made)
        | error second =>
          by_cases hmissing : second = .notFound
          · subst hmissing
            exact ⟨again, making_of_notFound hempty hsecond hagain⟩
          · exact ⟨second, by simp [making_of_error hempty hsecond hmissing, hdirectory]⟩

end Runs

section Directories

variable {tree after : FileTree} {path : Path} {error : IoError}

theorem makeDirectories_of_isMade (h : tree.IsMade path) :
    (makeDirectories path : StateM FileTree _).run tree = (.ok (), tree) :=
  making_of_isMade h

theorem isMade_of_makeDirectories (htrimmed : IsTrimmed path)
    (h : (makeDirectories path : StateM FileTree _).run tree = (.ok (), after)) :
    after.IsMade path :=
  isMade_of_making (Path.lineage_ancestors htrimmed) h

theorem makeDirectories_again (htrimmed : IsTrimmed path)
    (h : (makeDirectories path : StateM FileTree _).run tree = (.error error, after)) :
    ∃ error, (makeDirectories path : StateM FileTree _).run after = (.error error, after) :=
  (making_again (Path.lineage_ancestors htrimmed) h).2

theorem rewritten_makeDirectories {result : Except IoError Unit}
    (h : (makeDirectories path : StateM FileTree _).run tree = (result, after)) :
    tree.Rewritten [] after := by
  obtain ⟨result', entries, after', hrun, -, hrewritten, rfl⟩ := makeDirectories_tracks path tree []
  obtain ⟨-, rfl⟩ := Prod.mk.inj (hrun.symm.trans h)
  exact hrewritten

end Directories

end Concordance
