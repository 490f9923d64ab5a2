import Concordance.Name.Element
import Concordance.Proofs.Xml.Pieces

/-!
# Tokens of path expressions

Path expressions are cut into names, numbers and marks.  A name runs on as long as it can, and two
names with a colon between them are one name with a prefix.  White space only parts tokens.
-/

namespace Concordance.Xpath

inductive Token where
  | name (label : Option String) (localName : String)
  | number (digits : String)
  | mark (c : Char)
  deriving DecidableEq

def marks : List Char :=
  ['.', '/', '@', '[', ']', '(', ')', '=', '>', '$']

/-- The token at the beginning, with what follows it. -/
def token? : List Char → Option (Token × List Char)
  | [] => none
  | c :: rest =>
    if isNameStart c then
      let first := String.ofList (c :: rest.takeWhile isNamePart)
      match rest.dropWhile isNamePart with
      | ':' :: d :: after =>
        if isNameStart d then
          some (.name (some first) (String.ofList (d :: after.takeWhile isNamePart)),
            after.dropWhile isNamePart)
        else none
      | after => some (.name none first, after)
    else if c.isDigit then
      some (.number (String.ofList (c :: rest.takeWhile Char.isDigit)),
        rest.dropWhile Char.isDigit)
    else if c ∈ marks then some (.mark c, rest)
    else none

/-- The tokens of an expression.  Every token takes something away from it. -/
def tokens? : List Char → Option (List Token)
  | [] => some []
  | c :: rest =>
    if Xml.isSpace c then tokens? rest
    else
      match token? (c :: rest) with
      | none => none
      | some (token, after) =>
        if after.length ≤ rest.length then (tokens? after).map (token :: ·) else none
termination_by cs => cs.length

/-! ## Reading expressions token by token -/

theorem tokens?_nil : tokens? [] = some [] := by
  rw [tokens?]

theorem tokens?_space (rest : List Char) : tokens? (' ' :: rest) = tokens? rest := by
  have hspace : Xml.isSpace ' ' = true := rfl
  rw [tokens?, if_pos hspace]

theorem tokens?_of_token? {c : Char} {rest after : List Char} {token : Token}
    (hspace : Xml.isSpace c = false) (htoken : token? (c :: rest) = some (token, after))
    (hlength : after.length ≤ rest.length) :
    tokens? (c :: rest) = (tokens? after).map (token :: ·) := by
  rw [tokens?, if_neg (by simp [hspace]), htoken]
  exact if_pos hlength

theorem tokens?_mark {c : Char} (h : c ∈ marks) (rest : List Char) :
    tokens? (c :: rest) = (tokens? rest).map (.mark c :: ·) := by
  have hother : ∀ c ∈ marks, Xml.isSpace c = false ∧ isNameStart c = false ∧ c.isDigit = false := by
    simp only [marks, List.forall_mem_cons, List.not_mem_nil, false_imp_iff, implies_true]
    decide
  obtain ⟨hspace, hstart, hdigit⟩ := hother c h
  refine tokens?_of_token? hspace ?_ (Nat.le_refl _)
  simp [token?, hstart, hdigit, h]

theorem tokens?_one {rest : List Char} (h : ∀ c ∈ rest.head?, c.isDigit = false) :
    tokens? ('1' :: rest) = (tokens? rest).map (.number "1" :: ·) := by
  have hnone : ∀ c ∈ ([] : List Char), c.isDigit = true := by simp
  have htake : rest.takeWhile Char.isDigit = [] := Xml.takeWhile_append_stop hnone h
  have hdrop : rest.dropWhile Char.isDigit = rest := Xml.dropWhile_append_stop hnone h
  have hstart : isNameStart '1' = false := by decide
  refine tokens?_of_token? rfl ?_ (Nat.le_refl _)
  rw [token?, if_neg (by simp [hstart]), if_pos (by decide), htake, hdrop]

/-- What cannot carry on a name. -/
def EndsName (rest : List Char) : Prop :=
  ∀ c ∈ rest.head?, isNamePart c = false ∧ c ≠ ':'

theorem endsName_nil : EndsName [] := by
  simp [EndsName]

theorem endsName_cons {c : Char} (h : c ∈ ' ' :: marks) (hdot : c ≠ '.') (rest : List Char) :
    EndsName (c :: rest) := by
  have hother : ∀ c ∈ ' ' :: marks, c = '.' ∨ (isNamePart c = false ∧ c ≠ ':') := by
    simp only [marks, List.forall_mem_cons, List.not_mem_nil, false_imp_iff, implies_true]
    decide
  intro d hd
  rw [← Option.some.inj hd]
  exact (hother c h).resolve_left hdot

theorem exists_cons_of_isNCName {name : String} (h : isNCName name = true) :
    ∃ c cs, name.toList = c :: cs ∧ isNameStart c = true ∧ ∀ d ∈ cs, isNamePart d = true := by
  rw [isNCName] at h
  split at h
  next => cases h
  next c cs heq =>
    obtain ⟨hc, hcs⟩ := Bool.and_eq_true_iff.1 h
    exact ⟨c, cs, heq, hc, List.all_eq_true.1 hcs⟩

theorem isSpace_eq_false_of_isNameStart {c : Char} (h : isNameStart c = true) :
    Xml.isSpace c = false := by
  have hspace : ∀ d ∈ [' ', '\t', '\n', '\r'], isNameStart d = false := by
    simp only [List.forall_mem_cons, List.not_mem_nil, false_imp_iff, implies_true]
    decide
  cases hc : Xml.isSpace c with
  | false => rfl
  | true =>
    rw [hspace c (by simpa [Xml.isSpace, or_assoc] using hc)] at h
    cases h

theorem tokens?_word {word : String} (hword : isNCName word = true) {rest : List Char}
    (hrest : EndsName rest) :
    tokens? (word.toList ++ rest) = (tokens? rest).map (.name none word :: ·) := by
  obtain ⟨c, cs, htext, hc, hcs⟩ := exists_cons_of_isNCName hword
  have hstop : ∀ d ∈ rest.head?, isNamePart d = false := fun d hd => (hrest d hd).1
  have htoken : token? (c :: (cs ++ rest)) = some (.name none word, rest) := by
    rw [token?, if_pos hc, Xml.takeWhile_append_stop hcs hstop,
      Xml.dropWhile_append_stop hcs hstop, ← htext, String.ofList_toList]
    split
    next d after _ => exact absurd rfl (hrest ':' rfl).2
    next => rfl
  rw [htext, List.cons_append]
  exact tokens?_of_token? (isSpace_eq_false_of_isNameStart hc) htoken (by simp)

theorem tokens?_qualified {label localName : String} (hlabel : isNCName label = true)
    (hlocal : isNCName localName = true) {rest : List Char} (hrest : EndsName rest) :
    tokens? ((label ++ ":" ++ localName).toList ++ rest) =
      (tokens? rest).map (.name (some label) localName :: ·) := by
  obtain ⟨c, cs, htext, hc, hcs⟩ := exists_cons_of_isNCName hlabel
  obtain ⟨d, ds, htext', hd, hds⟩ := exists_cons_of_isNCName hlocal
  have hcolon : ∀ e ∈ (':' :: d :: (ds ++ rest)).head?, isNamePart e = false := by
    intro e he
    rw [← Option.some.inj he]
    decide
  have hstop : ∀ e ∈ rest.head?, isNamePart e = false := fun e he => (hrest e he).1
  have htoken : token? (c :: (cs ++ ':' :: d :: (ds ++ rest))) =
      some (.name (some label) localName, rest) := by
    rw [token?, if_pos hc, Xml.takeWhile_append_stop hcs hcolon,
      Xml.dropWhile_append_stop hcs hcolon]
    simp only [hd, if_true]
    rw [Xml.takeWhile_append_stop hds hstop, Xml.dropWhile_append_stop hds hstop, ← htext,
      ← htext', String.ofList_toList, String.ofList_toList]
  have hsplit : (label ++ ":" ++ localName).toList ++ rest =
      c :: (cs ++ ':' :: d :: (ds ++ rest)) := by
    simp [htext, htext']
  rw [hsplit]
  refine tokens?_of_token? (isSpace_eq_false_of_isNameStart hc) htoken ?_
  simp only [List.length_append, List.length_cons]
  omega

end Concordance.Xpath
