import Concordance.Proofs.Xml.Tidy
import Concordance.Text.Ranges

/-!
# Reading as XML prescribes

The plain reader leaves open which characters a document may hold, which words are names, and what
becomes of white space in values.  XML 1.0 with its namespaces settles the three: there are tables
of the characters, a name is two words of such characters around a colon, line ends are unified
before anything else is read, and in the values that were read all white space turns to spaces.
-/

namespace Concordance.Xml

open Text (inRanges)

/-! ## Characters and names -/

namespace Grammar

/-- The characters that a document may hold. -/
def charRanges : List (Nat × Nat) :=
  [(0x9, 0xA), (0xD, 0xD), (0x20, 0xD7FF), (0xE000, 0xFFFD), (0x10000, 0x10FFFF)]

/-- The characters that a name without a colon may begin with. -/
def nameStartRanges : List (Nat × Nat) :=
  [(0x41, 0x5A), (0x5F, 0x5F), (0x61, 0x7A), (0xC0, 0xD6), (0xD8, 0xF6), (0xF8, 0x2FF),
    (0x370, 0x37D), (0x37F, 0x1FFF), (0x200C, 0x200D), (0x2070, 0x218F), (0x2C00, 0x2FEF),
    (0x3001, 0xD7FF), (0xF900, 0xFDCF), (0xFDF0, 0xFFFD), (0x10000, 0xEFFFF)]

/-- The characters that a name without a colon may hold, beside those that it may begin with. -/
def namePartRanges : List (Nat × Nat) :=
  [(0x2D, 0x2E), (0x30, 0x39), (0xB7, 0xB7), (0x300, 0x36F), (0x203F, 0x2040)]

def isChar (c : Char) : Bool :=
  inRanges charRanges c

def isNameStart (c : Char) : Bool :=
  inRanges nameStartRanges c

def isNamePart (c : Char) : Bool :=
  isNameStart c || inRanges namePartRanges c

/-- Whether `text` is a name without a colon. -/
def isNCName (text : String) : Bool :=
  match text.toList with
  | [] => false
  | first :: rest => isNameStart first && rest.all isNamePart

/-- Whether `text` is the name of an element or an attribute: a name without a colon, or two of them
with a colon between. -/
def isQName (text : String) : Bool :=
  match text.toList.dropWhile (· != ':') with
  | [] => isNCName text
  | _ :: localName =>
    isNCName (String.ofList (text.toList.takeWhile (· != ':'))) &&
      isNCName (String.ofList localName)

theorem isQName_append_colon {label localName : String} (hlabel : ':' ∉ label.toList) :
    isQName (label ++ ":" ++ localName) = (isNCName label && isNCName localName) := by
  have htext : (label ++ ":" ++ localName).toList = label.toList ++ ':' :: localName.toList := by
    simp
  have hcs : ∀ c ∈ label.toList, (c != ':') = true := by
    intro c hc
    exact bne_iff_ne.2 fun hcolon => hlabel (hcolon ▸ hc)
  have hrest : ∀ c ∈ (':' :: localName.toList).head?, (c != ':') = false := by simp
  rw [isQName, htext, takeWhile_append_stop hcs hrest, dropWhile_append_stop hcs hrest]
  simp only [String.ofList_toList]

end Grammar

/-! ## Line ends -/

/-- The characters of a text with a line feed for every line end. -/
def lineEnds : List Char → List Char
  | '\r' :: '\n' :: rest => '\n' :: lineEnds rest
  | '\r' :: rest => '\n' :: lineEnds rest
  | c :: rest => c :: lineEnds rest
  | [] => []

theorem lineEnds_cons {c : Char} (h : c ≠ '\r') (rest : List Char) :
    lineEnds (c :: rest) = c :: lineEnds rest := by
  rw [lineEnds.eq_def]
  split <;> simp_all

theorem lineEnds_return {rest : List Char} (h : rest.head? ≠ some '\n') :
    lineEnds ('\r' :: rest) = '\n' :: lineEnds rest := by
  cases rest with
  | nil => rfl
  | cons c rest =>
    have hc : c ≠ '\n' := by simpa using h
    rw [lineEnds]
    exact fun tail htail => hc (List.cons.inj htail).1

/-- Text without carriage returns stays as it is. -/
theorem lineEnds_append {cs : List Char} (h : '\r' ∉ cs) (rest : List Char) :
    lineEnds (cs ++ rest) = cs ++ lineEnds rest := by
  induction cs with
  | nil => rfl
  | cons c cs ih =>
    obtain ⟨hc, hcs⟩ := List.ne_and_not_mem_of_not_mem_cons h
    rw [List.cons_append, lineEnds_cons (Ne.symm hc), ih hcs, List.cons_append]

theorem lineEnds_eq_self {cs : List Char} (h : '\r' ∉ cs) : lineEnds cs = cs := by
  have happend := lineEnds_append h []
  rw [lineEnds, List.append_nil] at happend
  exact happend

theorem return_notMem_escapeChar {c : Char} (h : c ≠ '\r') : '\r' ∉ escapeChar c := by
  unfold escapeChar
  split
  · decide
  · decide
  · decide
  · decide
  · decide
  · exact fun hmem => h (List.mem_singleton.1 hmem).symm

theorem head?_flatMap_escapeChar_ne {cs : List Char} (h : cs.head? ≠ some '\n')
    (rest : List Char) : (cs.flatMap escapeChar ++ '"' :: rest).head? ≠ some '\n' := by
  cases cs with
  | nil => simp
  | cons c cs =>
    have hc : c ≠ '\n' := by simpa using h
    rw [List.flatMap_cons]
    unfold escapeChar
    split <;> simp_all

/-- Line ends in a written value are unified as they are in the value that is meant: no reference
stands for white space, and the quotation mark keeps what follows apart. -/
theorem lineEnds_escape (cs rest : List Char) :
    lineEnds (cs.flatMap escapeChar ++ '"' :: rest) =
      (lineEnds cs).flatMap escapeChar ++ '"' :: lineEnds rest := by
  have hreturn : escapeChar '\r' = ['\r'] := rfl
  have hfeed : escapeChar '\n' = ['\n'] := rfl
  fun_induction lineEnds cs with
  | case1 cs ih =>
    rw [List.flatMap_cons, List.flatMap_cons, List.flatMap_cons, hreturn, hfeed]
    simp only [List.cons_append, List.nil_append, lineEnds, ih]
  | case2 cs hnot ih =>
    have hhead : cs.head? ≠ some '\n' := by
      intro h
      obtain ⟨tail, rfl⟩ := List.head?_eq_some_iff.1 h
      exact hnot tail rfl
    rw [List.flatMap_cons, List.flatMap_cons, hreturn, hfeed, List.append_assoc,
      List.singleton_append, lineEnds_return (head?_flatMap_escapeChar_ne hhead rest), ih]
    rfl
  | case3 c cs _ hnot ih =>
    have hc : c ≠ '\r' := fun h => hnot h
    rw [List.flatMap_cons, List.flatMap_cons, List.append_assoc,
      lineEnds_append (return_notMem_escapeChar hc), ih, List.append_assoc]
  | case4 =>
    have hquote : '"' ≠ '\r' := by decide
    rw [List.flatMap_nil, List.nil_append, lineEnds_cons hquote]
    rfl

/-! ## Values -/

/-- A value with spaces for its white space, after line ends were unified. -/
def blanked (cs : List Char) : List Char :=
  cs.map fun c => if isSpace c then ' ' else c

/-- A value as it is read from a document in which it stands as it is. -/
def readValue (value : String) : String :=
  String.ofList (blanked (lineEnds value.toList))

/-- White space other than spaces. -/
def isBreak (c : Char) : Bool :=
  c == '\t' || c == '\n' || c == '\r'

theorem isBreak_eq_false_of_mem_blanked {cs : List Char} {c : Char} (h : c ∈ blanked cs) :
    isBreak c = false := by
  obtain ⟨d, -, rfl⟩ := List.mem_map.1 h
  split
  next => rfl
  next hspace =>
    rw [isSpace] at hspace
    rw [isBreak]
    grind

theorem blanked_eq_self {cs : List Char} (h : ∀ c ∈ cs, isBreak c = false) : blanked cs = cs := by
  rw [blanked]
  refine (List.map_congr_left fun c hc => ?_).trans (List.map_id cs)
  have hc := h c hc
  rw [isBreak] at hc
  rw [isSpace]
  grind

theorem return_notMem_of_isBreak_eq_false {cs : List Char} (h : ∀ c ∈ cs, isBreak c = false) :
    '\r' ∉ cs := by
  intro hmem
  have hfalse := h '\r' hmem
  cases hfalse

/-- A value is read as it is meant exactly when it has no white space but spaces. -/
theorem readValue_eq_self_iff {value : String} :
    readValue value = value ↔ ∀ c ∈ value.toList, isBreak c = false := by
  constructor
  · intro h c hc
    have hlist : blanked (lineEnds value.toList) = value.toList := by
      rw [← String.toList_ofList (l := blanked (lineEnds value.toList))]
      exact congrArg String.toList h
    rw [← hlist] at hc
    exact isBreak_eq_false_of_mem_blanked hc
  · intro h
    rw [readValue, lineEnds_eq_self (return_notMem_of_isBreak_eq_false h), blanked_eq_self h,
      String.ofList_toList]

theorem blanked_lineEnds_of_space_notMem {cs : List Char} (h : ' ' ∉ blanked (lineEnds cs)) :
    blanked (lineEnds cs) = cs := by
  fun_induction lineEnds cs with
  | case1 cs ih => exact absurd List.mem_cons_self h
  | case2 cs _ ih => exact absurd List.mem_cons_self h
  | case3 c cs _ _ ih =>
    rw [blanked, List.map_cons] at h ⊢
    obtain ⟨hc, hcs⟩ := List.ne_and_not_mem_of_not_mem_cons h
    split at hc
    next => exact absurd rfl hc
    next hspace => rw [if_neg hspace, ← blanked, ih hcs]
  | case4 => rfl

/-- No other value is read as one without spaces. -/
theorem eq_of_readValue_eq {value other : String} (h : readValue value = other)
    (hspace : ' ' ∉ other.toList) : value = other := by
  have hlist : other.toList = blanked (lineEnds value.toList) := by
    rw [← h, readValue, String.toList_ofList]
  rw [hlist] at hspace
  rw [← h, readValue, blanked_lineEnds_of_space_notMem hspace, String.ofList_toList]

/-! ## Documents -/

namespace Node

mutual

/-- The tree with spaces for the white space in its values. -/
def normalized : Node → Node
  | .element name attributes content =>
    .element name (attributes.map fun a => (a.1, String.ofList (blanked a.2.toList)))
      (normalizedAll content)
  | .comment body => .comment body
  | .text content => .text content

def normalizedAll : List Node → List Node
  | [] => []
  | item :: rest => normalized item :: normalizedAll rest

end

mutual

/-- The names of the elements and attributes of a tree. -/
def tagNames : Node → List String
  | .element name attributes content => name :: (attributes.map Prod.fst ++ tagNamesAll content)
  | .comment _ => []
  | .text _ => []

def tagNamesAll : List Node → List String
  | [] => []
  | item :: rest => tagNames item ++ tagNamesAll rest

end

theorem tagNamesAll_append (first second : List Node) :
    tagNamesAll (first ++ second) = tagNamesAll first ++ tagNamesAll second := by
  induction first with
  | nil => rfl
  | cons item rest ih =>
    rw [List.cons_append, tagNamesAll, tagNamesAll, ih, List.append_assoc]

theorem tagNamesAll_flatMap {α : Type} (f : α → List Node) (items : List α) :
    tagNamesAll (items.flatMap f) = items.flatMap fun a => tagNamesAll (f a) := by
  induction items with
  | nil => rfl
  | cons a rest ih => rw [List.flatMap_cons, tagNamesAll_append, ih, List.flatMap_cons]

mutual

theorem tagNames_normalized (node : Node) : node.normalized.tagNames = node.tagNames := by
  cases node with
  | element name attributes content =>
    rw [normalized, tagNames, tagNames, tagNamesAll_normalizedAll content, List.map_map]
    rfl
  | comment body => rfl
  | text content => rfl

theorem tagNamesAll_normalizedAll (items : List Node) :
    tagNamesAll (normalizedAll items) = tagNamesAll items := by
  cases items with
  | nil => rfl
  | cons item rest =>
    rw [normalizedAll, tagNamesAll, tagNamesAll, tagNames_normalized item,
      tagNamesAll_normalizedAll rest]

end

mutual

theorem tagNames_tidy (node : Node) : node.tidy.tagNames = node.tagNames := by
  cases node with
  | element name attributes content =>
    rw [tidy, tagNames, tagNames, tagNamesAll_tidyAll content]
  | comment body => rfl
  | text content => rfl

/-- White space of the layout has no names. -/
theorem tagNamesAll_tidyAll (items : List Node) :
    tagNamesAll (tidyAll items) = tagNamesAll items := by
  cases items with
  | nil => rfl
  | cons item rest =>
    have ih := tagNamesAll_tidyAll rest
    cases item with
    | element name attributes content =>
      have hitem := tagNames_tidy (.element name attributes content)
      rw [tidyAll, tagNamesAll, hitem, ih, tagNamesAll]
      simp
    | comment body =>
      rw [tidyAll, tagNamesAll, ih, tagNamesAll]
      · rfl
      · simp
    | text content =>
      rw [tidyAll, tagNamesAll, tagNames, List.nil_append]
      split
      · exact ih
      · rw [tagNamesAll, tagNames, List.nil_append, ih]

end

end Node

/-- The root of a document given by its bytes, as a reader finds it that unifies line ends and
normalizes values. -/
def conforming? (bytes : ByteArray) : Option Node :=
  (String.fromUTF8? bytes).bind fun text =>
    (document? (String.ofList (lineEnds text.toList))).map Node.normalized

end Concordance.Xml
