import Concordance.Decimal.Binary64
import Concordance.Definition.Toml.Table

/-!
# Strings, numbers, dates and times of TOML

A reader here takes the characters that are left and gives what it read with the characters behind
it, or nothing.  Numbers and dates are single words, which are classified as a whole.  A word may
have the form of a number without being one that can be kept; it is then a broken leaf, which is a
fault only where the value is asked for.
-/

namespace Concordance.Toml

open Text (Extent)

/-- Whether a character may stand in a line: a tab, or no control character. -/
def isLineChar (c : Char) : Bool :=
  c == '\t' || (0x20 ≤ c.toNat && c.toNat != 0x7F)

/-- Whether a character separates words within a line. -/
def isSpace (c : Char) : Bool :=
  c == ' ' || c == '\t'

/-- The characters behind a line break at the beginning. -/
def lineBreak? : List Char → Option (List Char)
  | '\n' :: rest => some rest
  | '\r' :: '\n' :: rest => some rest
  | _ => none

/-- The character with the code point that so many hexadecimal digits at the beginning write. -/
def hexChar? (count : Nat) (cs : List Char) : Option Char := do
  let digits := cs.take count
  if digits.length < count then none
  else
    let n ← Text.hexNumber? digits
    if n.isValidChar then some (Char.ofNat n) else none

/-- What an escape stands for, given what follows the backslash, and how many characters that
takes. -/
def unescape? : List Char → Option (Char × Nat)
  | 'b' :: _ => some ('\x08', 1)
  | 't' :: _ => some ('\t', 1)
  | 'n' :: _ => some ('\n', 1)
  | 'f' :: _ => some ('\x0c', 1)
  | 'r' :: _ => some ('\r', 1)
  | 'e' :: _ => some ('\x1b', 1)
  | '"' :: _ => some ('"', 1)
  | '\\' :: _ => some ('\\', 1)
  | 'x' :: cs => (hexChar? 2 cs).map (·, 3)
  | 'u' :: cs => (hexChar? 4 cs).map (·, 5)
  | 'U' :: cs => (hexChar? 8 cs).map (·, 9)
  | _ => none

/-- The characters of a string on one line, up to the quote that ends it, and those behind it. -/
def basicBody? (cs : List Char) : Option (List Char × List Char) :=
  match cs with
  | [] => none
  | '"' :: rest => some ([], rest)
  | '\\' :: rest =>
    match unescape? rest with
    | none => none
    | some (c, count) => (basicBody? (rest.drop count)).map fun body => (c :: body.1, body.2)
  | c :: rest =>
    if isLineChar c then (basicBody? rest).map fun body => (c :: body.1, body.2) else none
termination_by cs.length
decreasing_by all_goals simp; try omega

/-- The characters of a string without escapes, up to the quote that ends it, and those behind. -/
def literalBody? (cs : List Char) : Option (List Char × List Char) :=
  match cs with
  | [] => none
  | '\'' :: rest => some ([], rest)
  | c :: rest =>
    if isLineChar c then (literalBody? rest).map fun body => (c :: body.1, body.2) else none

/-- How a run of quotes in a string over several lines ends it, if it does: three quotes end it, and
at most two before them belong to it. -/
def closing? (quote : Char) (cs : List Char) : Option (List Char × List Char) :=
  let run := min 5 (cs.takeWhile (· == quote)).length
  if run < 3 then none else some (List.replicate (run - 3) quote, cs.drop run)

/-- The characters behind white space and line breaks. -/
def skipBreaks : List Char → List Char
  | ' ' :: rest | '\t' :: rest | '\n' :: rest | '\r' :: '\n' :: rest => skipBreaks rest
  | cs => cs

/-- The characters behind a backslash that ends its line, and behind the white space that
follows. -/
def continuation? (cs : List Char) : Option (List Char) :=
  (lineBreak? (cs.dropWhile isSpace)).map skipBreaks

theorem length_dropWhile_le {α : Type} (p : α → Bool) (xs : List α) :
    (xs.dropWhile p).length ≤ xs.length :=
  (List.dropWhile_sublist p).length_le

theorem length_of_lineBreak? {cs rest : List Char} (h : lineBreak? cs = some rest) :
    rest.length < cs.length := by
  unfold lineBreak? at h
  split at h <;> grind

theorem length_skipBreaks_le (cs : List Char) : (skipBreaks cs).length ≤ cs.length := by
  fun_induction skipBreaks cs <;> simp_all <;> omega

theorem length_of_continuation? {cs rest : List Char} (h : continuation? cs = some rest) :
    rest.length < cs.length := by
  rw [continuation?, Option.map_eq_some_iff] at h
  obtain ⟨line, hline, rfl⟩ := h
  have := length_of_lineBreak? hline
  have := length_dropWhile_le isSpace cs
  have := length_skipBreaks_le line
  omega

/-- The characters of a string over several lines, and those behind the quotes that end it. -/
def longBasicBody? (cs : List Char) : Option (List Char × List Char) :=
  match closing? '"' cs with
  | some ending => some ending
  | none =>
    match cs with
    | [] => none
    | '\\' :: rest =>
      match unescape? rest with
      | some (c, count) => (longBasicBody? (rest.drop count)).map fun body => (c :: body.1, body.2)
      | none =>
        match _ : continuation? rest with
        | some next => longBasicBody? next
        | none => none
    | '\r' :: '\n' :: rest => (longBasicBody? rest).map fun body => ('\r' :: '\n' :: body.1, body.2)
    | c :: rest =>
      if c = '\n' ∨ isLineChar c then (longBasicBody? rest).map fun body => (c :: body.1, body.2)
      else none
termination_by cs.length
decreasing_by
  · simp; try omega
  · have := length_of_continuation? ‹_›
    simp; omega
  · simp; try omega
  · simp

/-- The characters of a string over several lines without escapes, and those behind the quotes that
end it. -/
def longLiteralBody? (cs : List Char) : Option (List Char × List Char) :=
  match closing? '\'' cs with
  | some ending => some ending
  | none =>
    match cs with
    | [] => none
    | '\r' :: '\n' :: rest =>
      (longLiteralBody? rest).map fun body => ('\r' :: '\n' :: body.1, body.2)
    | c :: rest =>
      if c = '\n' ∨ isLineChar c then (longLiteralBody? rest).map fun body => (c :: body.1, body.2)
      else none

/-- The characters behind a line break at the beginning, or all if there is none. -/
def dropLineBreak (cs : List Char) : List Char :=
  (lineBreak? cs).getD cs

/-- The string at the beginning, and what is behind it. -/
def string? : List Char → Option (List Char × List Char)
  | '"' :: '"' :: '"' :: rest => longBasicBody? (dropLineBreak rest)
  | '\'' :: '\'' :: '\'' :: rest => longLiteralBody? (dropLineBreak rest)
  | '"' :: rest => basicBody? rest
  | '\'' :: rest => literalBody? rest
  | _ => none

/-- The digits of a number in which low lines may stand between digits. -/
def ungrouped? (isDigit : Char → Bool) (cs : List Char) : Option (List Char) :=
  let groups := cs.splitOn '_'
  if groups.all (fun group => !group.isEmpty && group.all isDigit) then some groups.flatten
  else none

/-- The number that digits write in a base. -/
def number (base : Nat) (digits : List Char) : Nat :=
  digits.foldl (fun n c => base * n + (Text.hexValue? c).getD 0) 0

/-- The sign at the beginning, and what is behind it. -/
def sign : List Char → Bool × List Char
  | '+' :: rest => (false, rest)
  | '-' :: rest => (true, rest)
  | rest => (false, rest)

/-- The digits of a decimal number without needless zeros in front. -/
def decimalDigits? (cs : List Char) : Option (List Char) :=
  match ungrouped? Char.isDigit cs with
  | some ('0' :: _ :: _) => none
  | digits => digits

def isHexDigit (c : Char) : Bool :=
  (Text.hexValue? c).isSome

/-- The reading of a whole number, broken if it takes more than 64 bits. -/
def wholeReading (extent : Extent) (n : Int) : Reading :=
  if -0x8000000000000000 ≤ n ∧ n < 0x8000000000000000 then .integer n extent else .broken

/-- The reading of a whole number in a base that its first two characters tell, given the others.
A number without digits is broken. -/
def basedReading? (extent : Extent) (base : Nat) (isDigit : Char → Bool) :
    List Char → Option Reading
  | [] => some .broken
  | digits => (ungrouped? isDigit digits).map fun ds => wholeReading extent (number base ds)

/-- Whether the groups between low lines, of which the first holds digits, pass for those of a
decimal number: hexadecimal digits stand on both sides of each low line, and neither a point nor the
letter of an exponent in any group. -/
def areGroups (groups : List (List Char)) : Bool :=
  let isDigitOrNone (c : Option Char) : Bool := (c.map isHexDigit).getD false
  groups.tail.all (fun group => isDigitOrNone group.head?) &&
    groups.dropLast.all (fun group => isDigitOrNone group.getLast?) &&
    groups.all (fun group => group.all fun c => c != '.' && c != 'e' && c != 'E')

/-- The reading of a decimal whole number without its sign.  One with low lines is broken if it
holds anything but digits between them. -/
def decimalReading? (extent : Extent) (negative : Bool) (cs : List Char) : Option Reading :=
  match decimalDigits? cs with
  | some ds =>
    some (wholeReading extent (if negative then -(number 10 ds : Int) else number 10 ds))
  | none =>
    match cs.splitOn '_' with
    | first :: second :: rest =>
      if !first.isEmpty && first.all Char.isDigit && first.head? ≠ some '0' &&
          areGroups (first :: second :: rest) then
        some .broken
      else none
    | _ => none

/-- The reading of a word that has the form of a whole number. -/
def integer? (extent : Extent) (word : List Char) : Option Reading :=
  match word with
  | '0' :: 'x' :: digits => basedReading? extent 16 isHexDigit digits
  | '0' :: 'o' :: digits => basedReading? extent 8 (fun c => '0' ≤ c && c ≤ '7') digits
  | '0' :: 'b' :: digits => basedReading? extent 2 (fun c => c == '0' || c == '1') digits
  | _ =>
    let (negative, digits) := sign word
    decimalReading? extent negative digits

/-- The double nearest to `digits * 10 ^ exponent`, if it is in range; numbers far out of it
are not worked out. -/
def double? (digits : List Char) (exponent : Int) : Option Binary64 :=
  let n := number 10 digits
  let places := exponent + digits.length
  if n = 0 ∨ places < -400 then some ⟨0, -1074⟩
  else if exponent > 400 then none
  else Binary64.ofDecimal? n exponent

/-- The digits of an exponent with its sign. -/
def exponent? (cs : List Char) : Option Int :=
  let (negative, digits) := sign cs
  (ungrouped? Char.isDigit digits).map fun ds =>
    if negative then -(number 10 ds : Int) else number 10 ds

/-- The reading of a word that has the form of a double, broken if the double is out of range. -/
def float? (extent : Extent) (word : List Char) : Option Reading := do
  let (negative, rest) := sign word
  if rest = "inf".toList then some (.float (if negative then "-inf" else "inf") extent)
  else if rest = "nan".toList then some (.float "NaN" extent)
  else
    let isMark (c : Char) : Bool := c == 'e' || c == 'E'
    let mantissa := rest.takeWhile (fun c => !isMark c)
    let whole := mantissa.takeWhile (· != '.')
    let wholeDigits ← decimalDigits? whole
    let fractionDigits ←
      match mantissa.dropWhile (· != '.') with
      | [] => some []
      | _ :: fraction => ungrouped? Char.isDigit fraction
    let exponent ←
      match rest.dropWhile (fun c => !isMark c) with
      | [] => some 0
      | _ :: written => exponent? written
    if mantissa.length = whole.length ∧ mantissa.length = rest.length then none
    else
      match double? (wholeDigits ++ fractionDigits) (exponent - fractionDigits.length) with
      | some double => some (.float ((if negative then "-" else "") ++ double.shown) extent)
      | none => some .broken

/-- The number that two digits write. -/
def pair? (a b : Char) : Option Nat :=
  if a.isDigit && b.isDigit then some (number 10 [a, b]) else none

def daysOf (year month : Nat) : Nat :=
  if month = 2 then
    if (year % 4 = 0 ∧ year % 100 ≠ 0) ∨ year % 400 = 0 then 29 else 28
  else if month = 4 ∨ month = 6 ∨ month = 9 ∨ month = 11 then 30
  else 31

/-- The date at the beginning in its usual form, and what is behind it. -/
def date? : List Char → Option (List Char × List Char)
  | y1 :: y2 :: y3 :: y4 :: '-' :: m1 :: m2 :: '-' :: d1 :: d2 :: rest => do
    let century ← pair? y1 y2
    let year ← pair? y3 y4
    let month ← pair? m1 m2
    let day ← pair? d1 d2
    if 1 ≤ month ∧ month ≤ 12 ∧ 1 ≤ day ∧ day ≤ daysOf (100 * century + year) month then
      some ([y1, y2, y3, y4, '-', m1, m2, '-', d1, d2], rest)
    else none
  | _ => none

/-- The fraction of a second in its usual form: nine digits at most, without zeros at the end. -/
def secondFraction (digits : List Char) : List Char :=
  match ((digits.take 9).reverse.dropWhile (· == '0')).reverse with
  | [] => []
  | kept => '.' :: kept

/-- The time of day at the beginning in its usual form, and what is behind it.  The seconds may be
missing. -/
def time? : List Char → Option (List Char × List Char)
  | h1 :: h2 :: ':' :: m1 :: m2 :: rest => do
    let hour ← pair? h1 h2
    let minute ← pair? m1 m2
    if hour ≤ 23 ∧ minute ≤ 59 then
      match rest with
      | ':' :: s1 :: s2 :: rest => do
        let second ← pair? s1 s2
        if second ≤ 60 then
          let shown := [h1, h2, ':', m1, m2, ':', s1, s2]
          match rest with
          | '.' :: rest =>
            let digits := rest.takeWhile Char.isDigit
            if digits.isEmpty then none
            else some (shown ++ secondFraction digits, rest.dropWhile Char.isDigit)
          | rest => some (shown, rest)
        else none
      | ':' :: _ => none
      | rest => some ([h1, h2, ':', m1, m2, ':', '0', '0'], rest)
    else none
  | _ => none

/-- The offset from universal time that a text is, in its usual form. -/
def offset? : List Char → Option (List Char)
  | [] => some []
  | ['Z'] | ['z'] => some ['Z']
  | [s, h1, h2, ':', m1, m2] => do
    let hour ← pair? h1 h2
    let minute ← pair? m1 m2
    if (s = '+' ∨ s = '-') ∧ hour ≤ 23 ∧ minute ≤ 59 then some [s, h1, h2, ':', m1, m2] else none
  | _ => none

/-- The date, the time or both that a word writes, in their usual form. -/
def dateTime? (word : List Char) : Option (List Char) :=
  match date? word with
  | some (date, []) => some date
  | some (date, mark :: rest) =>
    if mark = 'T' ∨ mark = 't' ∨ mark = ' ' then do
      let (time, rest) ← time? rest
      let offset ← offset? rest
      some (date ++ 'T' :: time ++ offset)
    else none
  | none =>
    match time? word with
    | some (time, []) => some time
    | _ => none

/-- Whether a character may stand in a word: one that is no white space, no line break and no mark
that parts words. -/
def isWordChar (c : Char) : Bool :=
  !(isSpace c || c == '\n' || c == '\r' || c == '=' || c == ',' || c == '#' || c == '"' ||
    c == '\'' || c == '[' || c == ']' || c == '\x7b' || c == '\x7d')

/-- The word at the beginning, and what is behind it.  A date and a time with one space between them
are a single word. -/
def word (cs : List Char) : List Char × List Char :=
  let first := cs.takeWhile isWordChar
  let behind := cs.dropWhile isWordChar
  match date? first, behind with
  | some (_, []), ' ' :: d :: rest =>
    if d.isDigit then
      (first ++ ' ' :: (d :: rest).takeWhile isWordChar, (d :: rest).dropWhile isWordChar)
    else (first, behind)
  | _, _ => (first, behind)

/-- The key under which a date or time stands when it is read as a table. -/
def dateTimeKey : String := "$__toml_private_datetime"

/-- The reading of a word. -/
def classify? (extent : Extent) (word : List Char) : Option Reading :=
  if word = "true".toList then some (.boolean true extent)
  else if word = "false".toList then some (.boolean false extent)
  else
    match dateTime? word with
    | some shown =>
      some (tableReading extent [(dateTimeKey, extent, .string (String.ofList shown) extent)])
    | none => (integer? extent word).or (float? extent word)

mutual

/-- Whether every part of a reading stands for something: no leaf is broken, and no table passes for
a date or time without being one. -/
def isSound : Reading → Bool
  | .broken => false
  | .sequence _ items _ => areSound items
  | .table _ entries _ => isSoundTable entries
  | _ => true

/-- Whether every one of some readings stands for something. -/
def areSound : List Reading → Bool
  | [] => true
  | item :: rest => isSound item && areSound rest

/-- Whether the entries of a table stand for a date or time, or each for something. -/
def isSoundTable : List (String × Extent × Reading) → Bool
  | [] => true
  | (key, _, value) :: rest =>
    if key = dateTimeKey then
      match value with
      | .string text _ => (dateTime? text.toList).isSome
      | _ => false
    else isSound value && areSoundEntries rest

/-- Whether the values of entries stand for something. -/
def areSoundEntries : List (String × Extent × Reading) → Bool
  | [] => true
  | (_, _, value) :: rest => isSound value && areSoundEntries rest

end

end Concordance.Toml
