import Concordance.Decimal.Binary64
import Concordance.Definition.Shape

/-!
# Definitions in JSON

Reading JSON from left to right.  Numbers keep to what 64 bits hold: an integer that fits is an
integer, any other number is a double, and one beyond the range of doubles breaks the reading.
-/

namespace Concordance.Json

open Text (Extent)

def isSpace (c : Char) : Bool :=
  c == ' ' || c == '\t' || c == '\n' || c == '\r'

def skipSpace (cs : List Char) : List Char :=
  cs.dropWhile isSpace

/-- The value of the four hexadecimal digits at the beginning. -/
def fourDigits? (cs : List Char) : Option Nat :=
  if (cs.take 4).length = 4 then Text.hexNumber? (cs.take 4) else none

/-- What an escape stands for, given what follows the backslash, and how many characters that
takes.  A surrogate stands for a character only in front of its other half. -/
def unescape? : List Char → Option (Char × Nat)
  | '"' :: _ => some ('"', 1)
  | '\\' :: _ => some ('\\', 1)
  | '/' :: _ => some ('/', 1)
  | 'b' :: _ => some ('\x08', 1)
  | 'f' :: _ => some ('\x0c', 1)
  | 'n' :: _ => some ('\n', 1)
  | 'r' :: _ => some ('\r', 1)
  | 't' :: _ => some ('\t', 1)
  | 'u' :: cs => do
    let high ← fourDigits? cs
    if 0xDC00 ≤ high ∧ high ≤ 0xDFFF then none
    else if 0xD800 ≤ high ∧ high ≤ 0xDBFF then
      match cs.drop 4 with
      | '\\' :: 'u' :: more => do
        let low ← fourDigits? more
        if 0xDC00 ≤ low ∧ low ≤ 0xDFFF then
          some (Char.ofNat (0x10000 + (high - 0xD800) * 0x400 + (low - 0xDC00)), 11)
        else none
      | _ => none
    else some (Char.ofNat high, 5)
  | _ => none

/-- The characters up to the quote that ends a string, and how many characters they take with the
quote; nothing if the string is not ended or holds what it may not. -/
def stringBody? (cs : List Char) : Option (List Char × Nat) :=
  match cs with
  | [] => none
  | '"' :: _ => some ([], 1)
  | '\\' :: rest =>
    match unescape? rest with
    | none => none
    | some (c, count) =>
      (stringBody? (rest.drop count)).map fun body => (c :: body.1, 1 + count + body.2)
  | c :: rest =>
    if c.toNat < 0x20 then none
    else (stringBody? rest).map fun body => (c :: body.1, 1 + body.2)
termination_by cs.length
decreasing_by all_goals simp; try omega

/-- A number as it is written: its sign, the digits before and after the point, and the exponent
with its sign. -/
structure Numeral where
  negative : Bool
  whole : List Char
  fraction : Option (List Char)
  exponent : Option (Bool × List Char)

/-- The digits at the beginning, and what follows them. -/
def digits (cs : List Char) : List Char × List Char :=
  (cs.takeWhile Char.isDigit, cs.dropWhile Char.isDigit)

/-- The part of a numeral after its point, and what follows. -/
def fraction? : List Char → Option (Option (List Char) × List Char)
  | '.' :: cs =>
    match digits cs with
    | ([], _) => none
    | (ds, rest) => some (some ds, rest)
  | cs => some (none, cs)

/-- The digits of an exponent behind its letter and its sign. -/
def exponentDigits? (negative : Bool) (cs : List Char) :
    Option (Option (Bool × List Char) × List Char) :=
  match digits cs with
  | ([], _) => none
  | (ds, rest) => some (some (negative, ds), rest)

/-- The exponent of a numeral, and what follows. -/
def exponent? : List Char → Option (Option (Bool × List Char) × List Char)
  | c :: cs =>
    if c = 'e' ∨ c = 'E' then
      match cs with
      | '+' :: cs => exponentDigits? false cs
      | '-' :: cs => exponentDigits? true cs
      | cs => exponentDigits? false cs
    else some (none, c :: cs)
  | [] => some (none, [])

/-- The numeral at the beginning, and what follows it. -/
def numeral? (cs : List Char) : Option (Numeral × List Char) := do
  let (negative, cs) := match cs with
    | '-' :: cs => (true, cs)
    | cs => (false, cs)
  let (whole, cs) := digits cs
  match whole with
  | [] => none
  | '0' :: _ :: _ => none
  | _ => do
    let (fraction, cs) ← fraction? cs
    let (exponent, cs) ← exponent? cs
    some (⟨negative, whole, fraction, exponent⟩, cs)

/-- The number that digits write. -/
def value (ds : List Char) : Nat :=
  ds.foldl (fun n d => 10 * n + (d.toNat - '0'.toNat)) 0

/-- The largest number of 64 bits. -/
def maxWord : Nat := UInt64.size - 1

/-- As many leading digits as a word of 64 bits holds, from a number read so far, with the count of
the digits left over. -/
def significand (n : Nat) : List Char → Nat × Nat
  | [] => (n, 0)
  | d :: ds =>
    let next := 10 * n + (d.toNat - '0'.toNat)
    if next ≤ maxWord then significand next ds else (n, (d :: ds).length)

/-- A significand scaled by a power of ten through doubles: one multiplication or division, after as
many divisions by `10 ^ 308` as it takes. -/
def scaled? (double : Binary64) (exponent : Int) (tries : Nat) : Option Binary64 :=
  if exponent.natAbs ≤ 308 then do
    let power ← Binary64.ofDecimal? 1 exponent.natAbs
    if exponent ≥ 0 then double.mul? power else double.div? power
  else if double.mantissa = 0 then some double
  else if exponent ≥ 0 then none
  else
    match tries with
    | 0 => some ⟨0, -1074⟩
    | tries + 1 => do
      let power ← Binary64.ofDecimal? 1 308
      scaled? (← double.div? power) (exponent + 308) tries

/-- The largest exponent that is taken at its word. -/
def maxExponent : Nat := 0x7FFFFFFF

def Numeral.double? (numeral : Numeral) : Option Binary64 :=
  let (whole, dropped) := significand 0 numeral.whole
  let (digits, places) :=
    match numeral.fraction with
    | none => (whole, 0)
    | some ds =>
      let (n, left) := significand whole ds
      (n, ds.length - left)
  let scale : Int := (dropped : Int) - places
  match numeral.exponent with
  | none => scaled? ((Binary64.nearest digits 1).getD ⟨0, -1074⟩) scale 8
  | some (negative, ds) =>
    let written := value ds
    if written > maxExponent then
      if digits = 0 ∨ negative then some ⟨0, -1074⟩ else none
    else
      scaled? ((Binary64.nearest digits 1).getD ⟨0, -1074⟩)
        (if negative then scale - written else scale + written) 8

def Numeral.reading (numeral : Numeral) (extent : Extent) : Reading :=
  let n := value numeral.whole
  let isWhole := numeral.fraction.isNone && numeral.exponent.isNone
  if isWhole && !numeral.negative && n ≤ maxWord then .integer n extent
  else if isWhole && numeral.negative && 0 < n && n ≤ 0x8000000000000000 then
    .integer (-(n : Int)) extent
  else
    match numeral.double? with
    | some double =>
      .float ((if numeral.negative then "-" else "") ++ double.shownBriefly) extent
    | none => .broken

/-- The reading of a scalar at the beginning, which shows behind the scalar, and what is behind
it. -/
def scalar (cs : List Char) : Reading × List Char :=
  let keyword (word : String) (reading : Extent → Reading) : Reading × List Char :=
    if cs.take word.length = word.toList then
      let rest := cs.drop word.length
      (reading (.point rest), rest)
    else (.broken, cs)
  match cs with
  | 'n' :: _ => keyword "null" .null
  | 't' :: _ => keyword "true" (.boolean true)
  | 'f' :: _ => keyword "false" (.boolean false)
  | '"' :: rest =>
    match stringBody? rest with
    | none => (.broken, cs)
    | some (body, count) =>
      let rest := rest.drop count
      (.string (String.ofList body) (.point rest), rest)
  | _ =>
    match numeral? cs with
    | none => (.broken, cs)
    | some (numeral, rest) => (numeral.reading (.point rest), rest)

/-- Where a fault of a key shows that ends in front of the given text: behind the white space after
the key, and behind a bracket that closes the table there. -/
def keyExtent (cs : List Char) : Extent :=
  match skipSpace cs with
  | '}' :: rest => .point rest
  | rest => .point rest

mutual

/-- The value at the beginning, which is not white space, and what is behind it.  Sequences and
tables show in front of them, and what they lack shows behind them. -/
def reading (fuel : Nat) (cs : List Char) : Reading × List Char :=
  match fuel with
  | 0 => (.broken, cs)
  | fuel + 1 =>
    match cs with
    | '[' :: rest =>
      match skipSpace rest with
      | ']' :: rest => (.sequence (.point cs) [] (.closed (.point rest)), rest)
      | rest =>
        let (items, ending, rest) := items fuel rest
        (.sequence (.point cs) items ending, rest)
    | '{' :: rest =>
      match skipSpace rest with
      | '}' :: rest => (.table (.point cs) [] (.closed (.point rest)), rest)
      | rest =>
        let (entries, ending, rest) := entries fuel rest
        (.table (.point cs) entries ending, rest)
    | _ => scalar cs

/-- The values of a sequence from the next one on. -/
def items (fuel : Nat) (cs : List Char) : List Reading × Ending × List Char :=
  match fuel with
  | 0 => ([], .broken, cs)
  | fuel + 1 =>
    match cs with
    | [] | ']' :: _ => ([], .broken, cs)
    | _ =>
      let (item, rest) := reading fuel cs
      match skipSpace rest with
      | ']' :: rest => ([item], .closed (.point rest), rest)
      | ',' :: rest =>
        let (others, ending, rest) := items fuel (skipSpace rest)
        (item :: others, ending, rest)
      | rest => ([item], .broken, rest)

/-- The entries of a table from the next one on. -/
def entries (fuel : Nat) (cs : List Char) :
    List (String × Extent × Reading) × Ending × List Char :=
  match fuel with
  | 0 => ([], .broken, cs)
  | fuel + 1 =>
    match cs with
    | '"' :: rest =>
      match stringBody? rest with
      | none => ([], .broken, cs)
      | some (body, count) =>
        let key := String.ofList body
        let rest := rest.drop count
        let extent := keyExtent rest
        match skipSpace rest with
        | ':' :: rest =>
          let (value, rest) := reading fuel (skipSpace rest)
          match skipSpace rest with
          | '}' :: rest => ([(key, extent, value)], .closed (.point rest), rest)
          | ',' :: rest =>
            let (others, ending, rest) := entries fuel (skipSpace rest)
            ((key, extent, value) :: others, ending, rest)
          | rest => ([(key, extent, value)], .broken, rest)
        | rest => ([(key, extent, .broken)], .broken, rest)
    | _ => ([], .broken, cs)

end

/-- The reading of a text, and whether only white space follows the value. -/
def ofText (text : String) : Reading × Bool :=
  let start := skipSpace text.toList
  let (value, rest) := reading (2 * start.length + 1) start
  (value, (skipSpace rest).isEmpty)

end Concordance.Json

namespace Concordance.Definition

def ofJson (text : String) : Except ShapeError Definition := do
  let (reading, isWhole) := Json.ofText text
  let definition ← ofReading false reading
  if isWhole then pure definition else .error .syntactic

end Concordance.Definition
