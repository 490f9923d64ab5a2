import Concordance.Journal.Report
import Concordance.Text.Pattern.Written

/-!
# Directives

A directive admits reports up to a level.  It may be limited to targets that begin in a certain way,
to what happens inside spans of a certain name, and to what has certain fields, which in a span may
have to have certain values.
-/

namespace Concordance

/-- How far reports are admitted: the rank of the last level that is, or zero for none. -/
abbrev Threshold := Nat

def Threshold.all : Threshold := 5

/-- The names of the thresholds, from nothing to everything. -/
def Threshold.names : List String :=
  ["off", "error", "warn", "info", "debug", "trace"]

/-- The number that digits write, with a plus sign allowed in front. -/
def plainNumber? (cs : List Char) : Option Nat :=
  let digits := if cs.head? = some '+' then cs.tail else cs
  if digits.isEmpty || !digits.all Char.isDigit then none
  else some (digits.foldl (fun n c => 10 * n + (c.toNat - '0'.toNat)) 0)

/-- The threshold of a name, in letters of either case, or of a rank. -/
def Threshold.ofText? (text : String) : Option Threshold :=
  match plainNumber? text.toList with
  | some rank => if rank ≤ all then some rank else none
  | none => names.idxOf? text.toLower

/-- What is asked of the value of a field: a truth value, a number, or a text that a pattern
accepts. -/
inductive ValueTest where
  | flag (value : Bool)
  | count (value : Nat)
  /-- A number that no count is equal to. -/
  | otherNumber (written : String)
  | text (written : String) (pattern : Text.Pattern)
  deriving Repr, DecidableEq

namespace ValueTest

/-- Whether characters write a number with a sign, a point or an exponent, or a number that is
infinite or none. -/
def isNumber (cs : List Char) : Bool :=
  let unsigned := if cs.head? = some '-' ∨ cs.head? = some '+' then cs.tail else cs
  let isMark (c : Char) : Bool := c == 'e' || c == 'E'
  let mantissa := unsigned.takeWhile (fun c => !isMark c)
  let exponent :=
    match unsigned.dropWhile (fun c => !isMark c) with
    | [] => ['0']
    | _ :: '-' :: rest | _ :: '+' :: rest => rest
    | _ :: rest => rest
  let digits := mantissa.filter Char.isDigit
  ["inf", "infinity", "nan"].contains (String.ofList unsigned).toLower ||
    (!digits.isEmpty && mantissa.all (fun c => c.isDigit || c == '.') &&
      mantissa.count '.' ≤ 1 && !exponent.isEmpty && exponent.all Char.isDigit)

def ofText? (text : String) : Option ValueTest :=
  if text = "true" then some (.flag true)
  else if text = "false" then some (.flag false)
  else
    match plainNumber? text.toList with
    | some n => if n < UInt64.size then some (.count n) else some (.otherNumber text)
    | none =>
      if isNumber text.toList then some (.otherNumber text)
      else (Text.Pattern.ofText? text).map (.text text)

def accepts : ValueTest → FieldValue → Bool
  | .flag value, .flag other => value == other
  | .count value, .count other => value == other
  | .text _ pattern, .text other => pattern.accepts other
  | _, _ => false

def written : ValueTest → String
  | .flag value => toString value
  | .count value => toString value
  | .otherNumber written | .text written _ => written

end ValueTest

/-- A field that is asked for, and what is asked of its value. -/
structure FieldTest where
  name : String
  value : Option ValueTest
  deriving Repr, DecidableEq

/-- The test of a field that a text writes: its name, and behind an equals sign its value up to
another one. -/
def FieldTest.ofText? (cs : List Char) : Option FieldTest :=
  match cs.splitOn '=' with
  | name :: value :: _ => do
    some ⟨String.ofList name, some (← ValueTest.ofText? (String.ofList value))⟩
  | _ => some ⟨String.ofList cs, none⟩

/-- A directive: what it is limited to, with a threshold. -/
structure Directive where
  target : Option String
  span : Option String
  fields : List FieldTest
  threshold : Threshold
  deriving Repr, DecidableEq

namespace Directive

/-- The directive on targets that begin in a certain way, or on all. -/
def onTarget (target : Option String) (threshold : Threshold) : Directive :=
  ⟨target, none, [], threshold⟩

/-- The threshold behind the equals sign of a directive; an empty one admits everything. -/
def thresholdOf? (cs : List Char) : Option Threshold :=
  if cs.isEmpty then some Threshold.all else Threshold.ofText? (String.ofList cs)

/-- The directive whose span is closed by the bracket at an index of the trimmed text.  Indexes
count in the whole text, in which white space at the beginning is not skipped. -/
def closedSpan? (raw text : List Char) (close : Nat) (target span : Option String)
    (fields : List FieldTest) : Option Directive :=
  match text.drop close with
  | [']'] => some ⟨target, span, fields, Threshold.all⟩
  | ']' :: '=' :: _ => do some ⟨target, span, fields, ← thresholdOf? (raw.drop (close + 2))⟩
  | _ => none

/-- The directive on a span whose name begins at an index of the trimmed text.  The name counts even
if it is empty, unless a field follows. -/
def onSpan? (raw text : List Char) (target : Option String) (start : Nat) : Option Directive := do
  let written := (text.drop start).takeWhile fun c => c ≠ ']' && c ≠ '{'
  let name := (raw.drop start).take written.length
  let stop := start + written.length
  match text.drop stop with
  | '{' :: rest => do
    let field := (raw.drop (stop + 1)).take (rest.takeWhile (· ≠ '}')).length
    let closing := stop + 1 + field.length
    guard (!field.isEmpty && text[closing]? = some '}')
    let span := if name.isEmpty then none else some (String.ofList name)
    closedSpan? raw text (closing + 1) target span [← FieldTest.ofText? field]
  | _ => closedSpan? raw text stop target (some (String.ofList name)) []

def ofText? (raw : List Char) : Option Directive := do
  let text := Text.trimEnd (raw.dropWhile Text.isSpace)
  match text with
  | [] => none
  | '[' :: _ => onSpan? raw text none 1
  | first :: _ =>
    if !(Text.isAlphanumeric first || first == '-' || first == ':' || first == '_') then none
    else
      let head := text.takeWhile fun c => c ≠ '=' && c ≠ '['
      let target := String.ofList (raw.take head.length)
      match text.drop head.length with
      | [] =>
        match Threshold.ofText? (String.ofList raw) with
        | some threshold => some (onTarget none threshold)
        | none => some (onTarget (some (String.ofList raw)) Threshold.all)
      | '=' :: _ => do some (onTarget (some target) (← thresholdOf? (raw.drop (head.length + 1))))
      | _ => onSpan? raw text (some target) (head.length + 1)

/-- Whether the target of the directive is a beginning of the given one. -/
def coversTarget (directive : Directive) (target : String) : Bool :=
  match directive.target with
  | some beginning => beginning.toList.isPrefixOf target.toList
  | none => true

/-- Whether all fields of the directive are among the given ones. -/
def coversFields (directive : Directive) (names : List String) : Bool :=
  directive.fields.all fun field => names.contains field.name

/-- Whether the directive asks for the value of a field. -/
def asksForValue (directive : Directive) : Bool :=
  directive.fields.any fun field => field.value.isSome

/-- Whether the directive decides on what happens inside spans. -/
def isOnSpans (directive : Directive) : Bool :=
  directive.span.isSome || !directive.fields.isEmpty

/-- Whether the directive decides on reports wherever they are made. -/
def isAnywhere (directive : Directive) : Bool :=
  directive.span.isNone && !directive.asksForValue

/-- Whether the directive is on spans like the given one, whatever the values of its fields. -/
def coversSpan (directive : Directive) (span : Span) : Bool :=
  directive.isOnSpans && directive.coversTarget span.target &&
    (directive.span.isNone || directive.span == some span.name) &&
    directive.coversFields (span.fields.map Prod.fst)

/-- Whether the fields of a span have the values that the directive asks for. -/
def acceptsValues (directive : Directive) (span : Span) : Bool :=
  directive.fields.all fun field =>
    match field.value with
    | none => true
    | some test => span.fields.any fun entry => entry.1 == field.name && test.accepts entry.2

/-- How specific the target of the directive is. -/
def targetRank (directive : Directive) : Nat :=
  match directive.target with
  | some beginning => beginning.utf8ByteSize + 1
  | none => 0

/-- Whether two directives differ in their thresholds only. -/
def isOnSame (a b : Directive) : Bool :=
  a.target == b.target && a.span == b.span && a.fields == b.fields

/-- Whether the first of two directives on one report comes before the second: the longer target
does, then more fields, then the names of the fields that come later in the alphabet. -/
def precedes (a b : Directive) : Bool :=
  let names (d : Directive) : List String := d.fields.map FieldTest.name
  match compare b.targetRank a.targetRank with
  | .lt => true
  | .gt => false
  | .eq =>
    match compare b.fields.length a.fields.length with
    | .lt => true
    | .gt => false
    | .eq => decide (names b < names a)

end Directive

end Concordance
