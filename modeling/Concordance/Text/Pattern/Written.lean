import Concordance.Text.Pattern.Basic

/-!
# Written patterns

Reading a pattern from its usual form: a point for any character of a line, brackets for a set of
characters, bars between alternatives, parentheses around groups, and a star, a plus sign or a
question mark behind what is repeated or optional.  A backslash takes the meaning from a mark, or
gives one to a letter.
-/

namespace Concordance.Text

/-- The set of characters that a letter or mark stands for behind a backslash. -/
def escapedClass? (c : Char) : Option CharClass :=
  match c with
  | 'd' => some .digit
  | 'D' => some (.except .digit)
  | 's' => some .space
  | 'S' => some (.except .space)
  | 'w' => some .wordChar
  | 'W' => some (.except .wordChar)
  | 'n' => some (.single '\n')
  | 'r' => some (.single '\r')
  | 't' => some (.single '\t')
  | 'f' => some (.single '\x0c')
  | 'v' => some (.single '\x0b')
  | 'a' => some (.single '\x07')
  | c =>
    if isPrintableMark c then some (.single c) else none
where
  /-- Whether a character is a mark of ASCII. -/
  isPrintableMark (c : Char) : Bool :=
    0x20 < c.toNat && c.toNat < 0x7F && !c.isAlphanum && c != '<' && c != '>'

/-- The set that the rest of a bracket describes, and what is behind the bracket.  `isFirst` says
whether nothing of the set has been read, so that a closing bracket stands for itself. -/
def bracketClass? (fuel : Nat) (isFirst : Bool) (cs : List Char) :
    Option (CharClass × List Char) :=
  match fuel with
  | 0 => none
  | fuel + 1 => do
    let (low, rest) ←
      match cs with
      | [] => none
      | ']' :: rest => if isFirst then some (CharClass.single ']', rest) else none
      | '[' :: _ => none
      | '\\' :: c :: rest => (escapedClass? c).map (·, rest)
      | c :: rest => some (CharClass.single c, rest)
    let (chars, rest) ←
      match low, rest with
      | .range n _, '-' :: c :: rest =>
        if c = ']' then some (low, '-' :: c :: rest)
        else if n ≤ c.toNat then some (.range n c.toNat, rest)
        else none
      | _, _ => some (low, rest)
    match rest with
    | ']' :: rest => some (chars, rest)
    | rest => do
      let (others, rest) ← bracketClass? fuel false rest
      some (.either chars others, rest)

/-- The set that a bracket describes, and what is behind it. -/
def charClass? (cs : List Char) : Option (CharClass × List Char) :=
  match cs with
  | '^' :: rest => (bracketClass? rest.length true rest).map fun set => (.except set.1, set.2)
  | rest => bracketClass? rest.length true rest

/-- What has been read of an open group: the alternatives before the latest bar, what stands before
the latest item, and that item, to which a mark of repetition would belong. -/
structure OpenGroup where
  earlier : Pattern
  before : Pattern
  latest : Option Pattern

namespace OpenGroup

def start : OpenGroup :=
  ⟨.never, .empty, none⟩

/-- The items since the latest bar. -/
def items (group : OpenGroup) : Pattern :=
  group.before.andThen (group.latest.getD .empty)

/-- The group as a pattern. -/
def close (group : OpenGroup) : Pattern :=
  group.earlier.or group.items

/-- The group with one more item. -/
def add (group : OpenGroup) (item : Pattern) : OpenGroup :=
  ⟨group.earlier, group.items, some item⟩

def bar (group : OpenGroup) : OpenGroup :=
  ⟨group.close, .empty, none⟩

/-- The group with a change to its latest item, if there is one. -/
def modify? (group : OpenGroup) (change : Pattern → Pattern) : Option OpenGroup :=
  group.latest.map fun item => { group with latest := some (change item) }

end OpenGroup

/-- What is behind a question mark that only says to repeat as little as possible. -/
def skipLazy : List Char → List Char
  | '?' :: rest => rest
  | cs => cs

namespace Pattern

/-- The pattern that the rest of a text completes, given the innermost open group and those around
it.  The beginning of a text may be marked only there, and its end only at the end. -/
def complete? (fuel : Nat) (group : OpenGroup) (around : List OpenGroup) (cs : List Char) :
    Option Pattern :=
  match fuel with
  | 0 => none
  | fuel + 1 =>
    let repeatedly (change : Pattern → Pattern) (rest : List Char) : Option Pattern := do
      complete? fuel (← group.modify? change) around (skipLazy rest)
    match cs with
    | [] => if around.isEmpty then some group.close else none
    | '(' :: '?' :: ':' :: rest => complete? fuel .start (group :: around) rest
    | '(' :: '?' :: _ => none
    | '(' :: rest => complete? fuel .start (group :: around) rest
    | ')' :: rest =>
      match around with
      | [] => none
      | outer :: around => complete? fuel (outer.add group.close) around rest
    | '|' :: rest => complete? fuel group.bar around rest
    | '*' :: rest => repeatedly .repeated rest
    | '+' :: rest => repeatedly (fun item => item.andThen (.repeated item)) rest
    | '?' :: rest => repeatedly (fun item => item.or .empty) rest
    | '{' :: _ => none
    | '.' :: rest => complete? fuel (group.add (.one .inLine)) around rest
    | '^' :: rest =>
      let isStart := around.isEmpty && group.items = .empty
      complete? fuel (group.add (if isStart then .empty else .never)) around rest
    | '$' :: rest =>
      complete? fuel (group.add (if rest.isEmpty then .empty else .never)) around rest
    | '[' :: rest => do
      let (chars, rest) ← charClass? rest
      complete? fuel (group.add (.one chars)) around rest
    | '\\' :: c :: rest => do
      complete? fuel (group.add (.one (← escapedClass? c))) around rest
    | ['\\'] => none
    | c :: rest => complete? fuel (group.add (.one (.single c))) around rest

def ofText? (text : String) : Option Pattern :=
  complete? (text.toList.length + 1) .start [] text.toList

end Pattern

end Concordance.Text
