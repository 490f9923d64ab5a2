/-!
# Escape sequences

A terminal takes a sequence behind the escape character as a command and shows nothing of it.  A
text with such commands shows what is between them.  A style set by a command lasts until it is
reset, so that a text that is cut into lines has to reset its styles at the end of each line and to
set them again on the next one.
-/

namespace Concordance.Escape

/-- Whether the code point of a character is in a closed range. -/
def isBetween (low high : Nat) (c : Char) : Bool :=
  low ≤ c.toNat && c.toNat ≤ high

/-- The length of the part of a command behind its mark: parameters, intermediate characters and a
final one. -/
def tailLength? (isParameter isFinal : Char → Bool) (cs : List Char) : Option Nat :=
  let behind := (cs.dropWhile isParameter).dropWhile (isBetween 0x20 0x2F)
  match behind with
  | final :: _ => if isFinal final then some (cs.length - behind.length + 1) else none
  | [] => none

/-- The length of a text up to the bell or the string terminator that ends it. -/
def stringLength? : List Char → Option Nat
  | [] => none
  | '\x07' :: _ => some 1
  | '\x1b' :: '\\' :: _ => some 2
  | _ :: rest => (stringLength? rest).map (· + 1)

/-- The length of a command behind the escape character: a control sequence, a string for the
system, or a plain command. -/
def commandLength? (cs : List Char) : Option Nat :=
  let marked :=
    match cs with
    | '[' :: rest => tailLength? (isBetween 0x30 0x3F) (isBetween 0x40 0x7E) rest
    | ']' :: rest => stringLength? rest
    | _ => none
  match marked with
  | some length => some (length + 1)
  | none => tailLength? (fun _ => false) (isBetween 0x30 0x7E) cs

/-- What a terminal shows of a text. -/
def visible (cs : List Char) : List Char :=
  match cs with
  | [] => []
  | '\x1b' :: rest =>
    match commandLength? rest with
    | some length => visible (rest.drop length)
    | none => '\x1b' :: visible rest
  | c :: rest => c :: visible rest
termination_by cs.length
decreasing_by all_goals simp; try omega

/-- How much of a style has been read behind the escape character. -/
inductive StyleState where
  | marked
  | bracketed
  | opened
  | digits (count : Nat)
  | parted
  | ended
  deriving Repr, DecidableEq

namespace StyleState

/-- Whether a character ends a style. -/
def isEnd (c : Char) : Bool :=
  isBetween 0x41 0x50 c || c == 'R' || c == 'Z' || c == 'c' || isBetween 0x66 0x6E c || c == 'q' ||
    c == 'r' || c == 'y' || c == '=' || c == '>' || c == '<'

/-- How much has been read with one character more, if a style can go on with it.  A parameter has
four digits at most, and a digit may also end the style. -/
def next? (state : StyleState) (c : Char) : Option StyleState :=
  match state with
  | .ended => none
  | .marked | .bracketed | .opened =>
    if c == '(' || c == ')' then some (if state = .marked then .bracketed else .opened)
    else if c == ';' || c == '[' || c == ']' || c == '#' || c == '?' then some .opened
    else if state = .bracketed && isBetween 0x30 0x32 c then some .ended
    else if c.isDigit then some (.digits 1)
    else if isEnd c then some .ended
    else none
  | .digits count =>
    if 4 < count then none
    else if c.isDigit then some (.digits (count + 1))
    else if c == ';' then some .parted
    else if isEnd c then some .ended
    else none
  | .parted =>
    if c == ';' then some .parted
    else if c.isDigit then some (.digits 1)
    else if isEnd c then some .ended
    else none

/-- Whether what has been read is a whole style. -/
def isWhole : StyleState → Bool
  | .digits _ | .ended => true
  | _ => false

/-- The length of the longest style at the beginning, if there is one, in which `read` characters
come before. -/
def length? (state : StyleState) (read : Nat) : List Char → Option Nat
  | [] => if state.isWhole then some read else none
  | c :: rest =>
    match state.next? c with
    | some next => (next.length? (read + 1) rest).or (if state.isWhole then some read else none)
    | none => if state.isWhole then some read else none

end StyleState

/-- The styles that a text sets, each with its escape character. -/
def styles (cs : List Char) : List String :=
  match cs with
  | [] => []
  | c :: rest =>
    if c = '\x1b' ∨ c = '\u009b' then
      match StyleState.marked.length? 0 rest with
      | some length => String.ofList (c :: rest.take length) :: styles (rest.drop length)
      | none => styles rest
    else styles rest
termination_by cs.length
decreasing_by all_goals simp; try omega

def reset : String := "\x1b[0m"

/-- The styles that last behind a text, given those that last before it. -/
def lasting (before : List String) (text : String) : List String :=
  (styles text.toList).foldl (fun set style => if style = reset then [] else set ++ [style]) before

/-- Lines of which each sets the styles that last before it and resets those that last behind
it. -/
def balanced (before : List String) : List String → List String
  | [] => []
  | line :: rest =>
    let behind := lasting before line
    (String.join before ++ line ++ (if behind.isEmpty then "" else reset)) :: balanced behind rest

end Concordance.Escape
