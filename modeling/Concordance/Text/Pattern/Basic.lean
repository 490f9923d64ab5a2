import Concordance.Text.Blank
import Concordance.Text.Letters

/-!
# Patterns

A regular pattern describes a set of texts.  Whether a text is in the set is found out by taking
derivatives: the derivative of a pattern by a character describes what may follow the character, and
a pattern accepts a text if its derivative by all characters of the text admits the empty text.
-/

namespace Concordance.Text

/-- A set of characters. -/
inductive CharClass where
  | range (low high : Nat)
  | digit
  | space
  | wordChar
  | none
  | either (a b : CharClass)
  | except (a : CharClass)
  deriving Repr, DecidableEq

namespace CharClass

/-- Whether the set holds a character. -/
def holds : CharClass → Char → Bool
  | .range low high, c => low ≤ c.toNat && c.toNat ≤ high
  | .digit, c => c.isDigit
  | .space, c => isSpace c
  | .wordChar, c => isAlphanumeric c || c == '_'
  | .none, _ => false
  | .either a b, c => a.holds c || b.holds c
  | .except a, c => !a.holds c

def single (c : Char) : CharClass :=
  .range c.toNat c.toNat

/-- Every character that may stand within a line. -/
def inLine : CharClass :=
  .except (single '\n')

end CharClass

/-- A regular pattern. -/
inductive Pattern where
  | never
  | empty
  | one (chars : CharClass)
  | either (a b : Pattern)
  | chain (a b : Pattern)
  | repeated (a : Pattern)
  deriving Repr, DecidableEq

namespace Pattern

/-- One pattern or the other, in a simple form. -/
def or (a b : Pattern) : Pattern :=
  if a = .never then b else if b = .never then a else if a = b then a else .either a b

/-- One pattern and then the other, in a simple form. -/
def andThen (a b : Pattern) : Pattern :=
  if a = .never ∨ b = .never then .never
  else if a = .empty then b
  else if b = .empty then a
  else .chain a b

def admitsEmpty : Pattern → Bool
  | .never | .one _ => false
  | .empty | .repeated _ => true
  | .either a b => a.admitsEmpty || b.admitsEmpty
  | .chain a b => a.admitsEmpty && b.admitsEmpty

/-- What may follow a character. -/
def derivative (c : Char) : Pattern → Pattern
  | .never | .empty => .never
  | .one chars => if chars.holds c then .empty else .never
  | .either a b => (a.derivative c).or (b.derivative c)
  | .chain a b =>
    if a.admitsEmpty then ((a.derivative c).andThen b).or (b.derivative c)
    else (a.derivative c).andThen b
  | .repeated a => (a.derivative c).andThen (.repeated a)

def accepts (pattern : Pattern) (text : String) : Bool :=
  (text.toList.foldl (fun pattern c => pattern.derivative c) pattern).admitsEmpty

end Pattern

end Concordance.Text
