import Concordance.Xml.Comment
import Concordance.Xml.Event

/-!
# Scoped writing

A writer collects events and may fail on the way; what it wrote before the failure stays.  An
element is written through a scope: its start tag, then its body, then its end tag, which follows
even when the body fails.  So the tags always match, and the failure of the body is the failure of
the whole.
-/

namespace Concordance.Xml

/-- A writer of events that may fail with an `ε`. -/
abbrev Scoped (ε : Type) := ExceptT ε (StateM (Array Event))

namespace Scoped

variable {ε : Type}

def emit (event : Event) : Scoped ε Unit :=
  modify (·.push event)

/-- Writes the start tag, the body and the end tag, the last even if the body fails. -/
def element (name : String) (attributes : Attributes) (body : Scoped ε Unit) : Scoped ε Unit := do
  emit (.start name attributes)
  let outcome ← ExceptT.lift body.run
  emit (.finish name)
  ExceptT.mk (pure outcome)

/-- Writes a tag without content. -/
def empty (name : String) (attributes : Attributes) : Scoped ε Unit :=
  emit (.empty name attributes)

/-- Writes a comment, made fit to be one. -/
def comment (text : String) : Scoped ε Unit :=
  emit (.comment (commentBody text))

def text (content : String) : Scoped ε Unit :=
  emit (.text content)

/-- What a writer wrote, whether it failed or not. -/
def written (writer : Scoped ε Unit) : List Event :=
  (writer.run.run #[]).2.toList

end Scoped

end Concordance.Xml
