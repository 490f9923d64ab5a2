import Concordance.Order.Ascending

/-!
# Mapping definitions

What a definition file says, with every name still as it is written: the namespaces that it binds,
the rules of a crosswalk, the record identifier and the record container.
-/

namespace Concordance

/-- The names of a source attribute and of its target. -/
structure AttributeDefinition where
  source : String
  target : String
  deriving Repr, DecidableEq

/-- The names of a source tag and of its target, with the attributes and the text to copy. -/
structure RuleDefinition where
  source : String
  target : String
  keepsText : Bool
  attributes : List AttributeDefinition
  deriving Repr, DecidableEq

/-- Bindings of prefixes to URIs, ascending by prefix. -/
abbrev Bindings := Ascending (compareOn fun binding : String × String => binding.1)

/-- The content of a definition file. -/
structure Definition where
  bindings : Bindings
  documentId : Option String
  parent : RuleDefinition
  children : List RuleDefinition
  container : Option String

end Concordance
