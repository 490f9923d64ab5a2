import Concordance.Text.Quoted

/-!
# What can be wrong with names and crosswalks

Every way in which a namespace, an element, a registry or a crosswalk is refused, with the wording
of each in `Fault.message`.
-/

namespace Concordance

/-- A reason to refuse a name, a binding or a crosswalk. -/
inductive Fault where
  | emptyLocalName
  | invalidLocalName (name : String)
  | emptyPrefix (uri : String)
  | invalidPrefix (label uri : String)
  | emptyUri (label : String)
  | prefixConflict (label existing requested : String)
  | uriConflict (uri existing requested : String)
  | unknownPrefix (label : String)
  | unknownNamespace (element uri : String)
  | missingDocumentId
  deriving Repr, DecidableEq

/-- The wording of a fault. -/
def Fault.message : Fault → String
  | .emptyLocalName => "element local name must not be empty"
  | .invalidLocalName name => "invalid element local name: " ++ Text.quoted name
  | .emptyPrefix uri => "namespace prefix must not be empty (uri " ++ uri ++ ")"
  | .invalidPrefix label uri =>
    "invalid namespace prefix " ++ Text.quoted label ++ " (uri " ++ uri ++ ")"
  | .emptyUri label => "namespace uri must not be empty (prefix " ++ label ++ ")"
  | .prefixConflict label existing requested =>
    "prefix " ++ label ++ " is already bound to " ++ existing ++ ", cannot rebind to " ++ requested
  | .uriConflict uri existing requested =>
    "namespace " ++ uri ++ " is already registered as " ++ existing ++
      ", cannot register as " ++ requested
  | .unknownPrefix label => "unknown namespace prefix: " ++ label
  | .unknownNamespace element uri =>
    "element " ++ element ++ " uses namespace " ++ uri ++ " which is not registered"
  | .missingDocumentId => "mapping has no document identifier element"

end Concordance
