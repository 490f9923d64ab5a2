import Concordance.Definition.Basic
import Concordance.Mapping.Crosswalk

/-!
# Resolving a definition

The written names of a definition are looked up in the builtin namespaces and those that the
definition binds.  The first name that cannot be resolved ends it, with the place where it stands.
-/

namespace Concordance

/-- Why a definition does not resolve. -/
inductive ResolveError where
  /-- The prefix of a name is not bound. -/
  | unknownPrefix (label place : String)
  /-- A name is not of the form `prefix:local`. -/
  | invalidName (name : String)
  /-- A namespace or an element was refused. -/
  | fault (cause : Fault)
  deriving Repr, DecidableEq

def ResolveError.message : ResolveError → String
  | .unknownPrefix label place => "unknown namespace prefix " ++ label ++ " in " ++ place
  | .invalidName name => "invalid qualified name " ++ Text.quoted name ++ " (expected prefix:name)"
  | .fault cause => cause.message

/-- The two sides of the first colon, if neither is empty. -/
def splitName? (name : String) : Option (String × String) :=
  let label := name.toList.takeWhile (· ≠ ':')
  match name.toList.dropWhile (· ≠ ':') with
  | _ :: first :: rest =>
    if label.isEmpty then none else some (String.ofList label, String.ofList (first :: rest))
  | _ => none

/-- The element of a written name, with white space around the name allowed. -/
def Registry.resolve (registry : Registry) (name place : String) : Except ResolveError Element :=
  match splitName? (Text.trim name) with
  | none => .error (.invalidName name)
  | some (label, localName) =>
    match registry.byLabel? label with
    | none => .error (.unknownPrefix label place)
    | some space => (Element.inSpace space localName).mapError .fault

/-- The correspondence of two written names. -/
def Registry.resolvePair (registry : Registry) (source target place : String) :
    Except ResolveError Correspondence := do
  let source ← registry.resolve source place
  let target ← registry.resolve target place
  pure ⟨source, target⟩

/-- The rule that a rule definition describes. -/
def RuleDefinition.resolve (rule : RuleDefinition) (registry : Registry) (place : String) :
    Except ResolveError Rule := do
  let tag ← registry.resolvePair rule.source rule.target place
  let attributes ← rule.attributes.mapM fun a =>
    registry.resolvePair a.source a.target (place ++ ".attributes")
  pure (((Rule.ofTag tag).withAttributes attributes).withText rule.keepsText)

/-- What a definition resolves to. -/
structure Resolved where
  registry : Registry
  crosswalk : Crosswalk
  container : Option Element

namespace Definition

/-- The builtin namespaces with those that bindings add, in order of prefix. -/
def registryOf (bindings : List (String × String)) : Except ResolveError Registry :=
  bindings.foldlM (fun registry binding => do
      let space ← (Namespace.ofPair binding.1 binding.2).mapError .fault
      (registry.registered space).mapError .fault)
    Registry.builtin

/-- The rules of the children, each with the place where it stands, counted from `first`. -/
def resolveChildren (registry : Registry) :
    Nat → List RuleDefinition → Except ResolveError (List Rule)
  | _, [] => pure []
  | index, rule :: rest => do
    let child ← rule.resolve registry ("mapping.children[" ++ toString index ++ "]")
    let others ← resolveChildren registry (index + 1) rest
    pure (child :: others)

/-- The element of a name that may be missing. -/
def resolveOptional (registry : Registry) (name : Option String) (place : String) :
    Except ResolveError (Option Element) :=
  match name with
  | some name => (registry.resolve name place).map some
  | none => .ok none

/-- The crosswalk of a definition, with the registry of its namespaces and its record container.
A definition without a record identifier resolves; only its stylesheet cannot be written. -/
def resolve (definition : Definition) : Except ResolveError Resolved := do
  let registry ← registryOf definition.bindings.toList
  let parent ← definition.parent.resolve registry "mapping.parent"
  let children ← resolveChildren registry 0 definition.children
  let documentId ← resolveOptional registry definition.documentId "mapping.document_id"
  let container ← resolveOptional registry definition.container "output.record_container"
  let crosswalk := (Crosswalk.ofParent parent).withChildren children
  pure ⟨registry, { crosswalk with documentId }, container⟩

end Definition

end Concordance
