import Concordance.Name.Element
import Concordance.Order.Ascending

/-!
# The registry of namespaces

A registry binds prefixes to URIs one to one.  It is kept as two tables, one that leads from a
prefix to its URI and one that leads from a URI to its namespace; a binding that would give a prefix
a second URI or a URI a second prefix is refused.
-/

namespace Concordance

/-- Bindings of prefixes to URIs are ordered by the prefixes. -/
def labelCmp : String × String → String × String → Ordering :=
  compareOn Prod.fst

instance : Std.TransCmp labelCmp :=
  inferInstanceAs (Std.TransCmp (compareOn Prod.fst))

/-- Bindings of prefixes to URIs, found by either. -/
structure Registry where
  labels : Ascending labelCmp
  uris : Ascending Namespace.cmp

namespace Registry

/-- The registry without bindings. -/
def empty : Registry :=
  ⟨.empty, .empty⟩

/-- The URI that a prefix is bound to. -/
def uriOf? (registry : Registry) (label : String) : Option String :=
  (registry.labels.toList.find? (·.1 == label)).map Prod.snd

/-- The namespace of a URI. -/
def byUri? (registry : Registry) (uri : String) : Option Namespace :=
  registry.uris.toList.find? (·.uri == uri)

/-- The namespace of a prefix, by way of its URI. -/
def byLabel? (registry : Registry) (label : String) : Option Namespace :=
  (registry.uriOf? label).bind registry.byUri?

/-- Puts a binding into both tables. -/
def insert (registry : Registry) (space : Namespace) : Registry :=
  ⟨registry.labels.insertOver (space.label, space.uri), registry.uris.insertOver space⟩

/-- A call that adds a binding, with the registry that it leaves behind.  A binding that is there
already changes nothing; one that shares only its prefix or only its URI with another is refused
before either table is touched. -/
def register (registry : Registry) (space : Namespace) : Except Fault Unit × Registry :=
  match registry.byUri? space.uri with
  | some existing =>
    if existing.label = space.label then (.ok (), registry)
    else (.error (.uriConflict space.uri existing.label space.label), registry)
  | none =>
    match registry.uriOf? space.label with
    | some existing => (.error (.prefixConflict space.label existing space.uri), registry)
    | none => (.ok (), registry.insert space)

/-- The registry after a call that has to succeed. -/
def registered (registry : Registry) (space : Namespace) : Except Fault Registry :=
  match registry.register space with
  | (.ok (), after) => .ok after
  | (.error fault, _) => .error fault

/-- The registry of the namespaces that need no binding. -/
def builtin : Registry :=
  Namespace.builtins.foldl insert empty

/-- Whether the URI of a namespace is bound. -/
def contains (registry : Registry) (space : Namespace) : Bool :=
  (registry.byUri? space.uri).isSome

/-- The element of a bound prefix and a local name. -/
def element (registry : Registry) (label localName : String) : Except Fault Element :=
  match registry.byLabel? label with
  | some space => Element.inSpace space localName
  | none => .error (.unknownPrefix label)

/-- The bindings, ascending by URI. -/
def toList (registry : Registry) : List Namespace :=
  registry.uris.toList

/-- The number of bindings. -/
def size (registry : Registry) : Nat :=
  registry.uris.size

/-- Whether nothing is bound. -/
def isEmpty (registry : Registry) : Bool :=
  registry.uris.toList.isEmpty

end Registry

end Concordance
