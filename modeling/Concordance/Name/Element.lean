import Concordance.Name.Namespace

/-!
# Elements

An element, or an attribute, is named by a namespace and a local name.  What it is shows in its
expanded name, the URI with the local name; the prefix only shows in its written form
`prefix:local`.
-/

namespace Concordance

/-- A namespace URI with a local name. -/
structure ExpandedName where
  uri : String
  localName : String
  deriving Repr, DecidableEq

/-- Expanded names are ordered by URI and then by local name. -/
instance : Ord ExpandedName :=
  ⟨compareLex (compareOn ExpandedName.uri) (compareOn ExpandedName.localName)⟩

instance : Std.TransOrd ExpandedName :=
  inferInstanceAs
    (Std.TransCmp (compareLex (compareOn ExpandedName.uri) (compareOn ExpandedName.localName)))

/-- A name in a namespace. -/
structure Element where
  space : Namespace
  localName : String
  localName_isName : isNCName localName = true

namespace Element

instance : DecidableEq Element := fun first second =>
  decidable_of_iff (first.space = second.space ∧ first.localName = second.localName)
    (by cases first; cases second; simp)

/-- The element of a local name in a namespace, or what is wrong with the name. -/
def inSpace (space : Namespace) (localName : String) : Except Fault Element :=
  if localName = "" then .error .emptyLocalName
  else if h : isNCName localName = true then .ok ⟨space, localName, h⟩
  else .error (.invalidLocalName localName)

/-- What the element is, whatever its prefix. -/
def expanded (element : Element) : ExpandedName :=
  ⟨element.space.uri, element.localName⟩

/-- The written form `prefix:local`. -/
def qualifiedName (element : Element) : String :=
  element.space.label ++ ":" ++ element.localName

/-- Elements are ordered by their expanded names. -/
def cmp : Element → Element → Ordering :=
  compareOn expanded

end Element

end Concordance
