import Concordance.Name.Element

/-!
# Correspondences

One element or attribute of the source vocabulary with the one that takes its place in the target
vocabulary.  Correspondences have two orders: the order of their expanded names, under which equal
means the same correspondence, and the order of their written forms, in which stylesheets list
them.
-/

namespace Concordance

/-- A source element with its target. -/
structure Correspondence where
  source : Element
  target : Element
  deriving DecidableEq

namespace Correspondence

/-- What the two sides are, whatever their prefixes. -/
def expanded (c : Correspondence) : ExpandedName × ExpandedName :=
  (c.source.expanded, c.target.expanded)

/-- The written form `source -> target`. -/
def shown (c : Correspondence) : String :=
  c.source.qualifiedName ++ " -> " ++ c.target.qualifiedName

def elements (c : Correspondence) : List Element :=
  [c.source, c.target]

/-- Correspondences are ordered by source and then by target. -/
def cmp : Correspondence → Correspondence → Ordering :=
  compareLex (compareOn fun c => c.source.expanded) (compareOn fun c => c.target.expanded)

instance : Std.TransCmp cmp :=
  inferInstanceAs (Std.TransCmp
    (compareLex (compareOn fun c : Correspondence => c.source.expanded)
      (compareOn fun c : Correspondence => c.target.expanded)))

/-- The order in which stylesheets list correspondences: by the written target, then by the written
source, then by `cmp`. -/
def canonicalCmp : Correspondence → Correspondence → Ordering :=
  compareLex (compareOn fun c => c.target.qualifiedName)
    (compareLex (compareOn fun c => c.source.qualifiedName) cmp)

instance : Std.TransCmp canonicalCmp :=
  inferInstanceAs (Std.TransCmp
    (compareLex (compareOn fun c : Correspondence => c.target.qualifiedName)
      (compareLex (compareOn fun c : Correspondence => c.source.qualifiedName) cmp)))

/-- The correspondences in the order in which stylesheets list them. -/
def canonical (cs : List Correspondence) : List Correspondence :=
  cs.mergeSort fun a b => (canonicalCmp a b).isLE

end Correspondence

end Concordance
