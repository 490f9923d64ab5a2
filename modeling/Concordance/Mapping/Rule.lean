import Concordance.Mapping.Correspondence
import Concordance.Order.Ascending

/-!
# Rules

A rule says what becomes of one tag: the tag that takes its place, the set of attributes that are
copied to it under other names, and whether its text is copied.
-/

namespace Concordance

/-- The correspondence of a tag with those of its attributes. -/
structure Rule where
  tag : Correspondence
  attributes : Ascending Correspondence.cmp
  keepsText : Bool

namespace Rule

/-- The rule of a tag alone. -/
def ofTag (tag : Correspondence) : Rule :=
  ⟨tag, .empty, false⟩

/-- Adds an attribute correspondence; one that is there already stays as it is. -/
def withAttribute (rule : Rule) (copied : Correspondence) : Rule :=
  { rule with attributes := rule.attributes.insertNew copied }

/-- Adds attribute correspondences one after another. -/
def withAttributes (rule : Rule) (attributes : List Correspondence) : Rule :=
  attributes.foldl withAttribute rule

/-- Sets whether the text of the tag is copied. -/
def withText (rule : Rule) (keepsText : Bool) : Rule :=
  { rule with keepsText }

/-- The attribute correspondences in the order in which stylesheets list them. -/
def canonicalAttributes (rule : Rule) : List Correspondence :=
  Correspondence.canonical rule.attributes.toList

/-- Every element that the rule names: the two sides of the tag, then those of each attribute. -/
def elements (rule : Rule) : List Element :=
  rule.tag.elements ++ rule.attributes.toList.flatMap Correspondence.elements

/-- What the rule says, whatever the prefixes of its names. -/
def expanded (rule : Rule) :
    (ExpandedName × ExpandedName) × List (ExpandedName × ExpandedName) × Bool :=
  (rule.tag.expanded, rule.attributes.toList.map Correspondence.expanded, rule.keepsText)

end Rule

end Concordance
