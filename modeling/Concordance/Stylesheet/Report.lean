import Concordance.Journal.Report
import Concordance.Stylesheet.Template

/-!
# Reports on writing a stylesheet

Each child rule is reported as it is written, and so is a fallback that gives way to an explicit
correspondence; in the end the stylesheet as a whole is.
-/

namespace Concordance

/-- The part of the program that reports on stylesheets. -/
def stylesheetTarget : String := "crosswalk_xsl::writer"

/-- The events of one child rule. -/
def Rule.events (rule : Rule) : List Event :=
  ⟨.debug, stylesheetTarget, "emitting child mapping", [("mapping", .text rule.tag.shown),
      ("attributes", .count rule.attributes.size), ("include_value", .flag rule.keepsText)]⟩ ::
    match rule.fallback with
    | .deferred explicit =>
      [⟨.debug, stylesheetTarget,
        "rdf:resource is mapped explicitly; skipping nested concept fallback",
        [("mapping", .text rule.tag.shown), ("explicit", .text explicit.shown)]⟩]
    | _ => []

namespace Crosswalk

/-- The span of work on a stylesheet. -/
def span (crosswalk : Crosswalk) : Span :=
  ⟨"write_xsl", .debug, stylesheetTarget, [("parent", .text crosswalk.parent.tag.shown)]⟩

/-- The events of writing a stylesheet, if there is one. -/
def events (crosswalk : Crosswalk) (container : Option Element) : List Event :=
  match crosswalk.stylesheet container with
  | .error _ => []
  | .ok text =>
    crosswalk.children.flatMap Rule.events ++
      [⟨.info, stylesheetTarget, "generated dereferencing stylesheet",
        [("bytes", .count text.utf8ByteSize), ("children", .count crosswalk.children.length),
          ("namespaces", .count (crosswalk.declarations container).size)]⟩]

/-- The reports on writing a stylesheet inside the given spans. -/
def reports (crosswalk : Crosswalk) (container : Option Element) (inside : List Span) :
    List Report :=
  (crosswalk.events container).map (.event (inside ++ [crosswalk.span])) ++
    [.closed inside crosswalk.span]

end Crosswalk

end Concordance
