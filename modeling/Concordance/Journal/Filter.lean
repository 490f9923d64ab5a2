import Concordance.Journal.Directive

/-!
# Filters on reports

A filter is a list of directives.  Of those that decide on reports wherever they are made, the most
specific one decides, and of two on the same the later.  A report inside a span is also admitted as
far as any directive on the span goes.  A span that a directive is on is shown itself, unless its
level is beyond that of every directive.
-/

namespace Concordance

/-- A list of directives, in the order in which they are written. -/
structure Filter where
  directives : List Directive
  deriving Repr, DecidableEq

namespace Filter

/-- The filter that a text writes, its directives separated by commas.  One without directives
admits errors. -/
def ofText? (text : String) : Option Filter := do
  let written := (text.toList.splitOn ',').filter (!·.isEmpty)
  let directives ← written.mapM Directive.ofText?
  some ⟨if directives.isEmpty then [.onTarget none Level.error.rank] else directives⟩

/-- The directive that decides of those so far and one more. -/
def deciding (best : Option Directive) (directive : Directive) : Option Directive :=
  match best with
  | some other => if other.precedes directive then best else some directive
  | none => some directive

/-- Whether the deciding one of some directives admits a level. -/
def admitsBy (directives : List Directive) (level : Level) : Bool :=
  match directives.foldl deciding none with
  | some directive => level.rank ≤ directive.threshold
  | none => false

/-- The directives that decide on reports of a target wherever they are made. -/
def anywhere (filter : Filter) (target : String) : List Directive :=
  filter.directives.filter fun d => d.isAnywhere && d.coversTarget target

/-- The directives on spans, of which the later stands for all on the same. -/
def onSpans (filter : Filter) : List Directive :=
  (filter.directives.filter Directive.isOnSpans).foldl
    (fun kept directive => kept.filter (!·.isOnSame directive) ++ [directive]) []

/-- How far reports inside a span are admitted by the directives on it; nothing if there are
none. -/
def spanThreshold? (filter : Filter) (span : Span) : Option Threshold :=
  match filter.onSpans.filter (·.coversSpan span) with
  | [] => none
  | covering =>
    some ((covering.filter (·.acceptsValues span)).foldl
      (fun highest directive => max highest directive.threshold) 0)

/-- Whether something of a level is admitted for the sake of the spans around it. -/
def admitsInside (filter : Filter) (inside : List Span) (level : Level) : Bool :=
  inside.any fun span =>
    match filter.spanThreshold? span with
    | some threshold => level.rank ≤ threshold
    | none => false

/-- Whether an event inside the given open spans is admitted. -/
def admits (filter : Filter) (inside : List Span) (event : Event) : Bool :=
  filter.admitsInside inside event.level ||
    admitsBy ((filter.anywhere event.target).filter
      (·.coversFields ("message" :: event.fields.map Prod.fst))) event.level

/-- The highest threshold of any directive, beyond which nothing is admitted; where the values of
fields matter, there is no such bound. -/
def highest (filter : Filter) : Threshold :=
  if filter.directives.any Directive.asksForValue then Threshold.all
  else filter.directives.foldl (fun highest directive => max highest directive.threshold) 0

/-- Whether a span that opens inside the given spans is shown. -/
def admitsSpan (filter : Filter) (inside : List Span) (span : Span) : Bool :=
  span.level.rank ≤ filter.highest &&
    ((filter.spanThreshold? span).isSome || filter.admitsInside inside span.level ||
      admitsBy (filter.anywhere span.target) span.level)

/-- The spans that are shown, of those given from the outermost on. -/
def shownSpans (filter : Filter) (spans : List Span) : List Span :=
  spans.foldl (fun shown span => if filter.admitsSpan shown span then shown ++ [span] else shown) []

end Filter

end Concordance
