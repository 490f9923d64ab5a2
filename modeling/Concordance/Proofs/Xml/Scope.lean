import Concordance.Xml.Markup

/-!
# What scoped writers write

A writer run from some events gives an outcome and the events with its own behind them.
-/

namespace Concordance.Xml

namespace Scoped

variable {ε : Type}

theorem run_emit (event : Event) (before : Array Event) :
    (emit event : Scoped ε Unit).run.run before = (.ok (), before.push event) := rfl

/-- The end tag follows the body, whatever becomes of it. -/
theorem run_element (name : String) (attributes : Attributes) (body : Scoped ε Unit)
    (before : Array Event) :
    (element name attributes body).run.run before =
      ((body.run.run (before.push (.start name attributes))).1,
        (body.run.run (before.push (.start name attributes))).2.push (.finish name)) := rfl

theorem run_bind (first second : Scoped ε Unit) (before : Array Event) :
    (first >>= fun _ => second).run.run before =
      match first.run.run before with
      | (.ok _, after) => second.run.run after
      | (.error e, after) => (.error e, after) := by
  rw [ExceptT.run_bind, StateT.run_bind]
  change (match first.run.run before with | (outcome, after) => _) = _
  rcases first.run.run before with ⟨outcome, after⟩
  cases outcome <;> rfl

end Scoped

/-! ## Trees -/

namespace Markup

mutual

def events : Markup → List Event
  | .element name attributes content =>
    .start name attributes :: (eventsAll content ++ [.finish name])
  | .empty name attributes => [.empty name attributes]
  | .comment body => [.comment (commentBody body)]
  | .text content => [.text content]

def eventsAll : List Markup → List Event
  | [] => []
  | item :: rest => events item ++ eventsAll rest

end

mutual

theorem run_write {ε : Type} (item : Markup) (before : Array Event) :
    (item.write : Scoped ε Unit).run.run before = (.ok (), before ++ item.events.toArray) := by
  cases item with
  | element name attributes content =>
    rw [write, Scoped.run_element, run_writeAll content, events]
    simp
  | empty name attributes =>
    rw [write, Scoped.empty, Scoped.run_emit, events]
    simp
  | comment body =>
    rw [write, Scoped.comment, Scoped.run_emit, events]
    simp
  | text content =>
    rw [write, Scoped.text, Scoped.run_emit, events]
    simp

theorem run_writeAll {ε : Type} (items : List Markup) (before : Array Event) :
    (writeAll items : Scoped ε Unit).run.run before =
      (.ok (), before ++ (eventsAll items).toArray) := by
  cases items with
  | nil =>
    rw [writeAll, eventsAll, Array.append_empty]
    rfl
  | cons item rest =>
    rw [writeAll, Scoped.run_bind, run_write item, eventsAll]
    simp only [run_writeAll rest]
    simp

end

theorem documentEvents_eq (root : Markup) : documentEvents root = .declaration :: root.events := by
  rw [documentEvents, Scoped.written, Scoped.run_bind, Scoped.run_emit]
  simp only [run_write root]
  simp

end Markup

end Concordance.Xml
