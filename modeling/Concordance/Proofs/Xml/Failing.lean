import Concordance.Proofs.Xml.Scope

/-!
# Writers that fail

A writer makes calls one after another, and each element has a body of such calls.  A body may fail
anywhere, and then all bodies around it fail as well.  Up to the failure everything is written that
was going to be; after it only the end tags of the elements that are open, the innermost first.
-/

namespace Concordance.Xml

/-! ## Open elements -/

/-- The names of the elements that are open behind an event, the innermost first, given those before
it.  There are none behind an end tag that is not that of the innermost element. -/
def nested? (names : List String) : Event → Option (List String)
  | .start name _ => some (name :: names)
  | .finish name => if names.head? = some name then some names.tail else none
  | _ => some names

/-- The names of the elements that are open behind some events. -/
def opened? (names : List String) (events : List Event) : Option (List String) :=
  events.foldlM nested? names

/-- The end tags of some elements. -/
def endTags (names : List String) : List Event :=
  names.map .finish

@[simp]
theorem endTags_nil : endTags [] = [] := rfl

@[simp]
theorem endTags_concat (names : List String) (name : String) :
    endTags (names ++ [name]) = endTags names ++ [.finish name] :=
  List.map_append

theorem opened?_append (names : List String) (first second : List Event) :
    opened? names (first ++ second) =
      (opened? names first).bind fun between => opened? between second :=
  List.foldlM_append

/-- End tags in their order close what is open. -/
theorem opened?_endTags (names outer : List String) :
    opened? (names ++ outer) (endTags names) = some outer := by
  induction names with
  | nil => rfl
  | cons name names ih =>
    have hlast : nested? (name :: names ++ outer) (.finish name) = some (names ++ outer) :=
      if_pos rfl
    rw [opened?, endTags, List.map_cons, List.foldlM_cons, hlast]
    exact ih

/-! ## Steps and failures -/

namespace Scoped

variable {ε : Type}

/-- What becomes of steps, each an event that is going to be written or a failure.  The events
before the first failure are written, which leaves the named elements open, and the failure is the
outcome.  Without a failure all is written and nothing is left open. -/
structure CarriedOut (steps : List (Except ε Event)) (outcome : Except ε Unit) (events : List Event)
    (names : List String) : Prop where
  opened : ∀ outer, opened? outer events = some (names ++ outer)
  ends : match outcome with
    | .ok () => steps = events.map .ok ∧ names = []
    | .error error => ∃ rest, steps = events.map .ok ++ .error error :: rest

/-- A writer takes such steps, and after a failure closes what is open. -/
def Takes (writer : Scoped ε Unit) (steps : List (Except ε Event)) : Prop :=
  ∀ before : Array Event, ∃ outcome events names,
    writer.run.run before = (outcome, before ++ (events ++ endTags names).toArray) ∧
      CarriedOut steps outcome events names

theorem takes_pure : Takes (pure () : Scoped ε Unit) [] := by
  intro before
  have hrun : (pure () : Scoped ε Unit).run.run before = (.ok (), before) := rfl
  refine ⟨.ok (), [], [], ?_, fun outer => rfl, rfl, rfl⟩
  simpa using hrun

theorem takes_throw (error : ε) : Takes (throw error) [.error error] := by
  intro before
  have hrun : (throw error : Scoped ε Unit).run.run before = (.error error, before) := rfl
  refine ⟨.error error, [], [], ?_, fun outer => rfl, [], rfl⟩
  simpa using hrun

theorem takes_emit {event : Event} (h : ∀ names, nested? names event = some names) :
    Takes (emit event : Scoped ε Unit) [.ok event] := by
  intro before
  refine ⟨.ok (), [event], [], by simp [run_emit], fun outer => ?_, rfl, rfl⟩
  rw [opened?, List.foldlM_cons, h]
  rfl

section Composed

variable {first second body : Scoped ε Unit} {steps steps' : List (Except ε Event)}

theorem Takes.bind (h : Takes first steps) (h' : Takes second steps') :
    Takes (first >>= fun _ => second) (steps ++ steps') := by
  intro before
  obtain ⟨outcome, events, names, hrun, hopened, hends⟩ := h before
  rw [run_bind, hrun]
  cases outcome with
  | ok _ =>
    obtain ⟨hsteps, rfl⟩ := hends
    obtain ⟨outcome', events', names', hrun', hopened', hends'⟩ := h' (before ++ events.toArray)
    refine ⟨outcome', events ++ events', names', ?_, fun outer => ?_, ?_⟩
    · simpa using hrun'
    · rw [opened?_append, hopened, List.nil_append, Option.bind_some, hopened']
    · cases outcome' with
      | ok _ =>
        obtain ⟨hsteps', hnames'⟩ := hends'
        exact ⟨by rw [hsteps, hsteps', List.map_append], hnames'⟩
      | error error =>
        obtain ⟨rest, hsteps'⟩ := hends'
        exact ⟨rest, by rw [hsteps, hsteps', List.map_append, List.append_assoc]⟩
  | error error =>
    obtain ⟨rest, hsteps⟩ := hends
    refine ⟨.error error, events, names, rfl, hopened, rest ++ steps', ?_⟩
    rw [hsteps, List.append_assoc, List.cons_append]

/-- The end tag is the last step of an element.  Where the body fails it closes the element after
those that the body left open. -/
theorem Takes.element (h : Takes body steps) (name : String) (attributes : Attributes) :
    Takes (element name attributes body)
      (.ok (.start name attributes) :: (steps ++ [.ok (.finish name)])) := by
  intro before
  obtain ⟨outcome, events, names, hrun, hopened, hends⟩ := h (before.push (.start name attributes))
  have hinner (outer : List String) :
      opened? outer (.start name attributes :: events) = some (names ++ name :: outer) :=
    hopened (name :: outer)
  rw [run_element, hrun]
  cases outcome with
  | ok _ =>
    obtain ⟨hsteps, rfl⟩ := hends
    refine ⟨.ok (), .start name attributes :: (events ++ [.finish name]), [], ?_, fun outer => ?_,
      ?_, rfl⟩
    · simp
    · rw [← List.cons_append, opened?_append, hinner, Option.bind_some]
      exact opened?_endTags [name] outer
    · rw [hsteps, List.map_cons, List.map_append]
      rfl
  | error error =>
    obtain ⟨rest, hsteps⟩ := hends
    refine ⟨.error error, .start name attributes :: events, names ++ [name], ?_, fun outer => ?_,
      rest ++ [.ok (.finish name)], ?_⟩
    · simp
    · rw [hinner, List.append_assoc, List.singleton_append]
    · rw [hsteps, List.map_cons, List.append_assoc, List.cons_append, List.cons_append]

end Composed

/-! ## Calls -/

/-- A call of a writer, an element with the calls that its body makes, or the failure of the body
that it stands in. -/
inductive Call (ε : Type) where
  | element (name : String) (attributes : Attributes) (body : List (Call ε))
  | empty (name : String) (attributes : Attributes)
  | comment (content : String)
  | text (content : String)
  | fail (error : ε)

namespace Call

mutual

def perform : Call ε → Scoped ε Unit
  | .element name attributes body => Scoped.element name attributes (performAll body)
  | .empty name attributes => Scoped.empty name attributes
  | .comment content => Scoped.comment content
  | .text content => Scoped.text content
  | .fail error => throw error

def performAll : List (Call ε) → Scoped ε Unit
  | [] => pure ()
  | call :: rest => do
    perform call
    performAll rest

end

mutual

/-- What a call is going to do, in the order of the program and as if nothing failed. -/
def steps : Call ε → List (Except ε Event)
  | .element name attributes body =>
    .ok (.start name attributes) :: (stepsAll body ++ [.ok (.finish name)])
  | .empty name attributes => [.ok (.empty name attributes)]
  | .comment content => [.ok (.comment (commentBody content))]
  | .text content => [.ok (.text content)]
  | .fail error => [.error error]

def stepsAll : List (Call ε) → List (Except ε Event)
  | [] => []
  | call :: rest => steps call ++ stepsAll rest

end

mutual

theorem takes_perform (call : Call ε) : Takes call.perform call.steps := by
  cases call with
  | element name attributes body => exact (takes_performAll body).element name attributes
  | empty name attributes => exact takes_emit fun names => rfl
  | comment content => exact takes_emit fun names => rfl
  | text content => exact takes_emit fun names => rfl
  | fail error => exact takes_throw error

theorem takes_performAll (calls : List (Call ε)) : Takes (performAll calls) (stepsAll calls) := by
  cases calls with
  | nil => exact takes_pure
  | cons call rest => exact (takes_perform call).bind (takes_performAll rest)

end

/-- Whatever fails, all tags are closed in their order, everything before the failure is written
and nothing behind it, and the failure itself is the outcome. -/
theorem perform_closes (call : Call ε) (before : Array Event) :
    ∃ outcome events names,
      call.perform.run.run before =
        (outcome, before ++ (events ++ endTags names).toArray) ∧
      opened? [] events = some names ∧
      opened? [] (events ++ endTags names) = some [] ∧
      match outcome with
      | .ok () => call.steps = events.map .ok ∧ names = []
      | .error error => ∃ rest, call.steps = events.map .ok ++ .error error :: rest := by
  obtain ⟨outcome, events, names, hrun, hopened, hends⟩ := takes_perform call before
  have hnames : opened? [] events = some names := by
    rw [hopened, List.append_nil]
  refine ⟨outcome, events, names, hrun, hnames, ?_, hends⟩
  have hclosed := opened?_endTags names []
  rw [List.append_nil] at hclosed
  rw [opened?_append, hnames, Option.bind_some, hclosed]

/-- The end tag of an element follows the failure of its body. -/
example : (written (perform (.element "outer" [] [.empty "inner" [], .fail 0, .text "more"]))) =
    [.start "outer" [], .empty "inner" [], .finish "outer"] := by decide

end Call

end Scoped

end Concordance.Xml
