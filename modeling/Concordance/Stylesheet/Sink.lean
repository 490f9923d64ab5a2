import Concordance.Stylesheet.Template

/-!
# Sinks

A sink takes bytes a few at a time.  Each write is offered all that is left and takes some number
of bytes from the front of it, or fails; writing goes on with the rest until nothing is left, and a
write that takes nothing ends it.  At the end the sink is flushed.  A write that is merely
interrupted is made again and shows here only with the answer that it gets in the end.
-/

namespace Concordance

/-- How a sink with states `σ` behaves: how many of the offered bytes a write takes, and whether a
flush succeeds. -/
structure Sink (σ : Type) where
  write : σ → List UInt8 → Except String Nat × σ
  flush : σ → Except String Unit × σ

namespace Sink

/-- What came of writing to a sink: the outcome, the bytes that the sink took, and its state. -/
structure Delivery (σ α : Type) where
  outcome : Except SinkFailure α
  taken : List UInt8
  state : σ

variable {σ : Type}

/-- Offers the bytes again and again, each time without those taken before. -/
def writeAll (sink : Sink σ) (state : σ) (bytes : List UInt8) : Delivery σ Unit :=
  if bytes = [] then ⟨.ok (), [], state⟩
  else
    match sink.write state bytes with
    | (.error reason, state) => ⟨.error (.refused reason), [], state⟩
    | (.ok count, state) =>
      if count = 0 then ⟨.error .tookNothing, [], state⟩
      else
        let rest := sink.writeAll state (bytes.drop count)
        { rest with taken := bytes.take count ++ rest.taken }
termination_by bytes.length
decreasing_by
  have := List.length_pos_iff.2 ‹¬bytes = []›
  grind [List.length_drop]

/-- Writes all the bytes and flushes the sink. -/
def deliver (sink : Sink σ) (state : σ) (bytes : List UInt8) : Delivery σ Nat :=
  match sink.writeAll state bytes with
  | ⟨.error failure, taken, state⟩ => ⟨.error failure, taken, state⟩
  | ⟨.ok (), taken, state⟩ =>
    match sink.flush state with
    | (.error reason, state) => ⟨.error (.refused reason), taken, state⟩
    | (.ok (), state) => ⟨.ok bytes.length, taken, state⟩

/-- A sink that counts what it holds.  It takes at most `chunk` bytes at a time, fails once it holds
`capacity` bytes, and fails when flushed if told to. -/
def bounded (chunk capacity : Option Nat) (flushFails : Bool) : Sink Nat where
  write held offered :=
    match capacity with
    | none =>
      let count := min offered.length (chunk.getD offered.length)
      (.ok count, held + count)
    | some capacity =>
      if held ≥ capacity then (.error "disk full", held)
      else
        let count := min (min offered.length (chunk.getD offered.length)) (capacity - held)
        (.ok count, held + count)
  flush held := (if flushFails then .error "flush failed" else .ok (), held)

end Sink

namespace Crosswalk

/-- Writes the stylesheet of a crosswalk to a sink and gives the number of bytes written, with the
bytes that the sink took.  A crosswalk without a stylesheet leaves the sink alone. -/
def writeTo {σ : Type} (crosswalk : Crosswalk) (container : Option Element) (sink : Sink σ)
    (state : σ) : Except StylesheetError Nat × List UInt8 × σ :=
  match crosswalk.stylesheet container with
  | .error error => (.error error, [], state)
  | .ok text =>
    let delivery := sink.deliver state text.toUTF8.toList
    (delivery.outcome.mapError .output, delivery.taken, delivery.state)

end Crosswalk

end Concordance
