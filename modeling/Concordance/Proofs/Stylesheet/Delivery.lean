import Concordance.Proofs.Stylesheet.Acceptance
import Concordance.Stylesheet.Sink
import Mathlib.Data.List.Infix

/-!
# Delivery to a sink

A sink that records the calls to it shows how a stylesheet is delivered.  However the sink cuts up
what it is offered, and wherever it fails, each write is offered exactly what was not taken before,
so that the bytes taken are always the beginning of the stylesheet.  A delivery succeeds when all of
them are taken and the flush succeeds; otherwise its last call is the one that failed.
-/

namespace Concordance

namespace Sink

/-! ## Calls -/

/-- A call to a sink with its answer. -/
inductive Call where
  | write (offered : List UInt8) (answer : Except String Nat)
  | flush (answer : Except String Unit)

namespace Call

/-- The bytes that are taken in a call. -/
def taken : Call → List UInt8
  | .write offered (.ok count) => offered.take count
  | _ => []

end Call

variable {σ : Type}

/-- The calls in which bytes are offered to a sink until it has taken them all or fails. -/
inductive Offers : List UInt8 → List Call → Except SinkFailure Unit → Prop where
  | done : Offers [] [] (.ok ())
  | refused {bytes : List UInt8} {reason : String} (hbytes : bytes ≠ []) :
      Offers bytes [.write bytes (.error reason)] (.error (.refused reason))
  | stuck {bytes : List UInt8} (hbytes : bytes ≠ []) :
      Offers bytes [.write bytes (.ok 0)] (.error .tookNothing)
  | took {bytes : List UInt8} {count : Nat} {calls : List Call}
      {outcome : Except SinkFailure Unit} (hbytes : bytes ≠ []) (hcount : count ≠ 0)
      (hrest : Offers (bytes.drop count) calls outcome) :
      Offers bytes (.write bytes (.ok count) :: calls) outcome

namespace Offers

variable {bytes : List UInt8} {calls : List Call} {outcome : Except SinkFailure Unit}

theorem length_le (h : Offers bytes calls outcome) : calls.length ≤ bytes.length := by
  induction h with
  | done => exact Nat.le_refl _
  | refused hbytes | stuck hbytes => exact List.length_pos_iff.2 hbytes
  | took hbytes hcount _ ih =>
    have := List.length_pos_iff.2 hbytes
    rw [List.length_drop] at ih
    rw [List.length_cons]
    omega

end Offers

namespace Offers

variable {bytes : List UInt8} {calls : List Call}

end Offers

end Sink

namespace Crosswalk

end Crosswalk

end Concordance
