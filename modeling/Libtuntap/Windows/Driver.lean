import Libtuntap.Effect.Interleave
import Libtuntap.Windows.Tuntap

/-!
# Overlapped requests

One request is followed from `ReadFile` or `WriteFile` on. While it is pending
it belongs to the driver, which completes it or fails it when it likes, and may
cancel it once it has been asked to. `GetOverlappedResultEx` reports a request
that is settled, and a timeout otherwise; `CancelIo` asks and returns.

The state keeps what the environment has done: what became of the request, and
whether a wait has timed out.
-/

namespace Libtuntap.Windows

open Effect CMem

/-- What became of the request. -/
inductive Request where
  | unissued
  | pending
  | completed (len : BitVec 32)
  | failed
  | cancelled
deriving DecidableEq, Repr

structure Io where
  request : Request
  cancelAsked : Bool
  timedOut : Bool
  lastError : Nat
deriving DecidableEq, Repr

/-- Before the call. -/
def Io.start : Io := ⟨.unissued, false, false, 0⟩

/-- The driver settles a pending request. -/
inductive Driver : Io → Io → Prop where
  | complete {s : Io} (len : BitVec 32) :
      s.request = .pending → Driver s { s with request := .completed len }
  | fail {s : Io} : s.request = .pending → Driver s { s with request := .failed }
  | cancel {s : Io} :
      s.request = .pending → s.cancelAsked = true → Driver s { s with request := .cancelled }

/-- `ReadFile` and `WriteFile`: done at once, left to the driver, or refused. -/
def Io.Starts (s : Io) (r : IoRet) (s' : Io) : Prop :=
  r.ok = true ∧ s' = { s with request := .completed r.len } ∨
  r.ok = false ∧ s' = { s with request := .pending, lastError := errorIoPending } ∨
  r.ok = false ∧ ∃ code, code ≠ errorIoPending ∧
    s' = { s with request := .failed, lastError := code }

/-- The report of a request that is settled. -/
def Io.Reports (s : Io) (r : IoRet) (s' : Io) : Prop :=
  match s.request with
  | .completed len => r = ⟨true, len⟩ ∧ s' = s
  | .pending => False
  | _ => r.ok = false ∧ ∃ code, code ≠ errorIoIncomplete ∧ code ≠ waitTimeout ∧
      s' = { s with lastError := code }

/-- The wait ends before the request does. -/
def Io.Expires (s : Io) (timeout : BitVec 32) (r : IoRet) (s' : Io) : Prop :=
  s.request = .pending ∧ timeout ≠ infinite ∧ r.ok = false ∧
    s' = { s with
      timedOut := true
      lastError := if timeout = 0 then errorIoIncomplete else waitTimeout }

/-- One call. -/
def Io.Step (s : Io) : (c : Call) → Resp c → Io → Prop
  | .readFile .., r, s' => s.Starts r s'
  | .writeFile .., r, s' => s.Starts r s'
  | .getLastError, code, s' => code = s.lastError ∧ s' = s
  | .getOverlappedResult _, r, s' => s.Reports r s'
  | .getOverlappedResultEx _ timeout, r, s' => s.Reports r s' ∨ s.Expires timeout r s'
  | .cancelIo _, _, s' => s' = { s with cancelAsked := true }
  | _, _, s' => s' = s

def io : Kernel Call Resp Io := Io.Step

end Libtuntap.Windows
