import Libtuntap.Effect.Run
import Libtuntap.Effect.Wp
import Libtuntap.Unix.Api
import Libtuntap.Unix.Kernel

/-!
# A device on a machine

A session is a device record and the kernel it is used on. Its steps are the
API calls, each run to its end on some replies of the kernel, and whatever the
rest of the world does to the kernel between two calls. How far the rest of the
world may go is a parameter, because every statement about sessions is about
some other part of the kernel's state and forbids others to touch just that.

A call that frees the record is no step: the session is over.
-/

namespace Libtuntap

open Effect CMem

/-- A device record and the kernel it is used on. -/
structure Session where
  dev : Device
  kern : Kern

/-- An API call with its trace and its answer, or the rest of the world. -/
inductive Act where
  | call (op : Op) (tr : List (Event Call Resp)) (ret : Ret)
  | others

/-- What others may do to the kernel, given the device. -/
abbrev Rely := Device → Kern → Kern → Prop

namespace Session

variable {R : Rules} {libc : Libc} {rely : Rely}

inductive Step (R : Rules) (libc : Libc) (rely : Rely) : Session → Act → Session → Prop where
  | call {s s' : Session} {op : Op} {ret : Ret} {tr : List (Event Call Resp)} :
      (op.prog R.os libc s.dev).Runs tr (ret, some s'.dev) →
        (kernel R).Steps s.kern tr s'.kern → Step R libc rely s (.call op tr ret) s'
  | others {dev : Device} {k k' : Kern} :
      rely dev k k' → Step R libc rely ⟨dev, k⟩ .others ⟨dev, k'⟩

/-- A call ends as its program ends on the kernel. -/
theorem Step.of_wp {s s' : Session} {op : Op} {tr : List (Event Call Resp)} {ret : Ret}
    (h : Step R libc rely s (.call op tr ret) s') {Q : Ret × Option Device → Kern → Prop}
    (hwp : (op.prog R.os libc s.dev).Wp (kernel R) Q s.kern) :
    Q (ret, some s'.dev) s'.kern := by
  cases h with
  | call hr hk => exact hwp.of_runs hr hk

end Session

end Libtuntap
