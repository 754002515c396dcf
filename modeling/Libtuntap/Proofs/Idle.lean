import Libtuntap.Effect.Wp
import Libtuntap.Unix.Core
import Libtuntap.Unix.Kernel

/-!
# Calls that change nothing

Most calls of the library only ask the kernel something. A program of such calls
leaves the kernel as it was, so all there is to say of it is what it answers.
-/

namespace Libtuntap

open Effect CMem

/-- Whatever the reply, the kernel is as it was. -/
def Idles (R : Rules) (c : Call) : Prop := ∀ s r s', Kern.Step R s c r s' → s' = s

section Idles

variable {R : Rules} {fd : Int} {n : Nat} {arg : Buf n}

@[simp] theorem idles_log (level : Level) (msg : CString) : Idles R (.log level msg) :=
  fun _ _ _ h => h

@[simp] theorem idles_uninit : Idles R (.uninit n) := fun _ _ _ h => h

@[simp] theorem idles_overshift (x : BitVec 32) (count : Int) : Idles R (.overshift x count) :=
  fun _ _ _ h => h

@[simp] theorem idles_write (buf : List UInt8) : Idles R (.write fd buf) := fun _ _ _ h => h

@[simp] theorem idles_select (nfds : Int) (reading : Bool) (sec usec : Int) :
    Idles R (.select nfds fd reading sec usec) := fun _ _ _ h => h

/-- Questions change nothing. -/
@[simp] theorem idles_ioctlGet (req : Request) (hreq : req ≠ .tunsetiff) :
    Idles R (.ioctlGet fd req arg) := by
  intro s r s' hstep
  rcases hstep with ⟨-, h⟩ | ⟨-, h⟩
  · exact h
  · cases req with
    | tunsetiff => exact absurd rfl hreq
    | fionread => exact h.2
    | siocgifflags | siocgifmtu | siocgifindex | siocgifhwaddr | siocgifaddr | tapgifname
    | tungifname => exact h.1
    | _ => exact h.elim

@[simp] theorem idles_fionbio : Idles R (.ioctl fd .fionbio arg) :=
  fun _ _ _ hstep => hstep.elim And.right And.right

@[simp] theorem idles_tunsdebug : Idles R (.ioctl fd .tunsdebug arg) :=
  fun _ _ _ hstep => hstep.elim And.right And.right

theorem randomHwaddr_idles : randomHwaddr.AllCalls (Idles R) :=
  randomHwaddr_allCalls idles_uninit (fun _ _ _ h => h) (fun _ _ _ _ h => h) fun _ _ _ h => h

theorem netmaskWord_idles (netmask : Int) : (netmaskWord netmask).AllCalls (Idles R) := by
  simp [netmaskWord, shiftRight]

/-- What a program of such calls ends with. -/
theorem idle_wp {α : Type} {p : Sys α} {A : α → Prop} (hp : p.AllCalls (Idles R))
    (hA : p.Answers A) {k : Kern} : p.Wp (kernel R) (fun a k' => A a ∧ k' = k) k := by
  induction p with
  | ret a => exact ⟨hA, rfl⟩
  | sys c f ih =>
      intro r k' hstep
      obtain rfl := hp.1 k r k' hstep
      exact ih r (hp.2 r) (hA r)

end Idles

end Libtuntap
