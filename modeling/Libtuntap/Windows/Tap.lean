import Libtuntap.Effect.Run
import Libtuntap.Effect.Wp
import Libtuntap.Windows.Api
import Mathlib.Logic.Function.Basic

/-!
# A tap adapter and its driver

What a control request does, as far as the library makes any: the adapter has an
address and an MTU that it tells, a media status, and the address its DHCP server
hands to the system. The driver may refuse any request, and then nothing has
changed. An adapter is open under one handle only, so the host's table leads from
a handle to the adapter.

A session is a record and the host it is used on. Its steps are the API calls,
each run to its end, and whatever others do to the adapters in between.
-/

namespace Libtuntap.Windows

open Effect CMem

/-- The four words `TAP_IOCTL_CONFIG_DHCP_MASQ` is passed. -/
structure Masq where
  addr : Buf 4
  mask : Buf 4
  server : Buf 4
  lease : Buf 4

def Masq.ofBuf {n : Nat} (b : Buf n) : Masq :=
  ⟨b.slice 0 4, b.slice 4 4, b.slice 8 4, b.slice 12 4⟩

/-- A tap adapter. -/
structure Tap where
  mac : Buf 6
  mtu : BitVec 32
  connected : Bool
  masq : Option Masq

/-- A request the driver grants, with the buffer before and after it. -/
inductive Tap.Grants (t : Tap) : BitVec 32 → {n : Nat} → Buf n → Buf n → Tap → Prop where
  | getMac {b : Buf 6} : Grants t tapIoctlGetMac b t.mac t
  | getMtu {b : Buf 4} : Grants t tapIoctlGetMtu b (Buf.store32 t.mtu) t
  | setMediaStatus {b b' : Buf 4} :
      Grants t tapIoctlSetMediaStatus b b' { t with connected := Buf.load32 b ≠ 0 }
  | configDhcpMasq {b b' : Buf 16} :
      Grants t tapIoctlConfigDhcpMasq b b' { t with masq := some (Masq.ofBuf b) }

/-- The adapters behind the handles that are open. -/
structure Host where
  files : Int → Option Tap

namespace Host

def set (s : Host) (h : Int) (t : Option Tap) : Host := ⟨Function.update s.files h t⟩

/-- One call: the host before, the call, its reply, and the host after. -/
def Step (s : Host) : (c : Call ⊕ MoreCall) → Both Resp MoreResp c → Host → Prop
  | .inl (.createFile _), h, s' =>
      h = tunfdInvalidValue ∧ s' = s ∨
        h ≠ tunfdInvalidValue ∧ s.files h = none ∧ ∃ t, s' = s.set h (some t)
  | .inl (.deviceIoControl h code b), r, s' =>
      r.ok = false ∧ s' = s ∨
        r.ok = true ∧ ∃ t t', s.files h = some t ∧ t.Grants code b r.buf t' ∧
          s' = s.set h (some t')
  | .inr (.closeHandle h), _, s' => s' = s.set h none
  | _, _, s' => s' = s

end Host

def tapHost : Kernel (Call ⊕ MoreCall) (Both Resp MoreResp) Host := Host.Step

/-- A record, the host it is used on, and what the static array of
`tuntap_get_hwaddr` holds. -/
structure Session where
  dev : Device
  hwaddr : Buf 6
  host : Host

/-- An API call with its trace and its answer, or others. -/
inductive Act where
  | call (op : Op) (tr : List (Event (Call ⊕ MoreCall) (Both Resp MoreResp))) (a : Answer)
  | others

/-- The steps of a session. Others do to the adapter of the device what `rely`
lets them, and may write to the array. -/
inductive Session.Step (libc : Libc) (rely : Tap → Tap → Prop) : Session → Act → Session → Prop
  | call {s s' : Session} {op : Op} {tr : List (Event (Call ⊕ MoreCall) (Both Resp MoreResp))}
      {a : Answer} :
      (prog libc s.hwaddr s.dev op).Runs tr (.returned (a, some s'.dev)) →
        tapHost.Steps s.host tr s'.host → Step libc rely s (.call op tr a) s'
  | others {s s' : Session} :
      s'.dev = s.dev → (∀ t, s.host.files s.dev.tunFd = some t →
        ∃ t', s'.host.files s.dev.tunFd = some t' ∧ rely t t') → Step libc rely s .others s'

end Libtuntap.Windows
