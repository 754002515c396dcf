import Libtuntap.Effect.Embed
import Libtuntap.Unix.Api
import Libtuntap.Windows.Tuntap

/-!
# The whole API on Windows

What `tuntap-windows.c` has besides the search, the start and the transfers:
the media status, the MTU, the address, the release of a device and the
functions that only say that Windows has no such thing. With `tuntap.c`, which
is built for Windows as well, they make up the API of `tuntap.h`.

A few of them need calls that the others do not, so the API runs over two
interfaces side by side. A record is allocated and freed as on Unix.
-/

namespace Libtuntap.Windows

open Effect CMem

/-- The calls that the start and the transfers do not make. -/
inductive MoreCall where
  | mallocDevice
  | freeDevice
  | closeHandle (h : Int)
  | uninit (n : Nat)
  | overshift (x : BitVec 32) (count : Int)

@[reducible] def MoreResp : MoreCall → Type
  | .mallocDevice => Bool
  | .freeDevice => Unit
  | .closeHandle _ => Bool
  | .uninit n => Buf n
  | .overshift .. => BitVec 32

instance (c : MoreCall) : Nonempty (MoreResp c) := by
  cases c <;> infer_instance

/-- Programs of the API. -/
abbrev WinApi := Prog (Call ⊕ MoreCall) (Both Resp MoreResp)

/-- A call that the programs of `Win` do not make. -/
abbrev WinApi.call (c : MoreCall) : WinApi (MoreResp c) :=
  Prog.call (Sum.inr c : Call ⊕ MoreCall)

/-- A message, and -1. -/
def unsupported (msg : String) : Win Int := do
  tuntapLog .notice msg
  return -1

/-! ## The control requests -/

def tapIoctlGetMtu : BitVec 32 := tapControlCode 3
def tapIoctlSetMediaStatus : BitVec 32 := tapControlCode 6
def tapIoctlConfigDhcpMasq : BitVec 32 := tapControlCode 7

/-- The error path of a control request. -/
def requestFailed : Win Int := do
  let errcode ← getLastError
  logError .err errcode
  return -1

def tuntapSysSetUpdown (dev : Device) (flag : BitVec 32) : Win (Outcome Int) := do
  let r ← deviceIoControl dev.tunFd tapIoctlSetMediaStatus (Buf.store32 flag)
  if r.ok = false then
    let ret ← requestFailed
    return .returned ret
  match snprintf 32 (CString.lit "Status: " ++ CString.lit (if flag ≠ 0 then "Up" else "Down")) with
  | none => return .crashed
  | some buf =>
      Prog.call (Call.log .debug buf)
      return .returned 0

def tuntapUp (dev : Device) : Win (Outcome Int) := tuntapSysSetUpdown dev 1

def tuntapDown (dev : Device) : Win (Outcome Int) := tuntapSysSetUpdown dev 0

/-- The buffer of the request is not set before it is passed. -/
def tuntapGetMtu (dev : Device) : WinApi Int := do
  let mtu ← WinApi.call (.uninit 4)
  Prog.lift do
    let r ← deviceIoControl dev.tunFd tapIoctlGetMtu mtu
    if r.ok = false then
      requestFailed
    else
      return (Buf.load32 (r.buf.slice 0 4)).toInt

/-- `psock`: address, netmask, DHCP server and lease time. -/
def psock (s : Buf 4) (mask : BitVec 32) : Buf 16 :=
  (Buf.zero.memcpy 0 s 4).memcpy 4 (Buf.store32 mask) 4

def tuntapSysSetIpv4 (dev : Device) (s : Buf 4) (mask : BitVec 32) : Win Int := do
  let r ← deviceIoControl dev.tunFd tapIoctlConfigDhcpMasq (psock s mask)
  if r.ok = false then
    requestFailed
  else
    return 0

def tuntapSysSetIpv6 (_dev : Device) (_s : Buf 16) (_mask : BitVec 32) : Win Int :=
  unsupported "Your system does not support tuntap_sys_set_ipv6()"

/-! ## What Windows does not have -/

def tuntapSetHwaddr (_dev : Device) (_hwaddr : CString) : Win Int :=
  unsupported "Your system does not support tuntap_set_hwaddr()"

def tuntapSetMtu (_dev : Device) (_mtu : BitVec 32) : Win Int :=
  unsupported "Your system does not support tuntap_set_mtu()"

def tuntapGetReadable (_dev : Device) : Win Int :=
  unsupported "Your system does not support tuntap_get_readable()"

def tuntapSetNonblocking (_dev : Device) (_set : BitVec 32) : Win Int :=
  unsupported "Your system does not support tuntap_set_nonblocking()"

def tuntapSetDebug (_dev : Device) (_set : BitVec 32) : Win Int :=
  unsupported "Your system does not support tuntap_set_debug()"

def tuntapSetDescr (_dev : Device) (_descr : Option CString) : Win Int :=
  unsupported "Your system does not support tuntap_set_descr()"

def tuntapSetIfname (_dev : Device) (_name : Option CString) : Win Int :=
  unsupported "Your system does not support tuntap_set_ifname()"

/-- The pointer it answers is `NULL`. -/
def tuntapGetDescr (_dev : Device) : Win (Option CString) := do
  tuntapLog .notice "Your system does not support tuntap_get_descr()"
  return none

/-! ## `tuntap.c` on Windows -/

/-- The record starts with `INVALID_HANDLE_VALUE`, which is -1 as well. -/
def tuntapInit : WinApi (Option Device) := do
  let found ← WinApi.call .mallocDevice
  if found = false then
    return none
  return some Device.init

def tuntapSysDestroy (_dev : Device) : WinApi Unit := return ()

/-- The handle is closed whether it is one or not. -/
def tuntapRelease (dev : Device) : WinApi Unit := do
  let _ ← WinApi.call (.closeHandle dev.tunFd)
  WinApi.call .freeDevice

def tuntapDestroy (dev : Device) : WinApi Unit := do
  tuntapSysDestroy dev
  tuntapRelease dev

/-- `x >> count` in 32 bits, for a count that the code does not bound. -/
def shiftRight (x : BitVec 32) (count : Int) : WinApi (BitVec 32) :=
  if 32 ≤ count then WinApi.call (.overshift x count) else return x >>> count.toNat

/-- The IPv4 mask of a prefix length, as `psock` has it. -/
def netmaskWord (netmask : Int) : WinApi (BitVec 32) := do
  if netmask = 32 then
    return htonl 0xffffffff
  let mask ← shiftRight (~~~0) netmask
  return htonl (~~~mask)

def tuntapSetIp (libc : Libc) (dev : Device) (addr : Option CString) (netmask : Int) :
    WinApi Int := do
  if dev.tunFd = tunfdInvalidValue then
    Prog.lift (tuntapLog .notice "Device is not started")
    return 0
  let some addr := addr | do
    Prog.lift (tuntapLog .err "Invalid parameter 'addr'")
    return -1
  if netmask < 0 ∨ netmask > 128 then
    Prog.lift (tuntapLog .err "Invalid parameter 'netmask'")
    return -1
  match libc.inetPton4 addr with
  | some baddr4 =>
      let mask ← netmaskWord netmask
      Prog.lift (tuntapSysSetIpv4 dev baddr4 mask)
  | none =>
      match libc.inetPton6 addr with
      | some baddr6 => Prog.lift (tuntapSysSetIpv6 dev baddr6 (BitVec.ofInt 32 netmask))
      | none =>
          Prog.lift (tuntapLog .err "Invalid parameters")
          return -1

/-! ## The operations -/

/-- What an API call answers. A pointer may be null. -/
inductive Answer where
  | void
  | int (n : Int)
  | str (s : Option CString)
  | hwaddr (a : Option (Buf 6))
  | handle (h : Int)

/-- An answer, with the record that is left. -/
abbrev Left := Answer × Option Device

/-- An `int` answer, and the record unchanged. -/
def keepInt (dev : Device) (n : Int) : Outcome Left := .returned (.int n, some dev)

/-- The outcome of a function that answers an `int` and keeps the record. -/
def keepOutcome (dev : Device) : Outcome Int → Outcome Left
  | .crashed => .crashed
  | .returned n => keepInt dev n

/-- `hwaddr` is what the static array of `tuntap_get_hwaddr` holds. -/
def prog (libc : Libc) (hwaddr : Buf 6) (dev : Device) : Op → WinApi (Outcome Left)
  | .start mode tun => do
      match ← Prog.lift (tuntapStart dev mode tun) with
      | .crashed => return .crashed
      | .returned (n, d) => return .returned (.int n, some d)
  | .release => do
      tuntapRelease dev
      return .returned (.void, none)
  | .destroy => do
      tuntapDestroy dev
      return .returned (.void, none)
  | .setDescr descr => do
      let n ← Prog.lift (tuntapSetDescr dev descr)
      return keepInt dev n
  | .getDescr => do
      let s ← Prog.lift (tuntapGetDescr dev)
      return .returned (.str s, some dev)
  | .getIfname => return .returned (.str (some (tuntapGetIfname dev)), some dev)
  | .setIfname name => do
      let n ← Prog.lift (tuntapSetIfname dev name)
      return keepInt dev n
  | .getHwaddr => do
      match ← Prog.lift (tuntapGetHwaddr hwaddr dev) with
      | .crashed => return .crashed
      | .returned a => return .returned (.hwaddr a, some dev)
  | .setHwaddr hwaddr => do
      let n ← Prog.lift (tuntapSetHwaddr dev hwaddr)
      return keepInt dev n
  | .up => do
      let r ← Prog.lift (tuntapUp dev)
      return keepOutcome dev r
  | .down => do
      let r ← Prog.lift (tuntapDown dev)
      return keepOutcome dev r
  | .getMtu => do
      let n ← tuntapGetMtu dev
      return keepInt dev n
  | .setMtu mtu => do
      let n ← Prog.lift (tuntapSetMtu dev mtu)
      return keepInt dev n
  | .setIp addr netmask => do
      let n ← tuntapSetIp libc dev addr netmask
      return keepInt dev n
  | .read size => do
      let n ← Prog.lift (tuntapRead dev size)
      return keepInt dev n
  | .readTm size timeoutMs => do
      let n ← Prog.lift (tuntapReadTm dev size timeoutMs)
      return keepInt dev n
  | .write buf => do
      let n ← Prog.lift (tuntapWrite dev buf)
      return keepInt dev n
  | .writeTm buf timeoutMs => do
      let n ← Prog.lift (tuntapWriteTm dev buf timeoutMs)
      return keepInt dev n
  | .getReadable => do
      let n ← Prog.lift (tuntapGetReadable dev)
      return keepInt dev n
  | .setNonblocking set => do
      let n ← Prog.lift (tuntapSetNonblocking dev set)
      return keepInt dev n
  | .setDebug set => do
      let n ← Prog.lift (tuntapSetDebug dev set)
      return keepInt dev n
  | .getFd => return .returned (.handle (tuntapGetFd dev), some dev)

end Libtuntap.Windows
