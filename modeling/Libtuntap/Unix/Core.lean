import Libtuntap.Unix.Linux
import Libtuntap.Unix.FreeBsd
import Libtuntap.Unix.OpenBsd
import Libtuntap.Unix.NetBsd
import Libtuntap.Unix.Darwin

/-!
# The Unix core

`tuntap-unix.c` and `tuntap.c`. The build links one back end; here the system
is a parameter, and the `tuntap_sys_*` functions dispatch on it. FreeBSD's file
serves DragonFly as well.

The parsers and printers of the C library are a parameter too: nothing is
assumed of them that a theorem does not name.
-/

namespace Libtuntap

open Effect CMem

/-- The system a build is for. -/
inductive Os where
  | linux
  | freeBsd
  | openBsd
  | netBsd
  | darwin
deriving DecidableEq, Repr

/-- `sizeof (struct ifreq)`. -/
def Os.sizeofIfreq : Os → Nat
  | .linux => 40
  | _ => 32

theorem Os.le_sizeofIfreq (os : Os) : 32 ≤ os.sizeofIfreq := by
  cases os <;> decide

/-- The conversions between addresses and text. -/
structure Libc where
  inetPton4 : CString → Option (Buf 4)
  inetPton6 : CString → Option (Buf 16)
  etherAton : CString → Option (Buf 6)
  etherNtoa : Buf 6 → CString

/-- A C library that parses nothing. -/
def Libc.refusing : Libc where
  inetPton4 _ := none
  inetPton6 _ := none
  etherAton _ := none
  etherNtoa _ := CString.lit ""

/-! ## The back end of the build -/

def tuntapSysStart : Os → Device → Mode → Int → Sys (Int × Device)
  | .linux => Linux.tuntapSysStart
  | .freeBsd => FreeBsd.tuntapSysStart
  | .openBsd => OpenBsd.tuntapSysStart
  | .netBsd => NetBsd.tuntapSysStart
  | .darwin => Darwin.tuntapSysStart

/-- FreeBSD closes `tun_fd` here, so the record comes back. -/
def tuntapSysDestroy (os : Os) (dev : Device) : Sys Device :=
  match os with
  | .linux => do
      let _ ← Linux.tuntapSysDestroy dev
      return dev
  | .freeBsd => FreeBsd.tuntapSysDestroy dev
  | .openBsd => do
      let _ ← OpenBsd.tuntapSysDestroy dev
      return dev
  | .netBsd => do
      let _ ← NetBsd.tuntapSysDestroy dev
      return dev
  | .darwin => do
      let _ ← Darwin.tuntapSysDestroy dev
      return dev

def tuntapSysSetHwaddr : Os → Device → Buf 6 → Sys Int
  | .linux => Linux.tuntapSysSetHwaddr
  | .freeBsd => FreeBsd.tuntapSysSetHwaddr
  | .openBsd => OpenBsd.tuntapSysSetHwaddr
  | .netBsd => NetBsd.tuntapSysSetHwaddr
  | .darwin => Darwin.tuntapSysSetHwaddr

def tuntapSysSetIpv4 : Os → Device → Buf 4 → BitVec 32 → Sys Int
  | .linux => Linux.tuntapSysSetIpv4
  | .freeBsd => FreeBsd.tuntapSysSetIpv4
  | .openBsd => OpenBsd.tuntapSysSetIpv4
  | .netBsd => NetBsd.tuntapSysSetIpv4
  | .darwin => Darwin.tuntapSysSetIpv4

def tuntapSysSetIpv6 : Os → Device → Buf 16 → BitVec 32 → Sys Int
  | .linux => Linux.tuntapSysSetIpv6
  | .freeBsd => FreeBsd.tuntapSysSetIpv6
  | .openBsd | .netBsd | .darwin => Bsd.tuntapSysSetIpv6

/-- FreeBSD writes the name back itself, so the record comes back. -/
def tuntapSysSetIfname (os : Os) (dev : Device) (ifname : CString) (len : Nat) :
    Sys (Int × Device) :=
  match os with
  | .linux => do
      let ret ← Linux.tuntapSysSetIfname dev ifname len
      return (ret, dev)
  | .freeBsd => FreeBsd.tuntapSysSetIfname dev ifname len
  | .openBsd | .netBsd | .darwin => do
      let ret ← Bsd.tuntapSysSetIfname dev ifname len
      return (ret, dev)

def tuntapSysSetDescr : Os → Device → CString → Nat → Sys Int
  | .linux => Linux.tuntapSysSetDescr
  | .freeBsd => FreeBsd.tuntapSysSetDescr
  | .openBsd => OpenBsd.tuntapSysSetDescr
  | .netBsd => NetBsd.tuntapSysSetDescr
  | .darwin => Darwin.tuntapSysSetDescr

def tuntapSysGetDescr : Os → Device → Sys CString
  | .linux => Linux.tuntapSysGetDescr
  | .freeBsd => FreeBsd.tuntapSysGetDescr
  | .openBsd => OpenBsd.tuntapSysGetDescr
  | .netBsd => NetBsd.tuntapSysGetDescr
  | .darwin => Darwin.tuntapSysGetDescr

/-! ## `tuntap-unix.c` -/

/-- The `clean` label. Both jumps to it after the socket come with `fd` still
-1, so the `close(fd)` there is never reached with a descriptor. -/
def startClean (fd sock : Int) (dev : Device) : Sys (Int × Device) := do
  if fd ≠ -1 then
    let _ ← close fd
  if sock ≠ -1 then
    let _ ← close sock
  return (-1, dev)

def tuntapStart (os : Os) (dev : Device) (mode : Mode) (tun : Int) : Sys (Int × Device) := do
  if dev.tunFd ≠ -1 then
    tuntapLog .err "Device is already started"
    return (-1, dev)
  let sock ← socket .inet
  if sock = -1 then
    startClean (-1) sock dev
  else
    let dev := { dev with ctrlSock := sock }
    if mode.isPersist ∧ tun = tuntapIdAny then
      startClean (-1) sock dev
    else
      let (fd, dev) ← tuntapSysStart os dev mode tun
      if fd = -1 then
        startClean fd sock dev
      else
        return (0, { dev with tunFd := fd })

def tuntapRelease (dev : Device) : Sys Unit := do
  if dev.tunFd ≠ -1 then
    let _ ← close dev.tunFd
  let _ ← close dev.ctrlSock
  free

def tuntapSetDescr (os : Os) (dev : Device) (descr : Option CString) : Sys Int := do
  let some descr := descr | do
    tuntapLog .err "Invalid parameter 'descr'"
    return -1
  tuntapSysSetDescr os dev descr descr.strlen

def tuntapGetDescr (os : Os) (dev : Device) : Sys CString := tuntapSysGetDescr os dev

def tuntapSetIfname (os : Os) (dev : Device) (ifname : Option CString) :
    Sys (Int × Device) := do
  let some ifname := ifname | do
    tuntapLog .err "Invalid parameter 'ifname'"
    return (-1, dev)
  let len := ifname.strlen
  if len > ifNamesize then
    tuntapLog .err "Parameter 'ifname' is too long"
    return (-1, dev)
  let (ret, dev) ← tuntapSysSetIfname os dev ifname len
  if ret = -1 then
    return (-1, dev)
  let name := (dev.ifName.memset 0 0 ifNamesize).strncpy 0 ifname len
  return (0, { dev with ifName := name })

def tuntapGetHwaddr (libc : Libc) (dev : Device) : CString := libc.etherNtoa dev.hwaddr

/-- The loop that fills `eth_rand`, `n` bytes from byte `i` on. -/
def fillRandom : Nat → Nat → Buf 6 → Sys (Buf 6)
  | 0, _, ethRand => return ethRand
  | n + 1, i, ethRand => do
      let r ← random
      fillRandom n (i + 1) (ethRand.memset i (UInt8.ofNat r) 1)

/-- The address `"random"` stands for. -/
def randomHwaddr : Sys (Buf 6) := do
  let ethRand ← uninit 6
  let now ← time
  let _ ← srandom (BitVec.ofInt 32 now)
  let ethRand ← fillRandom 6 0 ethRand
  return ethRand.memset 0 (ethRand.byte 0 &&& 0xfc) 1

theorem fillRandom_allCalls {P : Call → Prop} (hr : P .random) (n i : Nat) (ethRand : Buf 6) :
    (fillRandom n i ethRand).AllCalls P := by
  induction n generalizing i ethRand with
  | zero => trivial
  | succ n ih => exact ⟨hr, fun _ => ih _ _⟩

/-- Making up an address asks for the time and for random numbers. -/
theorem randomHwaddr_allCalls {P : Call → Prop} (hu : P (.uninit 6)) (ht : P .time)
    (hs : ∀ seed, P (.srandom seed)) (hr : P .random) : randomHwaddr.AllCalls P :=
  ⟨hu, fun _ => ⟨ht, fun _ => ⟨hs _, fun _ =>
    (fillRandom_allCalls hr _ _ _).bind fun _ => trivial⟩⟩⟩

/-- `tuntap_set_hwaddr` from the `memcpy` into `dev->hwaddr` on. -/
def setHwaddrTo (os : Os) (dev : Device) (ethAddr : Buf 6) : Sys (Int × Device) := do
  let dev := { dev with hwaddr := ethAddr }
  let ret ← tuntapSysSetHwaddr os dev ethAddr
  if ret = -1 then
    return (-1, dev)
  return (0, dev)

def tuntapSetHwaddr (os : Os) (libc : Libc) (dev : Device) (hwaddr : CString) :
    Sys (Int × Device) :=
  if hwaddr = CString.lit "random" then do
    let ethRand ← randomHwaddr
    setHwaddrTo os dev ethRand
  else
    match libc.etherAton hwaddr with
    | none => return (-1, dev)
    | some ethAddr => setHwaddrTo os dev ethAddr

/-- `memset(&ifr, 0, sizeof ifr)` and the copy of `sizeof dev->if_name` bytes. -/
def ifreqNamed (os : Os) (dev : Device) : Buf os.sizeofIfreq :=
  Buf.zero.memcpy 0 dev.ifName 17

/-- The request of `tuntap_up` and `tuntap_down`: the saved flags, changed. -/
def setFlags (os : Os) (dev : Device) (change : BitVec 16 → BitVec 16) :
    Sys (Int × Device) := do
  let ifr := ifreqNamed os dev
  let flags := change (dev.flags.setWidth 16)
  let r ← ioctl dev.ctrlSock .siocsifflags (setIfrFlags ifr flags)
  if r.ret = -1 then
    return (-1, dev)
  return (0, { dev with flags := flags.signExtend 32 })

def tuntapUp (os : Os) (dev : Device) : Sys (Int × Device) :=
  setFlags os dev fun flags => flags ||| iffUp

def tuntapDown (os : Os) (dev : Device) : Sys (Int × Device) :=
  setFlags os dev fun flags => flags &&& ~~~iffUp

def tuntapGetMtu (os : Os) (dev : Device) : Sys Int := do
  if dev.tunFd = -1 then
    tuntapLog .notice "Device is not started"
    return 0
  let r ← ioctlGet dev.ctrlSock .siocgifmtu (ifreqNamed os dev)
  if r.ret = -1 then
    tuntapLog .err "Can't get MTU"
    return -1
  return (ifrInt r.arg).toInt

def tuntapSetMtu (os : Os) (dev : Device) (mtu : BitVec 32) : Sys Int := do
  if dev.tunFd = -1 then
    tuntapLog .notice "Device is not started"
    return 0
  let r ← ioctl dev.ctrlSock .siocsifmtu (setIfrInt (ifreqNamed os dev) mtu)
  if r.ret = -1 then
    tuntapLog .err "Can't set MTU"
    return -1
  return 0

/-- The `read` of `tuntap_read` and `tuntap_read_tm`: the result, and the bytes
stored in the buffer. -/
def readPacket (dev : Device) (size : Nat) : Sys (Int × List UInt8) := do
  let r ← read dev.tunFd size
  if r.ret = -1 then
    if r.errno ≠ .eagain then
      tuntapLog .warn "Can't to read from device"
    return (-1, r.data)
  return (r.ret, r.data)

def tuntapRead (dev : Device) (size : Nat) : Sys (Int × List UInt8) := do
  if dev.tunFd = -1 then
    tuntapLog .notice "Device is not started"
    return (0, [])
  readPacket dev size

def waitReadyEventOrTimeout (fd : Int) (reading : Bool) (timeoutMs : Int) : Sys Bool := do
  if timeoutMs < 0 then
    return true
  let res ← select (fd + 1) fd reading (timeoutMs / 1000) (timeoutMs % 1000 * 1000)
  if res < 0 then
    tuntapLog .notice "Can't run select on device"
    return false
  if res = 0 then
    return false
  return true

def tuntapReadTm (dev : Device) (size : Nat) (timeoutMs : Int) :
    Sys (Int × List UInt8) := do
  if dev.tunFd = -1 then
    tuntapLog .notice "Device is not started"
    return (0, [])
  let ready ← waitReadyEventOrTimeout dev.tunFd true timeoutMs
  if ready = false then
    return (-1, [])
  readPacket dev size

/-- The `write` of `tuntap_write` and `tuntap_write_tm`. -/
def writePacket (dev : Device) (buf : List UInt8) : Sys Int := do
  let n ← write dev.tunFd buf
  if n = -1 then
    tuntapLog .warn "Can't write to device"
    return -1
  return n

def tuntapWrite (dev : Device) (buf : List UInt8) : Sys Int := do
  if dev.tunFd = -1 then
    tuntapLog .notice "Device is not started"
    return 0
  writePacket dev buf

def tuntapWriteTm (dev : Device) (buf : List UInt8) (timeoutMs : Int) : Sys Int := do
  if dev.tunFd = -1 then
    tuntapLog .notice "Device is not started"
    return 0
  let ready ← waitReadyEventOrTimeout dev.tunFd false timeoutMs
  if ready = false then
    return -1
  writePacket dev buf

def tuntapGetReadable (os : Os) (dev : Device) : Sys Int := do
  let r ← ioctlGet dev.tunFd .fionread (Buf.store32 0)
  if r.ret = -1 then
    tuntapLog .info "Your system does not support FIONREAD, fallback to MTU"
    tuntapGetMtu os dev
  else
    return (Buf.load32 r.arg).toInt

def tuntapSetNonblocking (dev : Device) (set : BitVec 32) : Sys Int := do
  let r ← ioctl dev.tunFd .fionbio (Buf.store32 set)
  if r.ret = -1 then
    if set = 0 then
      tuntapLog .err "Can't unset nonblocking"
    else if set = 1 then
      tuntapLog .err "Can't set nonblocking"
    else
      tuntapLog .err "Invalid parameter 'set'"
    return -1
  return 0

def tuntapSetDebug (os : Os) (dev : Device) (set : BitVec 32) : Sys Int := do
  if dev.tunFd = -1 then
    tuntapLog .notice "Device is not started"
    return 0
  if os = .darwin then
    tuntapLog .notice "Your system does not support tuntap_set_debug()"
    return -1
  let r ← ioctl dev.tunFd .tunsdebug (Buf.store32 set)
  if r.ret = -1 then
    if set = 0 then
      tuntapLog .warn "Can't unset debug"
    else if set = 1 then
      tuntapLog .warn "Can't set debug"
    else
      tuntapLog .err "Invalid parameter 'set'"
    return -1
  return 0

/-! ## `tuntap.c` -/

def tuntapDestroy (os : Os) (dev : Device) : Sys Unit := do
  let dev ← tuntapSysDestroy os dev
  tuntapRelease dev

def tuntapGetIfname (dev : Device) : CString := dev.ifName.cstr

/-- `x >> count` in 32 bits, for a count that the code does not bound. -/
def shiftRight (x : BitVec 32) (count : Int) : Sys (BitVec 32) := do
  if 32 ≤ count then
    overshift x count
  else
    return x >>> count.toNat

/-- The IPv4 mask of a prefix length, ready for `s_addr`. -/
def netmaskWord (netmask : Int) : Sys (BitVec 32) := do
  if netmask = 32 then
    return htonl 0xffffffff
  let mask ← shiftRight (~~~0) netmask
  return htonl (~~~mask)

def tuntapSetIp (os : Os) (libc : Libc) (dev : Device) (addr : Option CString)
    (netmask : Int) : Sys Int := do
  if dev.tunFd = -1 then
    tuntapLog .notice "Device is not started"
    return 0
  let some addr := addr | do
    tuntapLog .err "Invalid parameter 'addr'"
    return -1
  if netmask < 0 ∨ netmask > 128 then
    tuntapLog .err "Invalid parameter 'netmask'"
    return -1
  match libc.inetPton4 addr with
  | some baddr4 =>
      let mask ← netmaskWord netmask
      tuntapSysSetIpv4 os dev baddr4 mask
  | none =>
      match libc.inetPton6 addr with
      | some baddr6 => tuntapSysSetIpv6 os dev baddr6 (BitVec.ofInt 32 netmask)
      | none =>
          tuntapLog .err "Invalid parameters"
          return -1

def tuntapGetFd (dev : Device) : Int := dev.tunFd

end Libtuntap
