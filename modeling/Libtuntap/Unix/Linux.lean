import Libtuntap.Unix.Device

/-!
# The Linux back end

`tuntap-unix-linux.c`, function by function. `memcpy` of `sizeof dev->if_name`
bytes into `ifr_name` is kept as the copy of 17 bytes it is: the last one falls
on the union.
-/

namespace Libtuntap.Linux

open Effect CMem

/-- The `%i` name of a unit: `tap3` or `tun3`. -/
def unitName (mode : Mode) (tun : Int) : CString :=
  CString.lit (if mode = tuntapModeEthernet then "tap" else "tun") ++ CString.int tun

/-- `TUNSETPERSIST` on a fresh descriptor, when the mode asks for it. -/
def setPersistent (fd : Int) (persist : Prop) [Decidable persist] : Sys Int := do
  if persist then
    let r ← ioctlVal fd .tunsetpersist 1
    return r.ret
  return 0

def tuntapSysStart (dev : Device) (mode : Mode) (tun : Int) : Sys (Int × Device) := do
  let persist := mode.isPersist
  let mode := if persist then mode.clearPersist else mode
  if mode ≠ tuntapModeEthernet ∧ mode ≠ tuntapModeTunnel then
    tuntapLog .err "Invalid parameter 'mode'"
    return (-1, dev)
  let ifr : Ifreq := setIfrFlags Buf.zero
    ((if mode = tuntapModeEthernet then iffTap else iffTun) ||| iffNoPi)
  if tun < 0 then
    tuntapLog .err "Invalid parameter 'tun'"
    return (-1, dev)
  let fd ← openRdwr (CString.lit "/dev/net/tun")
  if fd = -1 then
    tuntapLog .err "Can't open /dev/net/tun"
    return (-1, dev)
  if tun ≠ tuntapIdAny ∧ fd > tuntapIdMax then
    return (-1, dev)
  let ifr := if tun ≠ tuntapIdAny then ifr.strlcpy 0 (unitName mode tun) 16 else ifr
  let r ← ioctlGet fd .tunsetiff ifr
  let ifr := r.arg
  if r.ret = -1 then
    tuntapLog .err "Can't set interface name"
    return (-1, dev)
  let persisted ← setPersistent fd persist
  if persisted = -1 then
    tuntapLog .err "Can't set persistent"
    return (-1, dev)
  let r ← ioctlGet dev.ctrlSock .siocgifflags ifr
  let ifr := r.arg
  if r.ret = -1 then
    tuntapLog .err "Can't get interface values"
    return (-1, dev)
  let dev := { dev with
    flags := (ifrFlags ifr).signExtend 32
    ifName := dev.ifName.memcpy 0 (ifrName ifr) 16 }
  if mode = tuntapModeEthernet then
    let ifrHw ← uninit 40
    let ifrHw := ifrHw.memcpy 0 dev.ifName 17
    let r ← ioctlGet fd .siocgifhwaddr ifrHw
    if r.ret = -1 then
      tuntapLog .warn "Can't get link-layer address"
      return (fd, dev)
    return (fd, { dev with hwaddr := ifrHwaddr r.arg })
  return (fd, dev)

def tuntapSysDestroy (dev : Device) : Sys Unit := do
  let r ← ioctlVal dev.tunFd .tunsetpersist 0
  if r.ret = -1 then
    tuntapLog .warn "Can't destroy the interface"

/-- `memset(&ifr, 0, sizeof ifr)` and the copy of `sizeof dev->if_name` bytes. -/
def ifreqNamed (dev : Device) : Ifreq := (Buf.zero : Ifreq).memcpy 0 dev.ifName 17

def tuntapSysSetHwaddr (dev : Device) (ethAddr : Buf 6) : Sys Int := do
  let ifr := (ifreqNamed dev).memcpy 16 (Buf.store16 arphrdEther) 2
  let ifr := ifr.memcpy 18 ethAddr 6
  let r ← ioctl dev.ctrlSock .siocsifhwaddr ifr
  if r.ret = -1 then
    tuntapLog .err "Can't set link-layer address"
    return -1
  return 0

def tuntapSysSetIpv4 (dev : Device) (s4 : Buf 4) (bits : BitVec 32) : Sys Int := do
  let ifr := (ifreqNamed dev).memcpy 20 s4 4
  let ifr := ifr.memcpy 16 (Buf.store16 afInet) 2
  let r ← ioctl dev.ctrlSock .siocsifaddr ifr
  if r.ret = -1 then
    tuntapLog .err "Can't set IP address"
    return -1
  -- Reinit the struct ifr, then set the netmask
  let ifr := ifr.memset 16 0 16
  let ifr := ifr.memcpy 16 (sockaddrIn (Buf.store32 bits)) 16
  let r ← ioctl dev.ctrlSock .siocsifnetmask ifr
  if r.ret = -1 then
    tuntapLog .err "Can't set netmask"
    return -1
  return 0

def tuntapSysSetIpv6 (dev : Device) (s6 : Buf 16) (prefixLen : BitVec 32) : Sys Int := do
  let fd ← socket .inet6
  if fd = -1 then
    tuntapLog .err "IPv6 is not enabled on your system"
    return -1
  let r ← ioctlGet dev.ctrlSock .siocgifindex (ifreqNamed dev)
  if r.ret = -1 then
    tuntapLog .err "Can't get interface index for IPv6"
    let _ ← close fd
    return -1
  let ifrv6 : In6Ifreq := Buf.zero.memcpy 20 (Buf.store32 (ifrInt r.arg)) 4
  -- Delete previously assigned IPv6 address
  let _ ← ioctl fd .siocdifaddr ifrv6
  let ifrv6 := ifrv6.memcpy 16 (Buf.store32 prefixLen) 4
  let ifrv6 := ifrv6.memcpy 0 s6 16
  let r ← ioctl fd .siocsifaddr ifrv6
  if r.ret = -1 then
    tuntapLog .err "Can't set IPv6 address"
    let _ ← close fd
    return -1
  let _ ← close fd
  return 0

def tuntapSysSetIfname (dev : Device) (ifname : CString) (len : Nat) : Sys Int := do
  let ifr : Ifreq := Buf.zero.strncpy 0 dev.ifName.cstr ifNamesize
  let ifr := ifr.strncpy 16 ifname len
  let r ← ioctl dev.ctrlSock .siocsifname ifr
  if r.ret = -1 then
    tuntapLog .err "Can't set interface name"
    return -1
  return 0

def tuntapSysSetDescr (_dev : Device) (_descr : CString) (_len : Nat) : Sys Int := do
  tuntapLog .notice "Your system does not support tuntap_set_descr()"
  return -1

def tuntapSysGetDescr (_dev : Device) : Sys CString := do
  tuntapLog .notice "Your system does not support tuntap_get_descr()"
  return CString.lit ""

end Libtuntap.Linux
