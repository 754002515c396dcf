import Libtuntap.Unix.Device

/-!
# The FreeBSD back end

`tuntap-unix-freebsd.c`. `tuntap_sys_create_dev` has three results, and the
wildcard loop of `tuntap_sys_start` leaves through four of its exits: an error,
the jump to `ifcreated`, the end of the loop, and the `continue` that goes on.
-/

namespace Libtuntap.FreeBsd

open Effect CMem

def ifDescrsize : Nat := 1024

def tuntapSysCreateDev (dev : Device) (iftype : CString) (unit : Int) : Sys Int := do
  let ifr : BsdIfreq := Buf.zero.strlcpy 0 (iftype ++ CString.int unit) 16
  let r ← ioctl dev.ctrlSock .siocifcreate2 ifr
  if r.ret < 0 then
    if r.errno = .eexist then
      return 0
    return -1
  return 1

/-- The wildcard loop from `unit` on, `n` units before `TUNTAP_ID_MAX`. It
answers the unit the code after `ifcreated` goes on with, or nothing after a
`return -1`. -/
def createLoop (dev : Device) (iftype : CString) : Nat → Int → Sys (Option Int)
  | 0, unit => return some unit
  | n + 1, unit => do
      let result ← tuntapSysCreateDev dev iftype unit
      if result = -1 then
        tuntapLog .err "Can't create interface"
        return none
      if result = 0 then
        createLoop dev iftype n (unit + 1)
      else
        return some unit

/-- Create the interface if required: the unit to open, or nothing after a
`return -1`. -/
def createIfRequired (dev : Device) (iftype : CString) (persist : Prop) [Decidable persist]
    (unit : Int) : Sys (Option Int) := do
  if unit < tuntapIdMax then
    if persist then
      let result ← tuntapSysCreateDev dev iftype unit
      if result = -1 then
        tuntapLog .err "Can't create interface"
        return none
      if result = 0 then
        tuntapLog .err "Interface already exists"
        return none
      return some unit
    return some unit
  if unit = tuntapIdAny then
    createLoop dev iftype tuntapIdMax.toNat 0
  else
    tuntapLog .err "Invalid parameter 'tun'"
    return none

def tuntapSysStart (dev : Device) (mode : Mode) (unit : Int) : Sys (Int × Device) := do
  let persist := mode.isPersist
  let mode := if persist then mode.clearPersist else mode
  if mode ≠ tuntapModeEthernet ∧ mode ≠ tuntapModeTunnel then
    tuntapLog .err "Invalid parameter 'mode'"
    return (-1, dev)
  let iftype := CString.lit (if mode = tuntapModeEthernet then "tap" else "tun")
  let some unit ← createIfRequired dev iftype persist unit | return (-1, dev)
  -- ifcreated
  let fd ← openRdwr (CString.lit "/dev/" ++ iftype ++ CString.int unit)
  if fd = -1 then
    tuntapLog .err "Permission denied"
    return (-1, dev)
  let r ← ioctlGet fd (if mode = tuntapModeEthernet then .tapgifname else .tungifname)
    (Buf.zero : BsdIfreq)
  let ifr := r.arg
  if r.ret = -1 then
    tuntapLog .err "Can't get the interface name"
    return (-1, dev)
  let dev := { dev with ifName := dev.ifName.strlcpy 0 (ifrName ifr).cstr 17 }
  let r ← ioctlGet dev.ctrlSock .siocgifflags ifr
  if r.ret = -1 then
    tuntapLog .err "Can't get interface values"
    return (-1, dev)
  let dev := { dev with flags := (ifrFlags r.arg).signExtend 32 }
  if mode = tuntapModeEthernet then
    let addr ← uninit 6
    let r ← ioctlGet fd .siocgifaddr addr
    if r.ret = -1 then
      tuntapLog .warn "Can't get link-layer address"
      return (fd, dev)
    return (fd, { dev with hwaddr := r.arg })
  return (fd, dev)

/-- `memset(&ifr, 0, sizeof ifr)` and the `strlcpy` of the device's name. -/
def ifreqNamed (dev : Device) : BsdIfreq := Buf.zero.strlcpy 0 dev.ifName.cstr 16

def tuntapSysDestroy (dev : Device) : Sys Device := do
  -- Close tun_fd early otherwise SIOCIFDESTROY will block
  let _ ← close dev.tunFd
  let dev := { dev with tunFd := -1 }
  let r ← ioctl dev.ctrlSock .siocifdestroy (ifreqNamed dev)
  if r.ret < 0 then
    tuntapLog .warn "Can't destroy the interface"
    return dev
  return dev

/-- An `AF_LINK` `struct sockaddr` of `ETHER_ADDR_LEN` bytes in the union. -/
def setLladdr {n : Nat} (ifr : Buf n) (ethAddr : Buf 6) : Buf n :=
  ((ifr.memset 16 6 1).memset 17 afLink 1).memcpy 18 ethAddr 6

def tuntapSysSetHwaddr (dev : Device) (ethAddr : Buf 6) : Sys Int := do
  let r ← ioctl dev.ctrlSock .siocsiflladdr (setLladdr (ifreqNamed dev) ethAddr)
  if r.ret < 0 then
    tuntapLog .err "Can't set link-layer address"
    return -1
  return 0

def tuntapSysSetIpv4 (dev : Device) (s4 : Buf 4) (bits : BitVec 32) : Sys Int := do
  let ifr := ifreqNamed dev
  let _ ← ioctl dev.ctrlSock .siocdifaddr ifr
  let ifr := ifr.memcpy 16 (bsdSockaddrIn s4) 16
  let r ← ioctl dev.ctrlSock .siocsifaddr ifr
  if r.ret = -1 then
    tuntapLog .err "Can't set IP address"
    return -1
  let ifr := ifr.memcpy 16 (bsdSockaddrIn (Buf.store32 bits)) 16
  let r ← ioctl dev.ctrlSock .siocsifnetmask ifr
  if r.ret = -1 then
    tuntapLog .err "Can't set netmask"
    return -1
  return 0

def tuntapSysSetIpv6 (_dev : Device) (_s6 : Buf 16) (_bits : BitVec 32) : Sys Int := do
  tuntapLog .notice "IPv6 is not implemented on your system"
  return -1

def tuntapSysSetIfname (dev : Device) (ifname : CString) (_len : Nat) :
    Sys (Int × Device) := do
  let ifr := ifreqNamed dev
  let r ← ioctlStr dev.ctrlSock .siocsifname ifr ifname (ifname.strlen + 1)
  if r.ret = -1 then
    tuntapLog .err "Can't set interface name"
    return (-1, dev)
  return (0, { dev with ifName := dev.ifName.strlcpy 0 (ifrName ifr).cstr 17 })

def tuntapSysSetDescr (dev : Device) (descr : CString) (len : Nat) : Sys Int := do
  if len > ifDescrsize then
    -- The value will be truncated
    tuntapLog .warn "Parameter 'descr' is too long"
  let r ← ioctlStr dev.ctrlSock .siocsifdescr (ifreqNamed dev) descr (len + 1)
  if r.ret = -1 then
    tuntapLog .err "Can't set the interface description"
    return -1
  return 0

def tuntapSysGetDescr (dev : Device) : Sys CString := do
  let r ← ioctlGetStr dev.ctrlSock .siocgifdescr (ifreqNamed dev) ifDescrsize
  if r.ret = -1 then
    tuntapLog .err "Can't get the interface description"
    return CString.lit ""
  return r.arg.cstr

end Libtuntap.FreeBsd
