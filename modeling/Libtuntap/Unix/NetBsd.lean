import Libtuntap.Unix.Bsd

/-!
# The NetBSD back end

`tuntap-unix-netbsd.c`. Tap and tun devices are not created in the same way,
and the interface a persistent start creates is created before the mode is
looked at.
-/

namespace Libtuntap.NetBsd

open Effect CMem Bsd

def tuntapSysCreateDev (dev : Device) (mode : Mode) (tun : Int) : Sys Int := do
  let name := CString.lit (if mode = tuntapModeEthernet then "tap" else "tun")
  let ifr : BsdIfreq := Buf.zero.strlcpy 0 (name ++ CString.int tun) ifNamesize
  let r ← ioctl dev.ctrlSock .siocifcreate ifr
  if r.ret = -1 then
    tuntapLog .err "Can't set persistent"
    return -1
  return 0

/-- The path of a tap node, after the creation of the wanted unit; without a
unit it is the cloning node. Nothing after a `return -1`. -/
def tapNode (dev : Device) (tun : Int) : Sys (Option CString) := do
  if tun < tuntapIdMax then
    let _ ← tuntapSysCreateDev dev tuntapModeEthernet tun
    return some (devNode (CString.lit "tap") tun)
  if tun = tuntapIdAny then
    return some (CString.lit "/dev/tap")
  return none

def tuntapSysStartTap (dev : Device) (tun : Int) : Sys (Int × Device) := do
  let some name ← tapNode dev tun | return (-1, dev)
  let fd ← openRdwr name
  if fd = -1 then
    let _ ← Prog.call (Call.log .debug (CString.lit "Can't open " ++ name))
    return (-1, dev)
  let r ← ioctlGet fd .tapgifname (Buf.zero : BsdIfreq)
  let ifr := r.arg
  if r.ret = -1 then
    tuntapLog .err "Can't get interface name"
    return (-1, dev)
  let dev := { dev with ifName := dev.ifName.strlcpy 0 (ifrName ifr).cstr 17 }
  let r ← ioctlGet dev.ctrlSock .siocgifflags ifr
  if r.ret = -1 then
    tuntapLog .err "Can't get interface values"
    return (-1, dev)
  let dev := { dev with flags := (ifrFlags r.arg).signExtend 32 }
  let dev ← saveLladdr dev
  return (fd, dev)

/-- The given unit, or the first one the scan opens; nothing after a
`return -1`. -/
def openTun (tun : Int) : Sys (Option (Int × Int)) := do
  if tun < tuntapIdMax then
    let fd ← openRdwr (devNode (CString.lit "tun") tun)
    return some (fd, tun)
  if tun = tuntapIdAny then
    let found ← scanUnits (CString.lit "tun") tuntapIdMax.toNat 0 (-1)
    return some found
  return none

def tuntapSysStartTun (dev : Device) (tun : Int) : Sys (Int × Device) := do
  let some (fd, tun) ← openTun tun | return (-1, dev)
  let goesOn ← checkFd fd
  if goesOn = false then
    return (-1, dev)
  let ifr : BsdIfreq := Buf.zero.strlcpy 0 (CString.lit "tun" ++ CString.int tun) 16
  let dev := { dev with ifName := dev.ifName.strlcpy 0 (ifrName ifr).cstr 17 }
  let r ← ioctlGet dev.ctrlSock .siocgifflags ifr
  if r.ret = -1 then
    tuntapLog .err "Can't get interface values"
    return (-1, dev)
  return (fd, { dev with flags := (ifrFlags r.arg).signExtend 32 })

/-- The driver's creation when persistence is asked for: whether the start
goes on. -/
def forceCreation (dev : Device) (mode : Mode) (tun : Int) : Sys Bool := do
  if mode.isPersist then
    let result ← tuntapSysCreateDev dev mode.clearPersist tun
    return result ≠ -1
  return true

def tuntapSysStart (dev : Device) (mode : Mode) (tun : Int) : Sys (Int × Device) := do
  let goesOn ← forceCreation dev mode tun
  if goesOn = false then
    return (-1, dev)
  let mode := if mode.isPersist then mode.clearPersist else mode
  if mode = tuntapModeEthernet then
    tuntapSysStartTap dev tun
  else if mode = tuntapModeTunnel then
    tuntapSysStartTun dev tun
  else
    return (-1, dev)

def tuntapSysDestroy (dev : Device) : Sys Unit := do
  let r ← ioctl dev.ctrlSock .siocifdestroy (reqNamed 32 dev)
  if r.ret = -1 then
    tuntapLog .warn "Can't destroy the interface"

def tuntapSysSetHwaddr (dev : Device) (ethAddr : Buf 6) : Sys Int := do
  let ifra : Ifaliasreq := Buf.zero.memcpy 0 dev.ifName 17
  let r ← ioctl dev.ctrlSock .siocsifphyaddr (setLladdr ifra ethAddr)
  if r.ret = -1 then
    tuntapLog .err "Can't set link-layer address"
    return -1
  return 0

def tuntapSysSetIpv4 (dev : Device) (s : Buf 4) (bits : BitVec 32) : Sys Int := do
  let ifa : Ifaliasreq := reqNamed 64 dev
  let _ ← ioctl dev.ctrlSock .siocdifaddr (reqNamed 32 dev)
  let ifa := ifa.memcpy 16 (bsdSockaddrIn s) 16
  let ifa := ifa.memcpy 48 (bsdSockaddrIn (Buf.store32 bits)) 16
  let r ← ioctl dev.ctrlSock .siocaifaddr ifa
  if r.ret = -1 then
    tuntapLog .err "Can't set IP/netmask"
    return -1
  return 0

def tuntapSysSetDescr (_dev : Device) (_descr : CString) (_len : Nat) : Sys Int := do
  tuntapLog .notice "Your system does not support tuntap_set_descr()"
  return -1

def tuntapSysGetDescr (_dev : Device) : Sys CString := do
  tuntapLog .notice "Your system does not support tuntap_get_descr()"
  return CString.lit ""

end Libtuntap.NetBsd
