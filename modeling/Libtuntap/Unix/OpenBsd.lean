import Libtuntap.Unix.Bsd

/-!
# The OpenBSD back end

`tuntap-unix-openbsd.c`.
-/

namespace Libtuntap.OpenBsd

open Effect CMem Bsd

def ifdescrsize : Nat := 64

def tuntapSysCreateDev (dev : Device) (ifname : CString) (tun : Int) : Sys Int := do
  let ifr : BsdIfreq := Buf.zero.strlcpy 0 (ifname ++ CString.int tun) ifNamesize
  let r ← ioctl dev.ctrlSock .siocifcreate ifr
  if r.ret = -1 then
    tuntapLog .err "Can't set persistent"
    return -1
  return 0

/-- The driver's creation when persistence is asked for: whether the start
goes on. -/
def forceCreation (dev : Device) (ifname : CString) (persist : Prop) [Decidable persist]
    (tun : Int) : Sys Bool := do
  if persist then
    let result ← tuntapSysCreateDev dev ifname tun
    return result ≠ -1
  return true

/-- From the opened node on: `SIOCGIFFLAGS`, the flags set back, the address. -/
def configure (dev : Device) (mode : Mode) (ifname : CString) (fd tun : Int) :
    Sys (Int × Device) := do
  let ifr : BsdIfreq := Buf.zero.strlcpy 0 (ifname ++ CString.int tun) 16
  let dev := { dev with ifName := dev.ifName.strlcpy 0 (ifrName ifr).cstr 17 }
  let r ← ioctlGet dev.ctrlSock .siocgifflags ifr
  let ifr := r.arg
  if r.ret = -1 then
    tuntapLog .err "Can't get interface values"
    return (-1, dev)
  let r ← ioctl dev.ctrlSock .siocsifflags ifr
  if r.ret = -1 then
    tuntapLog .err "Can't set interface values"
    return (-1, dev)
  let dev := { dev with flags := (ifrFlags ifr).signExtend 32 }
  if mode = tuntapModeEthernet then
    let addr ← uninit 6
    let r ← ioctlGet fd .siocgifaddr addr
    if r.ret = -1 then
      tuntapLog .warn "Can't get link-layer address"
      return (fd, dev)
    return (fd, { dev with hwaddr := r.arg })
  return (fd, dev)

def tuntapSysStart (dev : Device) (mode : Mode) (tun : Int) : Sys (Int × Device) := do
  let persist := mode.isPersist
  let mode := if persist then mode.clearPersist else mode
  if mode ≠ tuntapModeEthernet ∧ mode ≠ tuntapModeTunnel then
    tuntapLog .err "Invalid parameter 'mode'"
    return (-1, dev)
  let ifname := CString.lit (if mode = tuntapModeEthernet then "tap" else "tun")
  let goesOn ← forceCreation dev ifname persist tun
  if goesOn = false then
    return (-1, dev)
  let some (fd, tun) ← openUnit ifname tun | return (-1, dev)
  let goesOn ← checkFd fd
  if goesOn = false then
    return (-1, dev)
  configure dev mode ifname fd tun

def tuntapSysDestroy (dev : Device) : Sys Unit := do
  let r ← ioctl dev.ctrlSock .siocifdestroy (reqNamed 32 dev)
  if r.ret = -1 then
    tuntapLog .warn "Can't destroy the interface"

def tuntapSysSetHwaddr (dev : Device) (ethAddr : Buf 6) : Sys Int := do
  let r ← ioctl dev.ctrlSock .siocsiflladdr (setLladdr (reqNamed 32 dev) ethAddr)
  if r.ret < 0 then
    tuntapLog .err "Can't set link-layer address"
    return -1
  return 0

def tuntapSysSetIpv4 (dev : Device) (s4 : Buf 4) (bits : BitVec 32) : Sys Int := do
  let ifa : Ifaliasreq := reqNamed 64 dev
  let _ ← ioctl dev.ctrlSock .siocdifaddr (reqNamed 32 dev)
  let ifa := ifa.memcpy 16 (bsdSockaddrIn s4) 16
  let ifa := ifa.memcpy 48 (bsdSockaddrIn (Buf.store32 bits)) 16
  let r ← ioctl dev.ctrlSock .siocaifaddr ifa
  if r.ret = -1 then
    tuntapLog .err "Can't set IP/netmask"
    return -1
  return 0

def tuntapSysSetDescr (dev : Device) (descr : CString) (len : Nat) : Sys Int := do
  if len > ifdescrsize then
    -- The value will be truncated
    tuntapLog .warn "Parameter 'descr' is too long"
  let r ← ioctlStr dev.ctrlSock .siocsifdescr (reqNamed 32 dev) descr (descr.strlen + 1)
  if r.ret = -1 then
    tuntapLog .err "Can't set the interface description"
    return -1
  return 0

def tuntapSysGetDescr (dev : Device) : Sys CString := do
  let r ← ioctlGetStr dev.ctrlSock .siocgifdescr (reqNamed 32 dev) ifdescrsize
  if r.ret = -1 then
    tuntapLog .err "Can't get the interface description"
    return CString.lit ""
  return r.arg.cstr

end Libtuntap.OpenBsd
