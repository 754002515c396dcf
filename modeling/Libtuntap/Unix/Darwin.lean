import Libtuntap.Unix.Bsd

/-!
# The Darwin back end

`tuntap-unix-darwin.c`. The mode is first applied to a request structure with
no defined content, which is cleared before it is used.
-/

namespace Libtuntap.Darwin

open Effect CMem Bsd

/-- From the opened node on: `SIOCGIFFLAGS`, the flags set back, the address. -/
def configure (dev : Device) (mode : Mode) (type : CString) (fd tun : Int)
    (ifr : BsdIfreq) : Sys (Int × Device) := do
  let ifr := (ifr.memset 0 0 32).strlcpy 0 (type ++ CString.int tun) 16
  let dev := { dev with ifName := dev.ifName.strlcpy 0 (ifrName ifr).cstr 17 }
  let r ← ioctlGet dev.ctrlSock .siocgifflags ifr
  let ifr := r.arg
  if r.ret = -1 then
    tuntapLog .err "Can't get interface values"
    return (-1, dev)
  let r ← ioctl dev.ctrlSock .siocsifflags ifr
  if r.ret = -1 then
    tuntapLog .err "Can't set interface values"
    return (-1, dev)
  let dev := { dev with flags := (ifrFlags ifr).signExtend 32 }
  if mode = tuntapModeEthernet then
    let dev ← saveLladdr dev
    return (fd, dev)
  return (fd, dev)

def tuntapSysStart (dev : Device) (mode : Mode) (tun : Int) : Sys (Int × Device) := do
  let ifr : BsdIfreq ← uninit 32
  if mode.isPersist then
    tuntapLog .notice "Your system does not support persistent device"
    return (-1, dev)
  if mode ≠ tuntapModeEthernet ∧ mode ≠ tuntapModeTunnel then
    tuntapLog .err "Invalid parameter 'mode'"
    return (-1, dev)
  let type := CString.lit (if mode = tuntapModeEthernet then "tap" else "tun")
  let ifr := setIfrFlags ifr
    (if mode = tuntapModeEthernet then ifrFlags ifr ||| iffLink0
     else ifrFlags ifr &&& ~~~iffLink0)
  let some (fd, tun) ← openUnit type tun | return (-1, dev)
  let goesOn ← checkFd fd
  if goesOn = false then
    return (-1, dev)
  configure dev mode type fd tun ifr

def tuntapSysDestroy (_dev : Device) : Sys Unit := return ()

def tuntapSysSetHwaddr (dev : Device) (ethAddr : Buf 6) : Sys Int := do
  let r ← ioctl dev.ctrlSock .siocsiflladdr (setLladdr (reqNamed 32 dev) ethAddr)
  if r.ret < 0 then
    tuntapLog .err "Can't set link-layer address"
    return -1
  return 0

def tuntapSysSetIpv4 (dev : Device) (s4 : Buf 4) (bits : BitVec 32) : Sys Int := do
  let ifa : Ifaliasreq := reqNamed 64 dev
  let _ ← ioctl dev.ctrlSock .siocdifaddr (reqNamed 32 dev)
  let ifa := ifa.memcpy 16 (bsdSockaddrIn s4) 16
  let ifa := ifa.memcpy 48 (bsdSockaddrIn (Buf.store32 bits)) 16
  -- SIOCSIFADDR reads a struct ifreq
  let r ← ioctl dev.ctrlSock .siocsifaddr ifa
  if r.ret = -1 then
    tuntapLog .err "Can't set IP/netmask"
    return -1
  return 0

def tuntapSysSetDescr (_dev : Device) (_descr : CString) (_len : Nat) : Sys Int := do
  tuntapLog .notice "Your system does not support tuntap_set_descr()"
  return -1

def tuntapSysGetDescr (_dev : Device) : Sys CString := do
  tuntapLog .notice "Your system does not support tuntap_get_descr()"
  return CString.lit ""

end Libtuntap.Darwin
