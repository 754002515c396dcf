import Libtuntap.Unix.Device

/-!
# What the BSD back ends share

`tuntap-unix-bsd.c`, which OpenBSD, NetBSD and Darwin link, and the passages
their own files repeat word for word: the scan of the device nodes for the
first one that opens, the search of the `getifaddrs` list, and the name copied
with `strlcpy` into a zeroed structure.
-/

namespace Libtuntap.Bsd

open Effect CMem

/-- `/dev/%s%i`. -/
def devNode (type : CString) (tun : Int) : CString :=
  CString.lit "/dev/" ++ type ++ CString.int tun

/-- The wildcard loop from unit `tun` on, `n` units before `TUNTAP_ID_MAX`:
the last descriptor `open` gave, and the loop counter. -/
def scanUnits (type : CString) : Nat → Int → Int → Sys (Int × Int)
  | 0, tun, fd => return (fd, tun)
  | n + 1, tun, _ => do
      let fd ← openRdwr (devNode type tun)
      if fd > 0 then
        return (fd, tun)
      scanUnits type n (tun + 1) fd

/-- The given unit, or the first one the scan opens: descriptor and unit, or
nothing after a `return -1`. -/
def openUnit (type : CString) (tun : Int) : Sys (Option (Int × Int)) := do
  if tun < tuntapIdMax then
    let fd ← openRdwr (devNode type tun)
    return some (fd, tun)
  if tun = tuntapIdAny then
    let found ← scanUnits type tuntapIdMax.toNat 0 (-1)
    return some found
  tuntapLog .err "Invalid parameter 'tun'"
  return none

/-- The `switch` on the descriptor after the loop: whether it goes on. -/
def checkFd (fd : Int) : Sys Bool := do
  if fd = -1 then
    tuntapLog .err "Permission denied"
    return false
  if fd = 256 then
    tuntapLog .err "Can't find a tun entry"
    return false
  return true

/-- The first entry of the `getifaddrs` list with the device's name, whatever
its family, and the six bytes at `sa_data + 10` of its address. -/
def saveLladdr (dev : Device) : Sys Device := do
  let some ifa ← getifaddrs | return dev
  match ifa.find? fun pifa => pifa.ifaName = dev.ifName.cstr with
  | some pifa => return { dev with hwaddr := fun i => pifa.ifaAddr (2 + 10 + i) }
  | none =>
      tuntapLog .warn "Can't get link-layer address"
      return dev

/-- `memset(&req, 0, sizeof req)` and the `strlcpy` of the device's name. -/
def reqNamed (n : Nat) (dev : Device) : Buf n := Buf.zero.strlcpy 0 dev.ifName.cstr 16

/-- An `AF_LINK` `struct sockaddr` of `ETHER_ADDR_LEN` bytes in the union. -/
def setLladdr {n : Nat} (req : Buf n) (ethAddr : Buf 6) : Buf n :=
  ((req.memset 16 6 1).memset 17 afLink 1).memcpy 18 ethAddr 6

def tuntapSysSetIpv6 (_dev : Device) (_s6 : Buf 16) (_bits : BitVec 32) : Sys Int := do
  tuntapLog .notice "IPv6 is not implemented on your system"
  return -1

def tuntapSysSetIfname (_dev : Device) (_ifname : CString) (_len : Nat) : Sys Int := do
  tuntapLog .notice "Your system does not support tuntap_set_ifname()"
  return -1

end Libtuntap.Bsd
