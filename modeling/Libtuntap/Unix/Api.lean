import Libtuntap.Unix.Core

/-!
# The API as operations on a device

Every function of `tuntap.h` that takes a device, as one type of operations.
`Op.prog` runs the function and says what is left of the record: the two
functions that free it leave nothing, and those that answer without changing
it leave it as it was.
-/

namespace Libtuntap

open Effect CMem

/-- An API call with its arguments, the device aside. -/
inductive Op where
  | start (mode : Mode) (tun : Int)
  | release
  | destroy
  | setDescr (descr : Option CString)
  | getDescr
  | getIfname
  | setIfname (ifname : Option CString)
  | getHwaddr
  | setHwaddr (hwaddr : CString)
  | up
  | down
  | getMtu
  | setMtu (mtu : BitVec 32)
  | setIp (addr : Option CString) (netmask : Int)
  | read (size : Nat)
  | readTm (size : Nat) (timeoutMs : Int)
  | write (buf : List UInt8)
  | writeTm (buf : List UInt8) (timeoutMs : Int)
  | getReadable
  | setNonblocking (set : BitVec 32)
  | setDebug (set : BitVec 32)
  | getFd
deriving DecidableEq

/-- What an API call answers. -/
inductive Ret where
  | void
  | int (n : Int)
  | str (s : CString)
  | bytes (n : Int) (data : List UInt8)

/-- An answer, and the record unchanged. -/
def keep (dev : Device) (ret : Ret) : Ret × Option Device := (ret, some dev)

/-- An `int` answer with the record that comes back. -/
def back (r : Int × Device) : Ret × Option Device := (.int r.1, some r.2)

def Op.prog (os : Os) (libc : Libc) (dev : Device) : Op → Sys (Ret × Option Device)
  | .start mode tun => do
      let r ← tuntapStart os dev mode tun
      return back r
  | .release => do
      tuntapRelease dev
      return (.void, none)
  | .destroy => do
      tuntapDestroy os dev
      return (.void, none)
  | .setDescr descr => do
      let n ← tuntapSetDescr os dev descr
      return keep dev (.int n)
  | .getDescr => do
      let s ← tuntapGetDescr os dev
      return keep dev (.str s)
  | .getIfname => return keep dev (.str (tuntapGetIfname dev))
  | .setIfname ifname => do
      let r ← tuntapSetIfname os dev ifname
      return back r
  | .getHwaddr => return keep dev (.str (tuntapGetHwaddr libc dev))
  | .setHwaddr hwaddr => do
      let r ← tuntapSetHwaddr os libc dev hwaddr
      return back r
  | .up => do
      let r ← tuntapUp os dev
      return back r
  | .down => do
      let r ← tuntapDown os dev
      return back r
  | .getMtu => do
      let n ← tuntapGetMtu os dev
      return keep dev (.int n)
  | .setMtu mtu => do
      let n ← tuntapSetMtu os dev mtu
      return keep dev (.int n)
  | .setIp addr netmask => do
      let n ← tuntapSetIp os libc dev addr netmask
      return keep dev (.int n)
  | .read size => do
      let r ← tuntapRead dev size
      return keep dev (.bytes r.1 r.2)
  | .readTm size timeoutMs => do
      let r ← tuntapReadTm dev size timeoutMs
      return keep dev (.bytes r.1 r.2)
  | .write buf => do
      let n ← tuntapWrite dev buf
      return keep dev (.int n)
  | .writeTm buf timeoutMs => do
      let n ← tuntapWriteTm dev buf timeoutMs
      return keep dev (.int n)
  | .getReadable => do
      let n ← tuntapGetReadable os dev
      return keep dev (.int n)
  | .setNonblocking set => do
      let n ← tuntapSetNonblocking dev set
      return keep dev (.int n)
  | .setDebug set => do
      let n ← tuntapSetDebug os dev set
      return keep dev (.int n)
  | .getFd => return keep dev (.int (tuntapGetFd dev))

end Libtuntap
