import Libtuntap.Effect.Prog
import Libtuntap.CMem.CString

/-!
# What the Unix library asks of its host

Every effect of `tuntap-unix*.c` and `tuntap.c` is one of these calls: the
system calls with their arguments, the few library functions with a state of
their own, and the log callback. An `ioctl` takes its argument as the block of
memory the pointer leads to, so a request handed the wrong structure is still a
request, and what a kernel reads in it is decided by the layout alone.

The `ioctl`s come in five shapes. Most requests only pass their structure in;
the ones that are read afterwards get the block back with the reply; the
interface descriptions and FreeBSD's rename pass a pointer inside the
structure, so the memory it leads to is part of the call; and `TUNSETPERSIST`
is handed a number where the others are handed a pointer. A request that is
handed a pointer where its driver reads a number is still a request of the
first shape.

Two calls stand for what the C standard leaves open. `uninit` is the content a
local happens to have before it is set, and `overshift` the result of a shift
by the width of the type or more. Both get any reply at all.
-/

namespace Libtuntap

open Effect CMem

/-- `TUNTAP_LOG_*`. -/
inductive Level where
  | none
  | debug
  | info
  | notice
  | warn
  | err
deriving DecidableEq, Repr

/-- The address families sockets are opened for. -/
inductive Domain where
  | inet
  | inet6
deriving DecidableEq, Repr

/-- The values of `errno` the sources tell apart. -/
inductive Errno where
  | eexist
  | eagain
  | other
deriving DecidableEq, Repr, Inhabited

/-- The `ioctl` requests the sources issue. -/
inductive Request where
  | siocgifflags
  | siocsifflags
  | siocgifmtu
  | siocsifmtu
  | siocgifindex
  | siocsifname
  | siocgifhwaddr
  | siocsifhwaddr
  | siocgifaddr
  | siocsiflladdr
  | siocsifphyaddr
  | siocsifaddr
  | siocsifnetmask
  | siocdifaddr
  | siocaifaddr
  | siocifcreate
  | siocifcreate2
  | siocifdestroy
  | siocsifdescr
  | siocgifdescr
  | tunsetiff
  | tunsetpersist
  | tunsdebug
  | tapgifname
  | tungifname
  | fionread
  | fionbio
deriving DecidableEq, Repr

/-- One entry of the list `getifaddrs` gives: the interface name and the memory
from its address structure on. -/
structure Ifaddr where
  ifaName : CString
  ifaAddr : Nat → UInt8

/-- A call to the host. -/
inductive Call where
  | malloc
  | free
  | log (level : Level) (msg : CString)
  | socket (domain : Domain)
  | open (path : CString)
  | close (fd : Int)
  | ioctl {n : Nat} (fd : Int) (req : Request) (arg : Buf n)
  | ioctlVal (fd : Int) (req : Request) (val : BitVec 32)
  | ioctlGet {n : Nat} (fd : Int) (req : Request) (arg : Buf n)
  | ioctlStr {n : Nat} (fd : Int) (req : Request) (arg : Buf n) (str : CString) (len : Nat)
  | ioctlGetStr {n : Nat} (fd : Int) (req : Request) (arg : Buf n) (len : Nat)
  | read (fd : Int) (size : Nat)
  | write (fd : Int) (buf : List UInt8)
  | select (nfds fd : Int) (reading : Bool) (sec usec : Int)
  | getifaddrs
  | time
  | srandom (seed : BitVec 32)
  | random
  | uninit (n : Nat)
  | overshift (x : BitVec 32) (count : Int)

/-- The reply to an `ioctl`. -/
structure IoctlRet where
  ret : Int
  errno : Errno
deriving Inhabited

/-- The reply to an `ioctl` whose structure comes back. -/
structure IoctlGetRet (n : Nat) where
  ret : Int
  arg : Buf n
deriving Inhabited

/-- The reply to `read`: the bytes stored in the buffer. -/
structure ReadRet where
  ret : Int
  errno : Errno
  data : List UInt8
deriving Inhabited

@[reducible] def Resp : Call → Type
  | .malloc => Bool
  | .free => Unit
  | .log .. => Unit
  | .socket _ => Int
  | .open _ => Int
  | .close _ => Int
  | .ioctl .. => IoctlRet
  | .ioctlVal .. => IoctlRet
  | .ioctlGet (n := n) .. => IoctlGetRet n
  | .ioctlStr .. => IoctlRet
  | .ioctlGetStr _ _ _ len => IoctlGetRet len
  | .read .. => ReadRet
  | .write .. => Int
  | .select .. => Int
  | .getifaddrs => Option (List Ifaddr)
  | .time => Int
  | .srandom _ => Unit
  | .random => Nat
  | .uninit n => Buf n
  | .overshift .. => BitVec 32

instance (c : Call) : Nonempty (Resp c) := by
  cases c <;> infer_instance

/-- Programs of the Unix library. -/
abbrev Sys := Prog Call Resp

abbrev malloc : Sys Bool := Prog.call Call.malloc
abbrev free : Sys Unit := Prog.call Call.free
abbrev tuntapLog (level : Level) (msg : String) : Sys Unit :=
  Prog.call (Call.log level (CString.lit msg))
abbrev socket (domain : Domain) : Sys Int := Prog.call (Call.socket domain)
abbrev openRdwr (path : CString) : Sys Int := Prog.call (Call.open path)
abbrev close (fd : Int) : Sys Int := Prog.call (Call.close fd)
abbrev ioctl {n : Nat} (fd : Int) (req : Request) (arg : Buf n) : Sys IoctlRet :=
  Prog.call (Call.ioctl fd req arg)
abbrev ioctlVal (fd : Int) (req : Request) (val : BitVec 32) : Sys IoctlRet :=
  Prog.call (Call.ioctlVal fd req val)
abbrev ioctlGet {n : Nat} (fd : Int) (req : Request) (arg : Buf n) : Sys (IoctlGetRet n) :=
  Prog.call (Call.ioctlGet fd req arg)
abbrev ioctlStr {n : Nat} (fd : Int) (req : Request) (arg : Buf n) (str : CString)
    (len : Nat) : Sys IoctlRet :=
  Prog.call (Call.ioctlStr fd req arg str len)
abbrev ioctlGetStr {n : Nat} (fd : Int) (req : Request) (arg : Buf n) (len : Nat) :
    Sys (IoctlGetRet len) :=
  Prog.call (Call.ioctlGetStr fd req arg len)
abbrev read (fd : Int) (size : Nat) : Sys ReadRet := Prog.call (Call.read fd size)
abbrev write (fd : Int) (buf : List UInt8) : Sys Int := Prog.call (Call.write fd buf)
abbrev select (nfds fd : Int) (reading : Bool) (sec usec : Int) : Sys Int :=
  Prog.call (Call.select nfds fd reading sec usec)
abbrev getifaddrs : Sys (Option (List Ifaddr)) := Prog.call Call.getifaddrs
abbrev time : Sys Int := Prog.call Call.time
abbrev srandom (seed : BitVec 32) : Sys Unit := Prog.call (Call.srandom seed)
abbrev random : Sys Nat := Prog.call Call.random
abbrev uninit (n : Nat) : Sys (Buf n) := Prog.call (Call.uninit n)
abbrev overshift (x : BitVec 32) (count : Int) : Sys (BitVec 32) :=
  Prog.call (Call.overshift x count)

end Libtuntap
