import Libtuntap.Effect.Simulation
import Libtuntap.Proofs.Idle
import Libtuntap.Proofs.Flags
import Libtuntap.Proofs.Inet6
import Libtuntap.Proofs.SetIp

/-!
# A started device as a tunnel

What a started Linux device is for is said here without descriptors, sockets and
requests. A tunnel is an interface and three things the library remembers of it.
Each call of the API either does what it says to the interface and to what is
remembered, or answers -1 and, with two exceptions, does nothing. `tuntap_set_hwaddr`
remembers the address also when the system refuses it, and `tuntap_set_ip` takes
two steps, of which the second may be refused.

`Tunnel.Step` is a statement of purpose, not a translation. The library's own
calls, down to the bytes of every request, are shown to be such steps.
-/

namespace Libtuntap

open Effect CMem

/-- A tunnel: the descriptor handed to the application, the name, the flags and
the address the library remembers, and the interface itself. -/
structure Tunnel where
  fd : Int
  name : CString
  flags : BitVec 32
  hwaddr : Buf 6
  iface : Iface

namespace Tunnel

/-- The call fails and nothing has changed. -/
def Fails (t : Tunnel) (ret : Ret) (t' : Tunnel) : Prop := ret = .int (-1) ∧ t' = t

/-- All or nothing. -/
def Sets (t : Tunnel) (done : Tunnel) (ret : Ret) (t' : Tunnel) : Prop :=
  t.Fails ret t' ∨ ret = .int 0 ∧ t' = done

def withInet (t : Tunnel) (inet : List (Buf 4 × Buf 4)) : Tunnel :=
  { t with iface := { t.iface with inet := inet } }

def withInet6 (t : Tunnel) (inet6 : List Inet6) : Tunnel :=
  { t with iface := { t.iface with inet6 := inet6 } }

/-- The flags are those remembered, changed, as far as the system lets them be
set. -/
def withFlags (t : Tunnel) (R : Rules) (change : BitVec 16 → BitVec 16) : Tunnel :=
  { t with
    flags := (change (t.flags.setWidth 16)).signExtend 32
    iface := { t.iface with
      flags := R.mergeFlags t.iface.flags (change (t.flags.setWidth 16)) } }

/-- The name is remembered whole, and the interface has as much of it as fits. -/
def withName (t : Tunnel) (name : CString) : Tunnel :=
  { t with
    name := name
    iface := { t.iface with name := name.take 15 } }

def withMtu (t : Tunnel) (mtu : BitVec 32) : Tunnel :=
  { t with iface := { t.iface with mtu := mtu } }

/-- The address a text stands for; a random one is for one station and not
locally administered. -/
def MeansHwaddr (libc : Libc) (text : CString) (a : Buf 6) : Prop :=
  if text = CString.lit "random" then a.byte 0 &&& 3 = 0 else libc.etherAton text = some a

def SetsHwaddr (libc : Libc) (t : Tunnel) (text : CString) (ret : Ret) (t' : Tunnel) : Prop :=
  t.Fails ret t' ∨ ∃ a, MeansHwaddr libc text a ∧
    (ret = .int (-1) ∧ t' = { t with hwaddr := a } ∨
      ret = .int 0 ∧ t' = { t with hwaddr := a, iface := { t.iface with hwaddr := a } })

/-- An address takes the place of all others, first with the mask of its class. -/
def SetsIpv4 (R : Rules) (t : Tunnel) (a : Buf 4) (netmask : Int) (ret : Ret) (t' : Tunnel) :
    Prop :=
  ret = .int (-1) ∧ t' = t.withInet [(a, R.classMask a)] ∨
    ret = .int 0 ∧ ∃ mask, (netmask ≤ 32 → IsPrefixMask (networkWord mask) netmask) ∧
      t' = t.withInet [(a, mask)]

/-- An address is added; that of no host may go. -/
def SetsIpv6 (t : Tunnel) (a : Buf 16) (prefixLen : Int) (ret : Ret) (t' : Tunnel) : Prop :=
  ∃ inet6, (inet6 = t.iface.inet6 ∨ inet6 = t.iface.inet6.erase unspecified) ∧
    (ret = .int (-1) ∧ t' = t.withInet6 inet6 ∨
      ret = .int 0 ∧ t' = t.withInet6 (inet6Given (a, prefixLen) :: inet6))

def SetsIp (R : Rules) (libc : Libc) (t : Tunnel) (addr : Option CString) (netmask : Int)
    (ret : Ret) (t' : Tunnel) : Prop :=
  t.Fails ret t' ∨ ∃ text, addr = some text ∧ 0 ≤ netmask ∧ netmask ≤ 128 ∧
    ((∃ a, libc.inetPton4 text = some a ∧ t.SetsIpv4 R a netmask ret t') ∨
      (∃ a, libc.inetPton4 text = none ∧ libc.inetPton6 text = some a ∧
        t.SetsIpv6 a netmask ret t'))

/-- The first packet that waits is delivered, cut to the size of the buffer; a
buffer of no bytes gets none. -/
def Reads (t : Tunnel) (size : Nat) (ret : Ret) (t' : Tunnel) : Prop :=
  (∃ data, ret = .bytes (-1) data) ∧ t' = t ∨
    size = 0 ∧ ret = .bytes 0 [] ∧ t' = t ∨
    size ≠ 0 ∧ ∃ packet rest, t.iface.queue = packet :: rest ∧
      ret = .bytes (packet.take size).length (packet.take size) ∧
      t' = { t with iface := { t.iface with queue := rest } }

/-- What an API call does. -/
def Does (R : Rules) (libc : Libc) (t : Tunnel) (op : Op) (ret : Ret) (t' : Tunnel) : Prop :=
  match op with
  | .start .. | .setDescr _ => t.Fails ret t'
  | .release | .destroy => False
  | .getDescr => ret = .str (CString.lit "") ∧ t' = t
  | .getIfname => ret = .str t.name ∧ t' = t
  | .setIfname ifname => t.Fails ret t' ∨ ∃ name, ifname = some name ∧ name.strlen ≤ 16 ∧
      ret = .int 0 ∧ t' = t.withName name
  | .getHwaddr => ret = .str (libc.etherNtoa t.hwaddr) ∧ t' = t
  | .setHwaddr text => t.SetsHwaddr libc text ret t'
  | .up => t.Sets (t.withFlags R fun flags => flags ||| iffUp) ret t'
  | .down => t.Sets (t.withFlags R fun flags => flags &&& ~~~iffUp) ret t'
  | .getMtu | .getReadable => (ret = .int (-1) ∨ ret = .int t.iface.mtu.toInt) ∧ t' = t
  | .setMtu mtu => t.Sets (t.withMtu mtu) ret t'
  | .setIp addr netmask => t.SetsIp R libc addr netmask ret t'
  | .read size | .readTm size _ => t.Reads size ret t'
  | .write _ | .writeTm .. => (∃ n, ret = .int n) ∧ t' = t
  | .setNonblocking _ | .setDebug _ => t.Sets t ret t'
  | .getFd => ret = .int t.fd ∧ t' = t

end Tunnel

/-- What happens to a tunnel: a call with its answer, or packets that arrive
while the rest of the system does what it likes. -/
inductive TunnelAct where
  | call (op : Op) (ret : Ret)
  | others (packets : List (List UInt8))

/-- The steps of a tunnel, of which others keep the parts in `kept`. -/
inductive Tunnel.Step (R : Rules) (libc : Libc) (kept : List Field) :
    Tunnel → TunnelAct → Tunnel → Prop where
  | call {t t' : Tunnel} {op : Op} {ret : Ret} :
      t.Does R libc op ret t' → Step R libc kept t (.call op ret) t'
  | others {t : Tunnel} {iface : Iface} {packets : List (List UInt8)} :
      iface.queue = t.iface.queue ++ packets → (∀ field ∈ kept, t.iface.Same iface field) →
        Step R libc kept t (.others packets) { t with iface := iface }

end Libtuntap
