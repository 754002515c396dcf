import Libtuntap.Effect.Trace
import Libtuntap.Unix.Core
import Mathlib.Logic.Function.Basic

/-!
# The kernel under the library

What the documentation of the system calls promises, as one relation. The state
is the descriptor table of the process and the interfaces of the machine; the
step says which replies a call can get and what it leaves behind. Every call
may be refused, and a refused call changes nothing. Which calls are granted is
nowhere decided.

Interfaces are found the way a kernel finds them: by the name at the start of
the request, of which it reads 15 bytes. A request therefore reaches the
interface its bytes name and not the one the caller had in mind, and a request
handed the wrong structure is read at the offsets of the structure it expects.

Two things a Linux kernel does are left out. A new name with a `%d` in it is
taken as it is, where Linux puts a number in its place, so runs with such names
are runs of a kernel that does not. And the flag word is what processes made of
it; `IFF_RUNNING`, which the kernel computes from the state of the device and no
process sets, counts as a bit others change.

The systems differ in what `open` and `close` do to interfaces. On Linux a
descriptor is attached by `TUNSETIFF` and an interface that is not persistent
goes with the descriptor; elsewhere the device node is the interface, which an
`open` may create and a `close` may remove. Which bits of the flag word a
process may set and which mask goes with a class are parameters.
-/

namespace Libtuntap

open Effect CMem

/-- An interface. `framing` holds the flags of `TUNSETIFF`, `inet` addresses
with their masks, `inet6` addresses with their prefix lengths, and `queue` the
packets waiting to be read. -/
structure Iface where
  name : CString
  framing : BitVec 16
  flags : BitVec 16
  hwaddr : Buf 6
  mtu : BitVec 32
  persist : Bool
  inet : List (Buf 4 × Buf 4)
  inet6 : List (Buf 16 × BitVec 32)
  queue : List (List UInt8)

/-- What a descriptor refers to: a socket, a tun or tap device with the index
of the interface it is attached to, or something the host opened. -/
inductive Desc where
  | socket (domain : Domain)
  | tun (iface : Option Nat)
  | host
deriving DecidableEq

/-- The descriptors of the process and the interfaces of the machine. -/
structure Kern where
  fds : Int → Option Desc
  ifs : Nat → Option Iface
  distinct : ∀ i j f g, ifs i = some f → ifs j = some g → f.name = g.name → i = j
  short : ∀ i f, ifs i = some f → f.name.strlen ≤ 15

/-- What the systems leave to configuration. -/
structure Rules where
  os : Os
  settable : BitVec 16
  settable_up : settable &&& iffUp = iffUp
  classMask : Buf 4 → Buf 4

/-- The flag word after `SIOCSIFFLAGS`: the settable bits are those asked for. -/
def Rules.mergeFlags (R : Rules) (flags asked : BitVec 16) : BitVec 16 :=
  (flags &&& ~~~R.settable) ||| (asked &&& R.settable)

namespace Kern

def IsSocket (s : Kern) (fd : Int) : Prop := ∃ domain, s.fds fd = some (.socket domain)

/-- The interface a request names. -/
def Found (s : Kern) {n : Nat} (arg : Buf n) (i : Nat) (f : Iface) : Prop :=
  s.ifs i = some f ∧ f.name = (ifrName arg).cstr.take 15

/-- The interface a descriptor is attached to. -/
def Attached (s : Kern) (fd : Int) (i : Nat) (f : Iface) : Prop :=
  s.fds fd = some (.tun (some i)) ∧ s.ifs i = some f

/-- One interface is changed or added. -/
def Put (s s' : Kern) (i : Nat) (f : Iface) : Prop :=
  s'.fds = s.fds ∧ s'.ifs = Function.update s.ifs i (some f)

/-- The interface a request names is changed, through a socket. -/
def Alters (s : Kern) (fd : Int) {n : Nat} (arg : Buf n) (change : Iface → Iface)
    (s' : Kern) : Prop :=
  s.IsSocket fd ∧ ∃ i f, s.Found arg i f ∧ s.Put s' i (change f)

/-- An `open` is granted. -/
def Opens (R : Rules) (s : Kern) (path : CString) (fd : Int) (s' : Kern) : Prop :=
  match R.os with
  | .linux => s'.ifs = s.ifs ∧ s'.fds = Function.update s.fds fd (some (.tun none))
  | _ => ∃ i f, (path = CString.lit "/dev/" ++ f.name ∨ path = CString.lit "/dev/tap") ∧
      (s.ifs i = some f ∨ s.ifs i = none) ∧
      s'.ifs = Function.update s.ifs i (some f) ∧
      s'.fds = Function.update s.fds fd (some (.tun (some i)))

/-- What becomes of the interfaces when a descriptor is closed. -/
def Leaves (R : Rules) (s : Kern) (fd : Int) (s' : Kern) : Prop :=
  match s.fds fd with
  | some (.tun (some i)) =>
      (∃ f, s.ifs i = some f ∧ f.persist = true) ∧ s'.ifs = s.ifs ∨
        (¬ ∃ f, s.ifs i = some f ∧ f.persist = true) ∧
          (s'.ifs = Function.update s.ifs i none ∨ R.os ≠ .linux ∧ s'.ifs = s.ifs)
  | _ => s'.ifs = s.ifs

/-- A request that passes its structure in is granted. -/
def Sets (R : Rules) (s : Kern) (fd : Int) (req : Request) {n : Nat} (arg : Buf n)
    (s' : Kern) : Prop :=
  match req with
  | .siocsifflags =>
      s.Alters fd arg (fun f => { f with flags := R.mergeFlags f.flags (ifrFlags arg) }) s'
  | .siocsifmtu => s.Alters fd arg (fun f => { f with mtu := ifrInt arg }) s'
  | .siocsifname =>
      s.Alters fd arg (fun f => { f with name := (ifrNewname arg).cstr.take 15 }) s'
  | .siocsifhwaddr | .siocsiflladdr =>
      s.Alters fd arg (fun f => { f with hwaddr := ifrHwaddr arg }) s'
  | .siocsifaddr =>
      if s.fds fd = some (.socket .inet6) then
        ∃ i f, s.ifs i = some f ∧ i = (Buf.load32 (arg.slice 20 4)).toNat ∧
          s.Put s' i { f with
            inet6 := (arg.slice 0 16, Buf.load32 (arg.slice 16 4)) :: f.inet6 }
      else
        s.Alters fd arg
          (fun f => { f with inet := [(ifrInAddr arg, R.classMask (ifrInAddr arg))] }) s'
  | .siocsifnetmask =>
      s.Alters fd arg
        (fun f => { f with inet := f.inet.map fun a => (a.1, ifrInAddr arg) }) s'
  | .siocdifaddr =>
      if s.fds fd = some (.socket .inet6) then
        ∃ i f, s.ifs i = some f ∧ i = (Buf.load32 (arg.slice 20 4)).toNat ∧
          (arg.slice 0 16, Buf.load32 (arg.slice 16 4)) ∈ f.inet6 ∧
          s.Put s' i { f with
            inet6 := f.inet6.erase (arg.slice 0 16, Buf.load32 (arg.slice 16 4)) }
      else s.Alters fd arg (fun f => { f with inet := f.inet.drop 1 }) s'
  | .siocaifaddr =>
      s.Alters fd arg
        (fun f => { f with
          inet := f.inet.filter (fun a => a.1 ≠ ifrInAddr arg) ++
            [(ifrInAddr arg, ifraMask arg)] }) s'
  | .siocifcreate | .siocifcreate2 =>
      s.IsSocket fd ∧ ∃ i f, s.ifs i = none ∧ f.name = (ifrName arg).cstr.take 15 ∧
        s.Put s' i f
  | .siocifdestroy =>
      s.IsSocket fd ∧ ∃ i f, s.Found arg i f ∧ s'.fds = s.fds ∧
        s'.ifs = Function.update s.ifs i none
  | .siocsifphyaddr | .tunsdebug | .fionbio => s' = s
  | _ => False

/-- A request that passes a number is granted. -/
def SetsVal (s : Kern) (fd : Int) (req : Request) (val : BitVec 32) (s' : Kern) : Prop :=
  match req with
  | .tunsetpersist =>
      ∃ i f, s.Attached fd i f ∧ s.Put s' i { f with persist := decide (val ≠ 0) }
  | _ => False

/-- A request that is read afterwards is granted. -/
def Gets (R : Rules) (s : Kern) (fd : Int) (req : Request) {n : Nat} (arg out : Buf n)
    (s' : Kern) : Prop :=
  match req with
  | .tunsetiff =>
      R.os = .linux ∧ s.fds fd = some (.tun none) ∧ ∃ i f,
        f.framing = ifrFlags arg ∧
        (s.ifs i = none ∧ f.persist = false ∨
          ∃ g, s.ifs i = some g ∧ (∀ fd', s.fds fd' ≠ some (.tun (some i))) ∧
            f = { g with framing := ifrFlags arg }) ∧
        ((ifrName arg).cstr ≠ CString.lit "" → f.name = (ifrName arg).cstr.take 15) ∧
        (ifrName out).cstr = f.name ∧
        s'.fds = Function.update s.fds fd (some (.tun (some i))) ∧
        s'.ifs = Function.update s.ifs i (some f)
  | .siocgifflags =>
      s' = s ∧ s.IsSocket fd ∧ ∃ i f, s.Found arg i f ∧ out = setIfrFlags arg f.flags
  | .siocgifmtu =>
      s' = s ∧ s.IsSocket fd ∧ ∃ i f, s.Found arg i f ∧ out = setIfrInt arg f.mtu
  | .siocgifindex =>
      s' = s ∧ s.IsSocket fd ∧ ∃ i f, s.Found arg i f ∧ out = setIfrInt arg (BitVec.ofNat 32 i)
  | .siocgifhwaddr => s' = s ∧ ∃ i f, s.Attached fd i f ∧ ifrHwaddr out = f.hwaddr
  | .siocgifaddr => s' = s ∧ ∃ i f, s.Attached fd i f ∧ out.slice 0 6 = f.hwaddr
  | .tapgifname | .tungifname => s' = s ∧ ∃ i f, s.Attached fd i f ∧ (ifrName out).cstr = f.name
  | .fionread => R.os ≠ .linux ∧ s' = s
  | _ => False

/-- A request that passes a string is granted: FreeBSD's rename, and the
descriptions. -/
def SetsStr (s : Kern) (fd : Int) (req : Request) {n : Nat} (arg : Buf n) (str : CString)
    (s' : Kern) : Prop :=
  match req with
  | .siocsifname => s.Alters fd arg (fun f => { f with name := str.take 15 }) s'
  | .siocsifdescr => s' = s
  | _ => False

/-- A packet is read; what does not fit is dropped. A read of no bytes takes no
packet. -/
def Reads (s : Kern) (fd : Int) (size : Nat) (r : ReadRet) (s' : Kern) : Prop :=
  size = 0 ∧ r.ret = 0 ∧ r.data = [] ∧ s' = s ∨
    size ≠ 0 ∧ ∃ i f packet rest, s.Attached fd i f ∧ f.queue = packet :: rest ∧
      r.data = packet.take size ∧ r.ret = (packet.take size).length ∧
      s.Put s' i { f with queue := rest }

/-- One call: refused, which changes nothing, or granted. -/
def Step (R : Rules) (s : Kern) : (c : Call) → Resp c → Kern → Prop
  | .socket domain, fd, s' => fd = -1 ∧ s' = s ∨
      0 ≤ fd ∧ s.fds fd = none ∧ s'.ifs = s.ifs ∧
        s'.fds = Function.update s.fds fd (some (.socket domain))
  | .open path, fd, s' => fd = -1 ∧ s' = s ∨
      0 ≤ fd ∧ s.fds fd = none ∧ s.Opens R path fd s'
  | .close fd, _, s' => s'.fds = Function.update s.fds fd none ∧ s.Leaves R fd s'
  | .ioctl fd req arg, r, s' => r.ret = -1 ∧ s' = s ∨ r.ret = 0 ∧ s.Sets R fd req arg s'
  | .ioctlVal fd req val, r, s' => r.ret = -1 ∧ s' = s ∨ r.ret = 0 ∧ s.SetsVal fd req val s'
  | .ioctlGet fd req arg, r, s' =>
      r.ret = -1 ∧ s' = s ∨ r.ret = 0 ∧ s.Gets R fd req arg r.arg s'
  | .ioctlStr fd req arg str _, r, s' =>
      r.ret = -1 ∧ s' = s ∨ r.ret = 0 ∧ s.SetsStr fd req arg str s'
  | .read fd size, r, s' => r.ret = -1 ∧ s' = s ∨ s.Reads fd size r s'
  | _, _, s' => s' = s

/-- A socket that was granted has a number that was free. -/
theorem Step.socket_opens {R : Rules} {s s' : Kern} {domain : Domain} {fd : Int}
    (h : Step R s (.socket domain) fd s') (hfd : fd ≠ -1) :
    s.fds fd = none ∧ s'.fds fd = some (.socket domain) := by
  rcases h with ⟨hno, -⟩ | ⟨-, hfree, -, hfds⟩
  · exact absurd hno hfd
  · rw [hfds, Function.update_self]
    exact ⟨hfree, rfl⟩

/-- Names are read as far as names go. -/
theorem Found.unique {s : Kern} {n : Nat} {arg : Buf n} {i j : Nat} {f g : Iface}
    (hf : s.Found arg i f) (hg : s.Found arg j g) : i = j ∧ f = g := by
  obtain rfl := s.distinct i j f g hf.1 hg.1 (hf.2.trans hg.2.symm)
  exact ⟨rfl, Option.some.inj (hf.1.symm.trans hg.1)⟩

theorem Attached.unique {s : Kern} {fd : Int} {i j : Nat} {f g : Iface} (hf : s.Attached fd i f)
    (hg : s.Attached fd j g) : i = j ∧ f = g := by
  have hij : some (Desc.tun (some i)) = some (.tun (some j)) := hf.1.symm.trans hg.1
  cases hij
  exact ⟨rfl, Option.some.inj (hf.2.symm.trans hg.2)⟩

/-- A machine with no interface and a process with no descriptor. -/
def blank : Kern where
  fds _ := none
  ifs _ := none
  distinct _ _ _ _ h := by cases h
  short _ _ h := by cases h

/-- An interface is changed in everything but its name. -/
def setIface (s : Kern) (i : Nat) (f g : Iface) (hf : s.ifs i = some f)
    (hname : g.name = f.name) : Kern where
  fds := s.fds
  ifs := Function.update s.ifs i (some g)
  distinct a b fa fb ha hb hab := by
    have hold : ∀ {j : Nat} {h : Iface}, Function.update s.ifs i (some g) j = some h →
        ∃ h', s.ifs j = some h' ∧ h'.name = h.name := by
      intro j h hj
      by_cases hji : j = i
      · subst hji
        rw [Function.update_self] at hj
        exact ⟨f, hf, by rw [← Option.some.inj hj, hname]⟩
      · rw [Function.update_of_ne hji] at hj
        exact ⟨h, hj, rfl⟩
    obtain ⟨fa', ha', hna⟩ := hold ha
    obtain ⟨fb', hb', hnb⟩ := hold hb
    exact s.distinct a b fa' fb' ha' hb' (by rw [hna, hnb, hab])
  short j h hj := by
    by_cases hji : j = i
    · subst hji
      rw [Function.update_self] at hj
      rw [← Option.some.inj hj, hname]
      exact s.short j f hf
    · rw [Function.update_of_ne hji] at hj
      exact s.short j h hj

/-- A machine with one interface, and a process with no descriptor. -/
def single (f : Iface) (hf : f.name.strlen ≤ 15) : Kern where
  fds _ := none
  ifs := Function.update (fun _ => none) 0 (some f)
  distinct i j g h hg hh _ := by
    have hzero : ∀ {n : Nat} {g : Iface},
        Function.update (fun _ => none) 0 (some f) n = some g → n = 0 := by
      intro n g hn
      by_contra hne
      rw [Function.update_of_ne hne] at hn
      cases hn
    rw [hzero hg, hzero hh]
  short i g hg := by
    by_cases hi : i = 0
    · subst hi
      rw [Function.update_self] at hg
      exact Option.some.inj hg ▸ hf
    · rw [Function.update_of_ne hi] at hg
      cases hg

/-- A descriptor is set. -/
def setFd (s : Kern) (fd : Int) (d : Option Desc) : Kern :=
  { s with fds := Function.update s.fds fd d }

end Kern

/-- An interface of which only the name is of interest. -/
def Iface.named (name : CString) : Iface where
  name := name
  framing := 0
  flags := 0
  hwaddr := Buf.zero
  mtu := 1500
  persist := false
  inet := []
  inet6 := []
  queue := []

/-- The mask of the class of an address. -/
def classfulMask (a : Buf 4) : Buf 4 := fun i =>
  if i.val = 0 ∨ i.val = 1 ∧ 128 ≤ a.byte 0 ∨ i.val = 2 ∧ 192 ≤ a.byte 0 then 255 else 0

/-- A system on which every bit of the flag word may be set. -/
def Rules.plain (os : Os) : Rules where
  os := os
  settable := 0xffff
  settable_up := by decide
  classMask := classfulMask

/-- The kernel did as it was asked. -/
def Granted : Event Call Resp → Prop
  | ⟨.ioctl .., r⟩ => r.ret ≠ -1
  | ⟨.ioctlVal .., r⟩ => r.ret ≠ -1
  | ⟨.ioctlGet .., r⟩ => r.ret ≠ -1
  | ⟨.socket _, r⟩ => r ≠ -1
  | _ => True

@[simp] theorem granted_ioctl {n : Nat} (fd : Int) (req : Request) (arg : Buf n) (r : IoctlRet) :
    Granted ⟨.ioctl fd req arg, r⟩ ↔ r.ret ≠ -1 := Iff.rfl

@[simp] theorem granted_log (level : Level) (msg : CString) : Granted ⟨.log level msg, ()⟩ :=
  trivial

/-- The kernel of a system, as what a trace steps along. -/
def kernel (R : Rules) : Kernel Call Resp Kern := Kern.Step R

end Libtuntap
