import Libtuntap.Proofs.Idle
import Libtuntap.Proofs.Inet6

/-!
# A device works on one interface

What the five back ends have in common once a device is started. A request goes
either through `tun_fd`, which is attached to the interface, or through the
control socket and under the name in the record, and that is the name of the
same interface. So whatever a call asks for, the kernel has changed at most that
one interface, and every descriptor is what it was. Only the rename does not fit,
because after it the kernel's name is not that of the record until the call has
ended; and on Linux an IPv6 address goes through a socket opened for it, to the
interface of an index the kernel was asked for under the name.

The link itself is not lost on the way. That is what makes the statement one
about runs: it holds of the next call because it held of this one.
-/

namespace Libtuntap

open Effect CMem

/-- Nothing has changed but one interface. -/
structure Kern.Within (i : Nat) (s s' : Kern) : Prop where
  fds : s'.fds = s.fds
  ifs : ∀ j, j ≠ i → s'.ifs j = s.ifs j

section Within

variable {i : Nat} {s t u : Kern} {dev d : Device} {f g : Iface}

theorem Kern.Within.refl (s : Kern) : s.Within i s := ⟨rfl, fun _ _ => rfl⟩

theorem Kern.Within.trans (h : s.Within i t) (h' : t.Within i u) : s.Within i u where
  fds := h'.fds.trans h.fds
  ifs j hj := (h'.ifs j hj).trans (h.ifs j hj)

theorem Kern.Put.within (h : s.Put t i g) : s.Within i t where
  fds := h.1
  ifs j hj := by
    rw [h.2]
    exact Function.update_of_ne hj ..

theorem Linked.put (h : Linked dev s i f) (hput : s.Put t i g) (hname : g.name = f.name) :
    Linked dev t i g := by
  refine ⟨?_, h.reaches.put hput hname⟩
  rw [hput.1]
  exact h.attached

theorem Linked.of_record (h : Linked dev s i f) (htun : d.tunFd = dev.tunFd)
    (hctrl : d.ctrlSock = dev.ctrlSock) (hname : d.ifName = dev.ifName) : Linked d s i f := by
  refine ⟨?_, ?_, h.reaches.iface, ?_⟩
  · rw [htun]
    exact h.attached
  · rw [hctrl]
    exact h.reaches.sock
  · rw [hname]
    exact h.reaches.name

end Within

/-- Nothing else has changed, and the device is linked to that interface. -/
def KeepsTo (i : Nat) (k : Kern) (dev : Device) (k' : Kern) : Prop :=
  k.Within i k' ∧ ∃ f, Linked dev k' i f

/-! ## One call -/

/-- Made by a device on its interface, the call changes nothing else and leaves
the device linked to it. -/
def Confined (R : Rules) (dev : Device) (i : Nat) (c : Call) : Prop :=
  ∀ k f r k', Linked dev k i f → Kern.Step R k c r k' → KeepsTo i k dev k'

section Calls

variable {R : Rules} {dev : Device} {i : Nat} {fd : Int} {n : Nat} {arg : Buf n}

/-- Of the record only the descriptors and the name matter. -/
theorem Confined.of_record {d : Device} {c : Call} (h : Confined R d i c)
    (htun : d.tunFd = dev.tunFd) (hctrl : d.ctrlSock = dev.ctrlSock)
    (hname : d.ifName = dev.ifName) : Confined R dev i c := by
  intro k f r k' hlink hs
  obtain ⟨hwithin, g, hg⟩ := h k f r k' (hlink.of_record htun hctrl hname) hs
  exact ⟨hwithin, g, hg.of_record htun.symm hctrl.symm hname.symm⟩

@[simp] theorem confined_of_idles {c : Call} (hc : Idles R c) : Confined R dev i c := by
  intro k f r k' h hs
  obtain rfl := hc k r k' hs
  exact ⟨.refl _, f, h⟩

@[simp] theorem confined_log (level : Level) (msg : CString) :
    Confined R dev i (.log level msg) := confined_of_idles (idles_log level msg)

@[simp] theorem confined_ioctlGet (req : Request) (hreq : req ≠ .tunsetiff) :
    Confined R dev i (.ioctlGet fd req arg) := confined_of_idles (idles_ioctlGet req hreq)

@[simp] theorem confined_ioctlGetStr (req : Request) (len : Nat) :
    Confined R dev i (.ioctlGetStr fd req arg len) := confined_of_idles fun _ _ _ h => h

@[simp] theorem confined_siocsifdescr (str : CString) (len : Nat) :
    Confined R dev i (.ioctlStr fd .siocsifdescr arg str len) :=
  confined_of_idles fun _ _ _ h => h.elim And.right And.right

@[simp] theorem confined_siocsifphyaddr : Confined R dev i (.ioctl fd .siocsifphyaddr arg) :=
  confined_of_idles fun _ _ _ h => h.elim And.right And.right

/-- The requests made under the name of the interface that leave it its name. -/
def Request.Tunes (req : Request) : Prop :=
  req = .siocsifflags ∨ req = .siocsifmtu ∨ req = .siocsifhwaddr ∨ req = .siocsiflladdr ∨
    req = .siocsifaddr ∨ req = .siocsifnetmask ∨ req = .siocdifaddr ∨ req = .siocaifaddr

/-- The control socket is no `AF_INET6` socket, so an address request is read as
one under a name. -/
theorem Linked.tunes {k k' : Kern} {f : Iface} (h : Linked dev k i f) (hn : Names dev n arg)
    {req : Request} (hreq : req.Tunes) (hs : k.Sets R dev.ctrlSock req arg k') :
    ∃ g, g.name = f.name ∧ k.Put k' i g := by
  have hput : ∀ {change : Iface → Iface}, (change f).name = f.name →
      k.Alters dev.ctrlSock arg change k' → ∃ g, g.name = f.name ∧ k.Put k' i g :=
    fun hname ha => ⟨_, hname, h.reaches.alters hn ha⟩
  have hsock : k.fds dev.ctrlSock ≠ some (.socket .inet6) := by
    rw [h.reaches.sock]
    decide
  rcases hreq with rfl | rfl | rfl | rfl | rfl | rfl | rfl | rfl
  · exact hput rfl hs
  · exact hput rfl hs
  · exact hput rfl hs
  · exact hput rfl hs
  · simp only [Kern.Sets, if_neg hsock] at hs
    exact hput rfl hs
  · exact hput rfl hs
  · simp only [Kern.Sets, if_neg hsock] at hs
    exact hput rfl hs
  · exact hput rfl hs

theorem confined_ioctl (hn : Names dev n arg) {req : Request} (hreq : req.Tunes) :
    Confined R dev i (.ioctl dev.ctrlSock req arg) := by
  intro k f r k' h hs
  rcases hs with ⟨-, rfl⟩ | ⟨-, hs⟩
  · exact ⟨.refl _, f, h⟩
  · obtain ⟨g, hname, hput⟩ := h.tunes hn hreq hs
    exact ⟨hput.within, g, h.put hput hname⟩

@[simp] theorem confined_read (size : Nat) : Confined R dev i (.read dev.tunFd size) := by
  intro k f r k' h hs
  rcases hs with ⟨-, rfl⟩ | ⟨-, -, -, rfl⟩ | ⟨-, j, g, packet, rest, ha, -, -, -, hput⟩
  · exact ⟨.refl _, f, h⟩
  · exact ⟨.refl _, f, h⟩
  · obtain ⟨rfl, rfl⟩ := h.unique ha
    exact ⟨hput.within, _, h.put hput rfl⟩

/-- A program of such calls changes the one interface and keeps the link. -/
theorem confined_wp {α : Type} {p : Sys α} (hp : p.AllCalls (Confined R dev i)) {k : Kern}
    {f : Iface} (h : Linked dev k i f) :
    p.Wp (kernel R) (fun _ k' => KeepsTo i k dev k') k := by
  refine hp.wp ⟨.refl k, f, h⟩ fun c hc m r m' hs hm => ?_
  obtain ⟨hwithin, g, hg⟩ := hm
  obtain ⟨hwithin', hg'⟩ := hc m g r m' hg hs
  exact ⟨hwithin.trans hwithin', hg'⟩

end Calls

/-! ## A socket of its own -/

/-- Since `s` a descriptor was opened as an `AF_INET6` socket, and nothing else has
changed but the one interface, which has kept its name. -/
structure Kern.Lent (i : Nat) (fd : Int) (s t : Kern) : Prop where
  free : s.fds fd = none
  fds : t.fds = Function.update s.fds fd (some (.socket .inet6))
  ifs : ∀ j, j ≠ i → t.ifs j = s.ifs j
  iface : ∃ f g, s.ifs i = some f ∧ t.ifs i = some g ∧ g.name = f.name

section Lent

variable {R : Rules} {dev : Device} {i : Nat} {fd : Int} {s t u : Kern} {f : Iface}

theorem Kern.Lent.of_socket (hf : s.ifs i = some f) (hfd : fd ≠ -1)
    (hs : Kern.Step R s (.socket .inet6) fd t) : s.Lent i fd t := by
  rcases hs with ⟨hno, -⟩ | ⟨-, hfree, hifs, hfds⟩
  · exact absurd hno hfd
  · refine ⟨hfree, hfds, fun j _ => congrFun hifs j, f, f, hf, ?_, rfl⟩
    rw [hifs]
    exact hf

theorem Kern.Lent.sock (h : s.Lent i fd t) : t.fds fd = some (.socket .inet6) := by
  rw [h.fds, Function.update_self]

/-- A request through the socket, about the interface with the index. -/
theorem Kern.Lent.step (h : s.Lent i fd t) {req : Request} {arg : In6Ifreq} {r : IoctlRet}
    (hreq : req = .siocsifaddr ∨ req = .siocdifaddr) (hi : indexNamed arg = i)
    (hs : Kern.Step R t (.ioctl fd req arg) r u) : s.Lent i fd u := by
  have hput : ∀ {j : Nat} {g g' : Iface}, t.ifs j = some g → j = indexNamed arg →
      t.Put u j g' → g'.name = g.name → s.Lent i fd u := by
    intro j g g' hg hj hput hname
    obtain rfl := hj.trans hi
    obtain ⟨f, f', hf, hf', hsame⟩ := h.iface
    obtain rfl := Option.some.inj (hf'.symm.trans hg)
    refine ⟨h.free, hput.1.trans h.fds, fun l hl => ?_, f, g', hf, ?_, hname.trans hsame⟩
    · exact (hput.within.ifs l hl).trans (h.ifs l hl)
    · rw [hput.2, Function.update_self]
  rcases hs with ⟨-, rfl⟩ | ⟨-, hs⟩
  · exact h
  · rcases hreq with rfl | rfl
    · simp only [Kern.Sets, if_pos h.sock] at hs
      obtain ⟨j, g, hg, hj, hu⟩ := hs
      exact hput hg hj hu rfl
    · simp only [Kern.Sets, if_pos h.sock] at hs
      obtain ⟨j, g, hg, hj, -, hu⟩ := hs
      exact hput hg hj hu rfl

theorem Kern.Lent.idle (h : s.Lent i fd t) {c : Call} {r : Resp c} (hc : Idles R c)
    (hs : Kern.Step R t c r u) : s.Lent i fd u := by
  obtain rfl := hc t r u hs
  exact h

/-- The socket is closed, and the number is free again. -/
theorem Kern.Lent.close (h : s.Lent i fd t) (hlink : Linked dev s i f) {r : Int}
    (hs : Kern.Step R t (.close fd) r u) : KeepsTo i s dev u := by
  obtain ⟨hfds, hifs⟩ := hs.close_socket h.sock
  have hsame : u.fds = s.fds := by
    rw [hfds, h.fds, Function.update_idem]
    exact Function.update_eq_self_iff.mpr h.free.symm
  obtain ⟨g, g', hg, hg', hname⟩ := h.iface
  obtain rfl := Option.some.inj (hlink.reaches.iface.symm.trans hg)
  refine ⟨⟨hsame, fun j hj => ?_⟩, g', ⟨?_, ?_, ?_, hname.trans hlink.reaches.name⟩⟩
  · rw [hifs]
    exact h.ifs j hj
  · rw [hsame]
    exact hlink.attached
  · rw [hsame]
    exact hlink.reaches.sock
  · rw [hifs]
    exact hg'

/-- The index asked for under the name is that of the interface, as far as an `int`
can hold it. -/
theorem Linked.siocgifindex (h : Linked dev s i f) (hi : i < 2 ^ 31) (hfd : fd ≠ -1)
    {r : IoctlGetRet 40} (hsock : Kern.Step R s (.socket .inet6) fd t) (hr : r.ret ≠ -1)
    (hs : Kern.Step R t (.ioctlGet dev.ctrlSock .siocgifindex (Linux.ifreqNamed dev)) r u) :
    indexNamed ((Buf.zero : In6Ifreq).memcpy 20 (Buf.store32 (ifrInt r.arg)) 4) = i := by
  obtain ⟨hreach, -, -⟩ := h.reaches.borrow hfd hsock
  obtain ⟨-, hindex⟩ := hreach.siocgifindex hi names_linux hr hs
  exact (indexNamed_index _).trans hindex

theorem Linux.setIpv6_confined {k : Kern} (hi : i < 2 ^ 31) (h : Linked dev k i f) (s6 : Buf 16)
    (prefixLen : BitVec 32) :
    (tuntapSysSetIpv6 dev s6 prefixLen).Wp (kernel R) (fun _ k' => KeepsTo i k dev k') k := by
  simp only [tuntapSysSetIpv6, Prog.wp_call_bind, Prog.wp_ite, Prog.pure_eq, Prog.wp_ret]
  intro fd k₁ hsock
  refine ⟨fun hno _ k₂ hlog => ?_, fun hfd r k₂ hindex => ?_⟩
  · rcases hsock with ⟨-, rfl⟩ | ⟨h0, -⟩
    · obtain rfl : k₂ = k₁ := hlog
      exact ⟨.refl _, f, h⟩
    · exact absurd hno (ne_of_gt (lt_of_lt_of_le (by decide) h0))
  · have h₁ : k.Lent i fd k₁ := .of_socket h.reaches.iface hfd hsock
    have h₂ := h₁.idle (idles_ioctlGet .siocgifindex (by simp)) hindex
    refine ⟨fun _ _ k₃ hlog _ k₄ hclose => ?_, fun hr rd k₃ hdel ra k₄ hadd => ?_⟩
    · exact (h₂.idle (idles_log _ _) hlog).close h hclose
    · have hnamed := h.siocgifindex hi hfd hsock hr hindex
      have h₃ := h₂.step (Or.inr rfl) hnamed hdel
      have h₄ := h₃.step (Or.inl rfl) ((indexNamed_request _ s6 prefixLen).trans hnamed) hadd
      refine ⟨fun _ _ k₅ hlog _ k₆ hclose => ?_, fun _ _ k₅ hclose => ?_⟩
      · exact (h₄.idle (idles_log _ _) hlog).close h hclose
      · exact h₄.close h hclose

end Lent

/-! ## One operation -/

section Ops

variable {R : Rules} {os : Os} {libc : Libc} {dev : Device} {k k' : Kern} {i : Nat} {f : Iface}

/-- The record has the name the kernel was given, whatever it had before. -/
theorem Linked.rename (h : Linked dev k i f) (ifName : Buf 17) {ifname : CString}
    (hle : ifname.strlen ≤ 16) (hput : k.Put k' i { f with name := ifname.take 15 }) :
    Linked { dev with ifName := Libtuntap.renamed ifName ifname } k' i
      { f with name := ifname.take 15 } := by
  obtain ⟨hfds, hifs⟩ := hput
  refine ⟨?_, ?_, ?_, (take_fifteen_cstr_renamed _ hle).symm⟩
  · rw [hfds]
    exact h.attached
  · rw [hfds]
    exact h.reaches.sock
  · rw [hifs, Function.update_self]

theorem FreeBsd.setIfname_keepsTo (h : Linked dev k i f) {ifname : CString}
    (hle : ifname.strlen ≤ ifNamesize) :
    (tuntapSetIfname .freeBsd dev (some ifname)).Wp (kernel R) (fun r k' => KeepsTo i k r.2 k')
      k := by
  have hlen : ¬ ifname.strlen > ifNamesize := Nat.not_lt.mpr hle
  simp only [tuntapSetIfname, if_neg hlen, Libtuntap.tuntapSysSetIfname, tuntapSysSetIfname,
    Prog.bind_assoc, Prog.wp_call_bind]
  intro r k₁ hs
  rcases hs with ⟨hr, rfl⟩ | ⟨hr, hs⟩
  · rw [if_pos hr]
    intro _ k₂ hlog
    obtain rfl : k₂ = k₁ := hlog
    exact ⟨.refl _, f, h⟩
  · rw [if_neg (by omega)]
    have hput := h.reaches.alters names_freeBsd hs
    exact ⟨hput.within, _, h.rename _ hle hput⟩

theorem setIfname_keepsTo (h : Linked dev k i f) (ifname : Option CString) :
    (tuntapSetIfname os dev ifname).Wp (kernel R) (fun r k' => KeepsTo i k r.2 k') k := by
  have hidle : ∀ {p : Sys (Int × Device)}, p.AllCalls (Idles R) → p.Answers (fun r => r.2 = dev) →
      p.Wp (kernel R) (fun r k' => KeepsTo i k r.2 k') k := by
    intro p hp hA
    refine (idle_wp hp hA).mono fun r k' hr => ?_
    obtain ⟨hdev, rfl⟩ := hr
    exact ⟨.refl _, f, hdev ▸ h⟩
  cases ifname with
  | none => exact hidle (by simp [tuntapSetIfname]) (by simp [tuntapSetIfname])
  | some ifname =>
      by_cases hlen : ifname.strlen > ifNamesize
      · simp only [tuntapSetIfname, if_pos hlen]
        exact hidle (by simp) (by simp)
      · cases os with
        | linux =>
            refine (tuntapSetIfname_wp h.reaches ifname).mono fun r k' hr => ?_
            rcases hr with ⟨rfl, rfl⟩ | ⟨rfl, hle, hput⟩
            · exact ⟨.refl _, f, h⟩
            · exact ⟨hput.within, _, h.rename _ hle hput⟩
        | freeBsd => exact FreeBsd.setIfname_keepsTo h (Nat.not_lt.mp hlen)
        | openBsd | netBsd | darwin =>
            refine hidle ?_ ?_
            · simp [tuntapSetIfname, tuntapSysSetIfname, Bsd.tuntapSysSetIfname]
            · simp [tuntapSetIfname, tuntapSysSetIfname, Bsd.tuntapSysSetIfname]

theorem setLladdr_names {n : Nat} {req : Buf n} (h : Names dev n req) (ethAddr : Buf 6) :
    Names dev n (Bsd.setLladdr req ethAddr) :=
  ((h.memset (by decide)).memset (by decide)).memcpy (by decide)

theorem sysSetHwaddr_confined (ethAddr : Buf 6) :
    (tuntapSysSetHwaddr os dev ethAddr).AllCalls (Confined R dev i) := by
  have hlladdr : ∀ {req : Buf 32}, Names dev 32 req →
      Confined R dev i (.ioctl dev.ctrlSock .siocsiflladdr (Bsd.setLladdr req ethAddr)) :=
    fun hn => confined_ioctl (setLladdr_names hn ethAddr) (by simp [Request.Tunes])
  cases os with
  | linux =>
      have hn : Names dev 40 (((Linux.ifreqNamed dev).memcpy 16 (Buf.store16 arphrdEther) 2).memcpy
          18 ethAddr 6) := (names_linux.memcpy (by decide)).memcpy (by decide)
      have hreq : (Request.siocsifhwaddr).Tunes := by simp [Request.Tunes]
      simp [tuntapSysSetHwaddr, Linux.tuntapSysSetHwaddr, confined_ioctl hn hreq]
  | freeBsd =>
      have hreq := hlladdr (names_freeBsd : Names dev 32 (FreeBsd.ifreqNamed dev))
      exact (Prog.allCalls_call_bind _ _).mpr ⟨hreq, fun r => by simp⟩
  | openBsd | darwin =>
      have hreq := hlladdr (names_reqNamed (by decide) : Names dev 32 (Bsd.reqNamed 32 dev))
      exact (Prog.allCalls_call_bind _ _).mpr ⟨hreq, fun r => by simp⟩
  | netBsd => simp [tuntapSysSetHwaddr, NetBsd.tuntapSysSetHwaddr]

theorem setHwaddrTo_confined (ethAddr : Buf 6) :
    (setHwaddrTo os dev ethAddr).AllCalls (Confined R dev i) := by
  have hsys : (tuntapSysSetHwaddr os { dev with hwaddr := ethAddr } ethAddr).AllCalls
      (Confined R dev i) :=
    (sysSetHwaddr_confined ethAddr).mono fun c hc => hc.of_record rfl rfl rfl
  exact hsys.bind fun ret => by simp

theorem setHwaddr_confined (hwaddr : CString) :
    (tuntapSetHwaddr os libc dev hwaddr).AllCalls (Confined R dev i) := by
  unfold tuntapSetHwaddr
  split
  · exact (randomHwaddr_idles.mono fun c hc => confined_of_idles hc).bind
      fun ethAddr => setHwaddrTo_confined ethAddr
  · cases libc.etherAton hwaddr with
    | none => trivial
    | some ethAddr => exact setHwaddrTo_confined ethAddr

theorem setFlags_confined (change : BitVec 16 → BitVec 16) :
    (setFlags os dev change).AllCalls (Confined R dev i) := by
  have hn : Names dev os.sizeofIfreq (setIfrFlags (ifreqNamed os dev)
      (change (dev.flags.setWidth 16))) := (names_ifreqNamed os).of_eq (ifrName_setIfrFlags _ _)
  exact (Prog.allCalls_call_bind _ _).mpr ⟨confined_ioctl hn (Or.inl rfl), fun r => by simp⟩

theorem setMtu_confined (mtu : BitVec 32) :
    (tuntapSetMtu os dev mtu).AllCalls (Confined R dev i) := by
  have hn : Names dev os.sizeofIfreq (setIfrInt (ifreqNamed os dev) mtu) :=
    (names_ifreqNamed os).memcpy (by decide)
  have hreq : (Request.siocsifmtu).Tunes := by simp [Request.Tunes]
  simp [tuntapSetMtu, confined_ioctl hn hreq]

theorem sysSetIpv4_confined (s4 : Buf 4) (bits : BitVec 32) :
    (tuntapSysSetIpv4 os dev s4 bits).AllCalls (Confined R dev i) := by
  have hreqs : (Request.siocsifaddr).Tunes ∧ (Request.siocsifnetmask).Tunes ∧
      (Request.siocdifaddr).Tunes ∧ (Request.siocaifaddr).Tunes := by
    simp [Request.Tunes]
  obtain ⟨hset, hmask, hdel, hadd⟩ := hreqs
  have halias : ∀ {ifa : Ifaliasreq}, Names dev 64 ifa → Names dev 64 ((ifa.memcpy 16
      (bsdSockaddrIn s4) 16).memcpy 48 (bsdSockaddrIn (Buf.store32 bits)) 16) :=
    fun hn => (hn.memcpy (by decide)).memcpy (by decide)
  have hold : Names dev 32 (Bsd.reqNamed 32 dev) := names_reqNamed (by decide)
  have hnew := halias (names_reqNamed (by decide) : Names dev 64 (Bsd.reqNamed 64 dev))
  cases os with
  | linux =>
      have hn : Names dev 40 (((Linux.ifreqNamed dev).memcpy 20 s4 4).memcpy 16
          (Buf.store16 afInet) 2) := (names_linux.memcpy (by decide)).memcpy (by decide)
      have hn' : Names dev 40 (((((Linux.ifreqNamed dev).memcpy 20 s4 4).memcpy 16
          (Buf.store16 afInet) 2).memset 16 0 16).memcpy 16 (sockaddrIn (Buf.store32 bits)) 16) :=
        (hn.memset (by decide)).memcpy (by decide)
      simp [tuntapSysSetIpv4, Linux.tuntapSysSetIpv4, confined_ioctl hn hset,
        confined_ioctl hn' hmask]
  | freeBsd =>
      have hn : Names dev 32 ((FreeBsd.ifreqNamed dev).memcpy 16 (bsdSockaddrIn s4) 16) :=
        names_freeBsd.memcpy (by decide)
      have hn' : Names dev 32 (((FreeBsd.ifreqNamed dev).memcpy 16 (bsdSockaddrIn s4) 16).memcpy 16
          (bsdSockaddrIn (Buf.store32 bits)) 16) := hn.memcpy (by decide)
      simp [tuntapSysSetIpv4, FreeBsd.tuntapSysSetIpv4, confined_ioctl names_freeBsd hdel,
        confined_ioctl hn hset, confined_ioctl hn' hmask]
  | openBsd =>
      simp [tuntapSysSetIpv4, OpenBsd.tuntapSysSetIpv4, confined_ioctl hold hdel,
        confined_ioctl hnew hadd]
  | netBsd =>
      simp [tuntapSysSetIpv4, NetBsd.tuntapSysSetIpv4, confined_ioctl hold hdel,
        confined_ioctl hnew hadd]
  | darwin =>
      simp [tuntapSysSetIpv4, Darwin.tuntapSysSetIpv4, confined_ioctl hold hdel,
        confined_ioctl hnew hset]

theorem setIp_keepsTo (hi : os = .linux → i < 2 ^ 31) (h : Linked dev k i f)
    (addr : Option CString) (netmask : Int) :
    (tuntapSetIp os libc dev addr netmask).Wp (kernel R) (fun _ k' => KeepsTo i k dev k') k := by
  unfold tuntapSetIp
  refine (Prog.wp_ite _ _ _).mpr ⟨fun _ => confined_wp (by simp) h, fun _ => ?_⟩
  cases addr with
  | none => exact confined_wp (by simp) h
  | some addr =>
      refine (Prog.wp_ite _ _ _).mpr ⟨fun _ => confined_wp (by simp) h, fun _ => ?_⟩
      cases libc.inetPton4 addr with
      | some s4 =>
          refine confined_wp (Prog.AllCalls.bind ?_ fun mask => sysSetIpv4_confined s4 mask) h
          exact (netmaskWord_idles netmask).mono fun c hc => confined_of_idles hc
      | none =>
          cases libc.inetPton6 addr with
          | none => exact confined_wp (by simp) h
          | some s6 =>
              cases os with
              | linux => exact Linux.setIpv6_confined (hi rfl) h s6 _
              | freeBsd =>
                  exact confined_wp (by simp [tuntapSysSetIpv6, FreeBsd.tuntapSysSetIpv6]) h
              | openBsd | netBsd | darwin =>
                  exact confined_wp (by simp [tuntapSysSetIpv6, Bsd.tuntapSysSetIpv6]) h

theorem setDescr_confined (descr : Option CString) :
    (tuntapSetDescr os dev descr).AllCalls (Confined R dev i) := by
  cases descr with
  | none => simp [tuntapSetDescr]
  | some descr =>
      cases os <;> simp [tuntapSetDescr, tuntapSysSetDescr, Linux.tuntapSysSetDescr,
        FreeBsd.tuntapSysSetDescr, OpenBsd.tuntapSysSetDescr, NetBsd.tuntapSysSetDescr,
        Darwin.tuntapSysSetDescr]

theorem getDescr_confined : (tuntapGetDescr os dev).AllCalls (Confined R dev i) := by
  cases os <;> simp [tuntapGetDescr, tuntapSysGetDescr, Linux.tuntapSysGetDescr,
    FreeBsd.tuntapSysGetDescr, OpenBsd.tuntapSysGetDescr, NetBsd.tuntapSysGetDescr,
    Darwin.tuntapSysGetDescr]

/-- The operations on a started device whose calls are all about its interface. -/
def Op.Tame : Op → Prop
  | .start .. | .release | .destroy | .setIfname _ | .setIp .. => False
  | _ => True

theorem Op.confined (op : Op) (hop : op.Tame) :
    (op.prog os libc dev).AllCalls (Confined R dev i) := by
  have hend : ∀ {α : Type} {p : Sys α} {g : α → Ret × Option Device},
      p.AllCalls (Confined R dev i) → (p >>= fun a => Prog.ret (g a)).AllCalls (Confined R dev i) :=
    fun hp => hp.bind fun _ => trivial
  cases op with
  | start | release | destroy | setIfname | setIp => exact hop.elim
  | setDescr descr => exact hend (setDescr_confined descr)
  | getDescr => exact hend getDescr_confined
  | getIfname | getHwaddr | getFd => trivial
  | setHwaddr hwaddr => exact hend (setHwaddr_confined hwaddr)
  | up | down => exact hend (setFlags_confined _)
  | getMtu => exact hend (by simp [tuntapGetMtu])
  | setMtu mtu => exact hend (setMtu_confined mtu)
  | read size => exact hend (by simp [tuntapRead, readPacket])
  | readTm size timeoutMs =>
      exact hend (by simp [tuntapReadTm, readPacket, waitReadyEventOrTimeout])
  | write buf => exact hend (by simp [tuntapWrite, writePacket])
  | writeTm buf timeoutMs =>
      exact hend (by simp [tuntapWriteTm, writePacket, waitReadyEventOrTimeout])
  | getReadable => exact hend (by simp [tuntapGetReadable, tuntapGetMtu])
  | setNonblocking set => exact hend (by simp [tuntapSetNonblocking])
  | setDebug set => exact hend (by simp [tuntapSetDebug])

end Ops

/-! ## One step of a session -/

section Session

variable {R : Rules} {libc : Libc} {rely : Rely} {s s' : Session} {op : Op}
  {tr : List (Event Call Resp)} {ret : Ret} {i : Nat} {f : Iface}

theorem Op.not_startsOrEnds_of_tame {op : Op} (hop : op.Tame) : ¬ op.StartsOrEnds := by
  cases op with
  | start | release | destroy => exact absurd hop id
  | _ => exact id

theorem Op.name_notMem_writes {op : Op} (hop : op.Tame) : .name ∉ op.writes := by
  intro hname
  obtain ⟨ifname, rfl⟩ := Op.name_mem_writes hname
  exact hop

/-- The operations that are not tame, for what they answer with a record. -/
theorem Op.settles (os : Os) (hi : os = .linux → i < 2 ^ 31) {op : Op} (hop : ¬ op.Tame)
    {dev : Device} {k : Kern} (hdev : dev.tunFd ≠ -1) (h : Linked dev k i f) :
    (op.prog os libc dev).Wp (kernel R) (fun r k' => ∀ d, r.2 = some d → KeepsTo i k d k') k := by
  have hnone : ∀ {p : Sys Unit}, (p >>= fun _ => Prog.ret (Ret.void, none)).Wp (kernel R)
      (fun r k' => ∀ d, r.2 = some d → KeepsTo i k d k') k := by
    intro p
    have htrue : p.Wp (kernel R) (fun _ _ => True) k := (Prog.wp_iff p).mpr fun _ _ _ _ _ => trivial
    exact htrue.bind fun _ k' _ d hd => absurd hd (by simp)
  cases op with
  | start mode tun =>
      simp only [Op.prog, tuntapStart, if_pos hdev]
      intro _ k' hk d hd
      obtain rfl : k' = k := hk
      obtain rfl : dev = d := Option.some.inj hd
      exact ⟨.refl _, f, h⟩
  | release | destroy => exact hnone
  | setIfname ifname =>
      refine (setIfname_keepsTo h ifname).bind fun r k' hr d hd => ?_
      obtain rfl : r.2 = d := Option.some.inj hd
      exact hr
  | setIp addr netmask =>
      refine (setIp_keepsTo hi h addr netmask).bind fun n k' hn d hd => ?_
      obtain rfl : dev = d := Option.some.inj hd
      exact hn
  | _ => exact absurd trivial hop

/-- A call on a started device changes its interface alone and keeps the link. -/
theorem Session.Step.keepsTo (hi : R.os = .linux → i < 2 ^ 31)
    (hs : Session.Step R libc rely s (.call op tr ret) s') (hdev : s.dev.tunFd ≠ -1)
    (h : Linked s.dev s.kern i f) : KeepsTo i s.kern s'.dev s'.kern := by
  by_cases hop : op.Tame
  · obtain ⟨hd, -⟩ := hs.frame (Op.not_startsOrEnds_of_tame hop)
    have hcalls : (op.prog R.os libc s.dev).AllCalls (Confined R s.dev i) := op.confined hop
    obtain ⟨hwithin, f', hf'⟩ := hs.of_wp (confined_wp hcalls h)
    exact ⟨hwithin, f', hf'.of_record hd.tunFd hd.ctrlSock (hd.name (Op.name_notMem_writes hop))⟩
  · exact hs.of_wp (Op.settles R.os hi hop hdev h) _ rfl

end Session

end Libtuntap
