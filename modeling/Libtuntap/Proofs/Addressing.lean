import Libtuntap.Effect.Wp
import Libtuntap.Proofs.Requests

/-!
# What IPv4 configuration leaves on the interface

Five back ends, three orders of requests. Linux replaces the address and then
sets the mask; FreeBSD deletes first; the others delete and add address and mask
in one `struct ifaliasreq`. With at most one address on the interface all of
them end at the same table, provided the last request sets a mask.

Darwin's does not. It fills in a `struct ifaliasreq` and passes it with
`SIOCSIFADDR`, which reads the start of it as a `struct ifreq`: the address
arrives, the mask lies beyond what the kernel looks at, and the interface gets
the mask of the class.
-/

namespace Libtuntap

open Effect CMem

/-! ## The fields of the requests -/

theorem slice_bsdSockaddrIn (addr : Buf 4) : (bsdSockaddrIn addr).slice 4 4 = addr := by
  refine Buf.ext_byte fun i hi => ?_
  rw [Buf.byte_slice, if_pos hi, Buf.byte_of_lt (show 4 + i < 16 by omega),
    Buf.byte_of_lt hi]
  have h0 : (⟨4 + i, by omega⟩ : Fin 16) ≠ 0 := fun h => by
    have h := congrArg Fin.val h
    simp at h
  have h1 : (⟨4 + i, by omega⟩ : Fin 16) ≠ 1 := fun h => by
    have h := congrArg Fin.val h
    simp at h
    omega
  simp only [bsdSockaddrIn, if_neg h0, if_neg h1, Buf.memcpy]
  rw [if_pos (by omega), Nat.add_sub_cancel_left, Buf.byte_of_lt hi]

section Fields

variable {n : Nat}

theorem ifrInAddr_memcpy_bsdSockaddrIn (ifr : Buf n) (addr : Buf 4) (hn : 32 ≤ n) :
    ifrInAddr (ifr.memcpy 16 (bsdSockaddrIn addr) 16) = addr := by
  unfold ifrInAddr
  rw [Buf.slice_memcpy_inside _ _ _ _ _ _ (by omega) (by omega) (by omega)]
  exact slice_bsdSockaddrIn addr

theorem ifraMask_memcpy_bsdSockaddrIn (ifa : Buf n) (mask : Buf 4) (hn : 64 ≤ n) :
    ifraMask (ifa.memcpy 48 (bsdSockaddrIn mask) 16) = mask := by
  unfold ifraMask
  rw [Buf.slice_memcpy_inside _ _ _ _ _ _ (by omega) (by omega) (by omega)]
  exact slice_bsdSockaddrIn mask

/-- A mask written behind the address leaves the address. -/
theorem ifrInAddr_memcpy_mask {m : Nat} (ifa : Buf n) (mask : Buf m) :
    ifrInAddr (ifa.memcpy 48 mask 16) = ifrInAddr ifa :=
  Buf.slice_memcpy_disjoint _ _ _ _ _ _ (by omega)

end Fields

/-! ## The requests, one by one -/

section Requests

variable {R : Rules} {k k' : Kern} {dev : Device} {i : Nat} {f : Iface} {n : Nat} {arg : Buf n}

/-- The interface is reached and holds these addresses. -/
def Kern.Holds (k : Kern) (dev : Device) (i : Nat) (inet : List (Buf 4 × Buf 4)) : Prop :=
  ∃ f, k.Reaches dev i f ∧ f.inet = inet

theorem Kern.Reaches.siocsifaddr (h : k.Reaches dev i f) (hn : Names dev n arg)
    (hs : k.Sets R dev.ctrlSock .siocsifaddr arg k') :
    k'.Holds dev i [(ifrInAddr arg, R.classMask (ifrInAddr arg))] := by
  simp only [Kern.Sets, h.sock] at hs
  rw [if_neg (by decide)] at hs
  exact ⟨_, h.after hn hs rfl, rfl⟩

theorem Kern.Reaches.siocsifnetmask (h : k.Reaches dev i f) (hn : Names dev n arg)
    (hs : k.Sets R dev.ctrlSock .siocsifnetmask arg k') :
    k'.Holds dev i (f.inet.map fun a => (a.1, ifrInAddr arg)) :=
  ⟨_, h.after hn hs rfl, rfl⟩

theorem Kern.Reaches.siocaifaddr (h : k.Reaches dev i f) (hn : Names dev n arg)
    (hs : k.Sets R dev.ctrlSock .siocaifaddr arg k') :
    k'.Holds dev i
      (f.inet.filter (fun a => a.1 ≠ ifrInAddr arg) ++ [(ifrInAddr arg, ifraMask arg)]) :=
  ⟨_, h.after hn hs rfl, rfl⟩

/-- The deletion whose result no back end looks at: refused or not, an interface
of one address or none is left with none, unless it had one and the request was
refused. -/
theorem Kern.Reaches.siocdifaddr (h : k.Reaches dev i f) (hn : Names dev n arg)
    (hlen : f.inet.length ≤ 1) {r : IoctlRet} (hr : r.ret ≠ -1 ∨ f.inet = [])
    (hs : Kern.Step R k (.ioctl dev.ctrlSock .siocdifaddr arg) r k') : k'.Holds dev i [] := by
  rcases hs with ⟨hret, rfl⟩ | ⟨-, hs⟩
  · exact ⟨f, h, hr.resolve_left fun hne => hne hret⟩
  · simp only [Kern.Sets, h.sock] at hs
    rw [if_neg (by decide)] at hs
    exact ⟨_, h.after hn hs rfl, List.drop_eq_nil_of_le hlen⟩

end Requests

/-! ## The back ends -/

section BackEnds

variable {R : Rules} {k : Kern} {dev : Device} {i : Nat} {f : Iface} {s4 : Buf 4}
  {bits : BitVec 32}

/-- The kernel grants what it is asked, except that it may refuse to delete an
address that is not there. -/
def Accepts (f : Iface) (e : Event Call Resp) : Prop := Granted e ∨ f.inet = []

theorem Linux.tuntapSysSetIpv4_wp (h : k.Reaches dev i f) :
    (tuntapSysSetIpv4 dev s4 bits).Wp ((kernel R).Only (Accepts f))
      (fun n k' => n = 0 → k'.Holds dev i [(s4, Buf.store32 bits)]) k := by
  have haddr : ifrInAddr (((ifreqNamed dev).memcpy 20 s4 4).memcpy 16 (Buf.store16 afInet) 2)
      = s4 := by
    unfold ifrInAddr
    rw [Buf.slice_memcpy_disjoint _ _ _ _ _ _ (by omega), Buf.slice_memcpy_same _ _ _ (by omega)]
  have hmask : ∀ b : Ifreq,
      ifrInAddr (b.memcpy 16 (sockaddrIn (Buf.store32 bits)) 16) = Buf.store32 bits := by
    intro b
    unfold ifrInAddr sockaddrIn
    rw [Buf.slice_memcpy_inside _ _ _ _ _ _ (by omega) (by omega) (by omega)]
    exact Buf.slice_memcpy_same _ _ _ (by omega)
  have hn : Names dev 40 (((ifreqNamed dev).memcpy 20 s4 4).memcpy 16 (Buf.store16 afInet) 2) :=
    (names_linux.memcpy (by omega)).memcpy (by omega)
  simp only [tuntapSysSetIpv4, Prog.wp_call_bind, Prog.wp_ite, Prog.pure_eq, Prog.wp_ret]
  rintro r k₁ ⟨-, hs⟩
  refine ⟨fun _ _ _ _ h0 => absurd h0 (by decide), fun hr r' k₂ hs' => ⟨?_, fun hr' _ => ?_⟩⟩
  · intro _ _ _ _ h0
    exact absurd h0 (by decide)
  · obtain ⟨f₁, h₁, hinet₁⟩ := h.siocsifaddr hn (hs.resolve_left fun hs => hr hs.1).2
    have hend := h₁.siocsifnetmask ((hn.memset (by omega)).memcpy (by omega))
      (hs'.2.resolve_left fun hs => hr' hs.1).2
    rw [hinet₁, haddr, List.map_singleton, hmask] at hend
    exact hend

theorem FreeBsd.tuntapSysSetIpv4_wp (h : k.Reaches dev i f) (hlen : f.inet.length ≤ 1) :
    (tuntapSysSetIpv4 dev s4 bits).Wp ((kernel R).Only (Accepts f))
      (fun n k' => n = 0 → k'.Holds dev i [(s4, Buf.store32 bits)]) k := by
  have hn : Names dev 32 (ifreqNamed dev) := names_freeBsd
  simp only [tuntapSysSetIpv4, Prog.wp_call_bind, Prog.wp_ite, Prog.pure_eq, Prog.wp_ret]
  rintro r k₁ ⟨hr, hs⟩
  obtain ⟨f₁, h₁, -⟩ := h.siocdifaddr hn hlen hr hs
  rintro r k₂ ⟨-, hs⟩
  refine ⟨fun _ _ _ _ h0 => absurd h0 (by decide), fun hr r' k₃ hs' => ⟨?_, fun hr' _ => ?_⟩⟩
  · intro _ _ _ _ h0
    exact absurd h0 (by decide)
  · have hn₁ : Names dev 32 ((ifreqNamed dev).memcpy 16 (bsdSockaddrIn s4) 16) :=
      hn.memcpy (by omega)
    obtain ⟨f₂, h₂, hinet₂⟩ := h₁.siocsifaddr hn₁ (hs.resolve_left fun hs => hr hs.1).2
    have hend := h₂.siocsifnetmask (hn₁.memcpy (by omega))
      (hs'.2.resolve_left fun hs => hr' hs.1).2
    rw [hinet₂, List.map_singleton, ifrInAddr_memcpy_bsdSockaddrIn _ _ (by omega),
      ifrInAddr_memcpy_bsdSockaddrIn _ _ (by omega)] at hend
    exact hend

/-- Address and mask in one `struct ifaliasreq`: OpenBSD and NetBSD. -/
theorem OpenBsd.tuntapSysSetIpv4_wp (h : k.Reaches dev i f) (hlen : f.inet.length ≤ 1) :
    (tuntapSysSetIpv4 dev s4 bits).Wp ((kernel R).Only (Accepts f))
      (fun n k' => n = 0 → k'.Holds dev i [(s4, Buf.store32 bits)]) k := by
  simp only [tuntapSysSetIpv4, Prog.wp_call_bind, Prog.wp_ite, Prog.pure_eq, Prog.wp_ret]
  rintro r k₁ ⟨hr, hs⟩
  obtain ⟨f₁, h₁, hinet₁⟩ := h.siocdifaddr (names_reqNamed (by omega)) hlen hr hs
  rintro r k₂ ⟨-, hs⟩
  refine ⟨fun _ _ _ _ h0 => absurd h0 (by decide), fun hr _ => ?_⟩
  have hn : Names dev 64 (((Bsd.reqNamed 64 dev).memcpy 16 (bsdSockaddrIn s4) 16).memcpy 48
      (bsdSockaddrIn (Buf.store32 bits)) 16) :=
    ((names_reqNamed (by omega)).memcpy (by omega)).memcpy (by omega)
  have hend := h₁.siocaifaddr hn (hs.resolve_left fun hs => hr hs.1).2
  rw [hinet₁, ifrInAddr_memcpy_mask, ifrInAddr_memcpy_bsdSockaddrIn _ _ (by omega),
    ifraMask_memcpy_bsdSockaddrIn _ _ (by omega)] at hend
  exact hend

theorem NetBsd.tuntapSysSetIpv4_wp (h : k.Reaches dev i f) (hlen : f.inet.length ≤ 1) :
    (tuntapSysSetIpv4 dev s4 bits).Wp ((kernel R).Only (Accepts f))
      (fun n k' => n = 0 → k'.Holds dev i [(s4, Buf.store32 bits)]) k :=
  OpenBsd.tuntapSysSetIpv4_wp h hlen

/-- The same structure with `SIOCSIFADDR`. -/
theorem Darwin.tuntapSysSetIpv4_wp (h : k.Reaches dev i f) (hlen : f.inet.length ≤ 1) :
    (tuntapSysSetIpv4 dev s4 bits).Wp ((kernel R).Only (Accepts f))
      (fun n k' => n = 0 → k'.Holds dev i [(s4, R.classMask s4)]) k := by
  simp only [tuntapSysSetIpv4, Prog.wp_call_bind, Prog.wp_ite, Prog.pure_eq, Prog.wp_ret]
  rintro r k₁ ⟨hr, hs⟩
  obtain ⟨f₁, h₁, -⟩ := h.siocdifaddr (names_reqNamed (by omega)) hlen hr hs
  rintro r k₂ ⟨-, hs⟩
  refine ⟨fun _ _ _ _ h0 => absurd h0 (by decide), fun hr _ => ?_⟩
  have hn : Names dev 64 (((Bsd.reqNamed 64 dev).memcpy 16 (bsdSockaddrIn s4) 16).memcpy 48
      (bsdSockaddrIn (Buf.store32 bits)) 16) :=
    ((names_reqNamed (by omega)).memcpy (by omega)).memcpy (by omega)
  have hend := h₁.siocsifaddr hn (hs.resolve_left fun hs => hr hs.1).2
  rw [ifrInAddr_memcpy_mask, ifrInAddr_memcpy_bsdSockaddrIn _ _ (by omega)] at hend
  exact hend

/-- The mask a back end leaves with the address. -/
def maskLeft (R : Rules) (s4 mask : Buf 4) : Buf 4 :=
  if R.os = .darwin then R.classMask s4 else mask

theorem tuntapSysSetIpv4_wp (h : k.Reaches dev i f) (hlen : f.inet.length ≤ 1) :
    (tuntapSysSetIpv4 R.os dev s4 bits).Wp ((kernel R).Only (Accepts f))
      (fun n k' => n = 0 → k'.Holds dev i [(s4, maskLeft R s4 (Buf.store32 bits))]) k := by
  unfold maskLeft
  cases hos : R.os with
  | linux => exact Linux.tuntapSysSetIpv4_wp h
  | freeBsd => exact FreeBsd.tuntapSysSetIpv4_wp h hlen
  | openBsd => exact OpenBsd.tuntapSysSetIpv4_wp h hlen
  | netBsd => exact NetBsd.tuntapSysSetIpv4_wp h hlen
  | darwin => exact Darwin.tuntapSysSetIpv4_wp h hlen

end BackEnds

/-- The interface carries the address with the mask, and no other. -/
def Configured (k : Kern) (i : Nat) (s4 mask : Buf 4) : Prop :=
  ∃ f, k.ifs i = some f ∧ f.inet = [(s4, mask)]

/-- IPv4 configuration that succeeds leaves the address with its mask on every
system but Darwin, and on Darwin when the mask is that of the class. -/
theorem set_ipv4_configured_iff (R : Rules) (dev : Device) (k k' : Kern) (i : Nat) (f : Iface)
    (s4 : Buf 4) (bits : BitVec 32) (tr : List (Event Call Resp))
    (hk : k.Reaches dev i f) (hlen : f.inet.length ≤ 1)
    (hg : ∀ e ∈ tr, Granted e ∨ f.inet = [])
    (hr : (tuntapSysSetIpv4 R.os dev s4 bits).Runs tr 0) (hs : (kernel R).Steps k tr k') :
    Configured k' i s4 (Buf.store32 bits) ↔
      (R.os = .darwin → Buf.store32 bits = R.classMask s4) := by
  obtain ⟨f', hf', hinet⟩ := (tuntapSysSetIpv4_wp hk hlen).of_runs hr (hs.only hg) rfl
  have hleft : Configured k' i s4 (Buf.store32 bits) ↔
      maskLeft R s4 (Buf.store32 bits) = Buf.store32 bits := by
    constructor
    · rintro ⟨g, hg, hginet⟩
      obtain rfl : f' = g := Option.some.inj (hf'.iface.symm.trans hg)
      rw [hinet] at hginet
      exact (Prod.mk.inj (List.cons.inj hginet).1).2
    · intro h
      rw [h] at hinet
      exact ⟨f', hf'.iface, hinet⟩
  rw [hleft, maskLeft]
  by_cases hos : R.os = .darwin
  · rw [if_pos hos]
    exact ⟨fun h _ => h.symm, fun h => (h hos).symm⟩
  · rw [if_neg hos]
    exact iff_of_true rfl fun h => absurd h hos

/-- 10.0.0.1, and 255.255.255.0 as it lies in memory. -/
def tenNet : Buf 4 := fun i => [10, 0, 0, 1].getD i 0
def maskNet : BitVec 32 := 0x00ffffff

/-- On OpenBSD the deletion is refused, there being no address. -/
theorem set_ipv4_openbsd :
    ∃ k' tr, Configured k' 0 tenNet (Buf.store32 maskNet) ∧
      (kernel (Rules.plain .openBsd)).Steps Kern.tun0 tr k' ∧
      (tuntapSysSetIpv4 .openBsd Device.tun0 tenNet maskNet).Runs tr 0 := by
  have hn : Names Device.tun0 64 (((Bsd.reqNamed 64 Device.tun0).memcpy 16
      (bsdSockaddrIn tenNet) 16).memcpy 48 (bsdSockaddrIn (Buf.store32 maskNet)) 16) :=
    ((names_reqNamed (by omega)).memcpy (by omega)).memcpy (by omega)
  obtain ⟨tr, k', hr, hk⟩ : ∃ tr k', (tuntapSysSetIpv4 .openBsd Device.tun0 tenNet maskNet).Runs
      tr 0 ∧ (kernel (Rules.plain .openBsd)).Steps Kern.tun0 tr k' :=
    ⟨_, _, ⟨⟨-1, .other⟩, _, rfl, ⟨0, .other⟩, _, rfl, rfl, rfl⟩, _, Or.inl ⟨rfl, rfl⟩, _,
      Or.inr ⟨rfl, Kern.tun0_reaches.altered hn rfl⟩, rfl⟩
  exact ⟨k', tr, (set_ipv4_configured_iff (Rules.plain .openBsd) Device.tun0 _ _ 0 _ tenNet
    maskNet _ Kern.tun0_reaches (by decide) (fun _ _ => Or.inr rfl) hr hk).mpr
      (fun h => absurd h (by decide)), hk, hr⟩

/-- The same request on Darwin answers 0, and the interface has the mask
255.0.0.0. -/
theorem set_ipv4_darwin_class_mask :
    ¬ ∀ (R : Rules) (dev : Device) (k k' : Kern) (i : Nat) (f : Iface) (s4 : Buf 4)
      (bits : BitVec 32) (tr : List (Event Call Resp)), k.Reaches dev i f →
        f.inet.length ≤ 1 → (∀ e ∈ tr, Granted e ∨ f.inet = []) →
          (tuntapSysSetIpv4 R.os dev s4 bits).Runs tr 0 → (kernel R).Steps k tr k' →
            Configured k' i s4 (Buf.store32 bits) := by
  intro hclaim
  have hn : Names Device.tun0 64 (((Bsd.reqNamed 64 Device.tun0).memcpy 16
      (bsdSockaddrIn tenNet) 16).memcpy 48 (bsdSockaddrIn (Buf.store32 maskNet)) 16) :=
    ((names_reqNamed (by omega)).memcpy (by omega)).memcpy (by omega)
  obtain ⟨f, hf, hinet⟩ := hclaim (Rules.plain .darwin) Device.tun0 Kern.tun0 _ 0 _ tenNet
    maskNet _ Kern.tun0_reaches (by decide) (fun _ _ => Or.inr rfl)
    ⟨⟨-1, .other⟩, _, rfl, ⟨0, .other⟩, _, rfl, rfl, rfl⟩
    ⟨_, Or.inl ⟨rfl, rfl⟩, _, Or.inr ⟨rfl, Kern.tun0_reaches.altered hn rfl⟩, rfl⟩
  rw [← Option.some.inj hf] at hinet
  have hmask : classfulMask tenNet = Buf.store32 maskNet := by
    have haddr := congrArg Prod.fst (List.cons.inj hinet).1
    have hmask := congrArg Prod.snd (List.cons.inj hinet).1
    dsimp only at haddr hmask
    rw [haddr] at hmask
    exact hmask
  exact absurd (congrFun hmask 1) (by decide)

end Libtuntap
