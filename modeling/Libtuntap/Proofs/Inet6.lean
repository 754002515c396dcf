import Libtuntap.Proofs.Addressing
import Libtuntap.Proofs.SetIp
import Libtuntap.Proofs.Started

/-!
# One IPv6 address after another

`tuntap_sys_set_ipv6` deletes before it adds, and a kernel deletes the address
the request names. The request was cleared and has an interface index in it by
then, nothing else: it names the address `::` with prefix length 0. So what is
deleted is that address, should the interface have it, and every other one
stays.

The kernel here does what the request asks for wherever it can. It may refuse
any request except to delete an address that is there.
-/

namespace Libtuntap

open Effect CMem

/-- On an `AF_INET6` socket the address a deletion names goes, if it is there. -/
def Honours (k : Kern) : (c : Call) → Resp c → Prop
  | .ioctl fd .siocdifaddr arg, r => ∀ f, k.fds fd = some (.socket .inet6) →
      k.ifs (Buf.load32 (arg.slice 20 4)).toNat = some f →
        (arg.slice 0 16, Buf.load32 (arg.slice 16 4)) ∈ f.inet6 → r.ret ≠ -1
  | _, _ => True

/-- The kernel, of which only the replies that honour deletions are looked at. -/
def honouring (R : Rules) : Kernel Call Resp Kern := fun k c r k' =>
  Kern.Step R k c r k' ∧ Honours k c r

/-! ## The list of addresses -/

section Replacing

variable {α : Type} [BEq α] [LawfulBEq α] {z : α}

theorem mem_erase_of_count_le {l : List α} (h : l.count z ≤ 1) (x : α) :
    x ∈ l.erase z ↔ x ≠ z ∧ x ∈ l := by
  by_cases hx : x = z
  · subst hx
    have hzero : (l.erase x).count x = 0 := by
      rw [List.count_erase_self]
      omega
    exact iff_of_false (List.count_eq_zero.mp hzero) fun hne => hne.1 rfl
  · rw [List.mem_erase_of_ne hx]
    exact ⟨fun hmem => ⟨hx, hmem⟩, And.right⟩

theorem count_cons_erase_le {l : List α} (h : l.count z ≤ 1) (a : α) :
    (a :: l.erase z).count z ≤ 1 := by
  rw [List.count_cons, List.count_erase_self]
  split <;> omega

/-- Adding one after another, each time without `z`, leaves the last one and all
that were there or came before, but for `z`. -/
theorem mem_foldl_replace {l : List α} (h : l.count z ≤ 1) (as : List α) (last x : α) :
    x ∈ (as ++ [last]).foldl (fun l a => a :: l.erase z) l ↔
      x = last ∨ x ≠ z ∧ (x ∈ l ∨ x ∈ as) := by
  induction as generalizing l with
  | nil =>
      show x ∈ last :: l.erase z ↔ _
      rw [List.mem_cons, mem_erase_of_count_le h]
      simp
  | cons a as ih =>
      show x ∈ (as ++ [last]).foldl (fun l a => a :: l.erase z) (a :: l.erase z) ↔ _
      rw [ih (count_cons_erase_le h a), List.mem_cons, mem_erase_of_count_le h, List.mem_cons]
      tauto

/-- From nothing, only the last one is left exactly when all others were it or
`z`. -/
theorem foldl_replace_eq_last_iff (as : List α) (last : α) :
    (∀ x, x ∈ (as ++ [last]).foldl (fun l a => a :: l.erase z) [] ↔ x = last) ↔
      ∀ a ∈ as, a = last ∨ a = z := by
  simp only [mem_foldl_replace (l := []) (z := z) (by simp), List.not_mem_nil, false_or]
  constructor
  · intro h a ha
    by_cases hz : a = z
    · exact Or.inr hz
    · exact Or.inl ((h a).mp (Or.inr ⟨hz, ha⟩))
  · intro h x
    refine ⟨fun hx => ?_, Or.inl⟩
    rcases hx with hx | ⟨hz, hx⟩
    · exact hx
    · exact (h x hx).resolve_right hz

end Replacing

/-! ## The requests -/

section Requests

variable {R : Rules} {k k' : Kern} {fd : Int} {n : Nat} {arg : Buf n} {r : IoctlRet} {f : Iface}

/-- The named address is gone, whether the deletion was granted or there was
nothing to delete. -/
theorem honouring_siocdifaddr (hfd : k.fds fd = some (.socket .inet6))
    (hf : k.ifs (indexNamed arg) = some f)
    (hs : honouring R k (.ioctl fd .siocdifaddr arg) r k') :
    k'.fds = k.fds ∧
      k'.ifs (indexNamed arg) = some { f with inet6 := f.inet6.erase (inet6Named arg) } := by
  obtain ⟨hs, hhonours⟩ := hs
  rcases hs with ⟨hno, rfl⟩ | ⟨-, hs⟩
  · have habsent : inet6Named arg ∉ f.inet6 := fun hmem => hhonours f hfd hf hmem hno
    rw [List.erase_of_not_mem habsent]
    exact ⟨rfl, hf⟩
  · simp only [Kern.Sets] at hs
    rw [if_pos hfd] at hs
    obtain ⟨i, g, hg, rfl, -, hfds, hifs⟩ := hs
    obtain rfl := Option.some.inj (hf.symm.trans hg)
    refine ⟨hfds, ?_⟩
    rw [hifs]
    exact Function.update_self ..

theorem honouring_siocsifaddr (hfd : k.fds fd = some (.socket .inet6))
    (hf : k.ifs (indexNamed arg) = some f) (hr : r.ret ≠ -1)
    (hs : honouring R k (.ioctl fd .siocsifaddr arg) r k') :
    k'.fds = k.fds ∧
      k'.ifs (indexNamed arg) = some { f with inet6 := inet6Named arg :: f.inet6 } := by
  obtain ⟨⟨hno, -⟩ | ⟨-, hs⟩, -⟩ := hs
  · exact absurd hno hr
  · simp only [Kern.Sets] at hs
    rw [if_pos hfd] at hs
    obtain ⟨i, g, hg, rfl, hfds, hifs⟩ := hs
    obtain rfl := Option.some.inj (hf.symm.trans hg)
    refine ⟨hfds, ?_⟩
    rw [hifs]
    exact Function.update_self ..

end Requests

/-! ## One call -/

section Call

variable {R : Rules} {dev : Device} {k k' : Kern} {i : Nat} {f : Iface}

/-- A socket more leaves the interface in reach, and is not the control socket. -/
theorem Kern.Reaches.borrow (h : k.Reaches dev i f) {domain : Domain} {fd : Int} (hfd : fd ≠ -1)
    (hs : Kern.Step R k (.socket domain) fd k') :
    k'.Reaches dev i f ∧ k'.fds fd = some (.socket domain) ∧ dev.ctrlSock ≠ fd := by
  obtain ⟨hfree, hopen⟩ := Kern.Step.socket_opens hs hfd
  have hne : dev.ctrlSock ≠ fd := by
    intro heq
    have hctrl := h.sock
    rw [heq, hfree] at hctrl
    cases hctrl
  rcases hs with ⟨hno, -⟩ | ⟨-, -, hifs, hfds⟩
  · exact absurd hno hfd
  · refine ⟨⟨?_, ?_, h.name⟩, hopen, hne⟩
    · rw [hfds, Function.update_of_ne hne]
      exact h.sock
    · rw [hifs]
      exact h.iface

/-- Closing a socket leaves the interfaces. -/
theorem Kern.Step.close_socket {fd : Int} {r : Int} {domain : Domain}
    (hfd : k.fds fd = some (.socket domain)) (hs : Kern.Step R k (.close fd) r k') :
    k'.fds = Function.update k.fds fd none ∧ k'.ifs = k.ifs := by
  obtain ⟨hfds, hleaves⟩ := hs
  unfold Kern.Leaves at hleaves
  rw [hfd] at hleaves
  exact ⟨hfds, hleaves⟩

/-- An interface index is an `int`, so a request has room for it. -/
theorem toNat_ifindex (hi : i < 2 ^ 31) (ifr : Ifreq) :
    (ifrInt (setIfrInt ifr (BitVec.ofNat 32 i))).toNat = i := by
  rw [ifrInt_setIfrInt _ _ (by decide), BitVec.toNat_ofNat]
  omega

theorem Kern.Reaches.siocgifindex (h : k.Reaches dev i f) (hi : i < 2 ^ 31) {arg : Ifreq}
    {r : IoctlGetRet 40} (hn : Names dev 40 arg) (hr : r.ret ≠ -1)
    (hs : Kern.Step R k (.ioctlGet dev.ctrlSock .siocgifindex arg) r k') :
    k' = k ∧ (ifrInt r.arg).toNat = i := by
  rcases hs with ⟨hno, -⟩ | ⟨-, hk, -, j, g, hg, hout⟩
  · exact absurd hno hr
  · obtain ⟨rfl, -⟩ := (h.found hn).unique hg
    refine ⟨hk, ?_⟩
    rw [hout]
    exact toNat_ifindex hi arg

theorem tuntapSysSetIpv6_wp (hi : i < 2 ^ 31) (h : k.Reaches dev i f) (s6 : Buf 16)
    (prefixLen : BitVec 32) :
    (Linux.tuntapSysSetIpv6 dev s6 prefixLen).Wp (honouring R) (fun n k' => n = 0 →
      k'.Reaches dev i { f with inet6 := (s6, prefixLen) :: f.inet6.erase unspecified }) k := by
  have hno : (-1 : Int) ≠ 0 := by decide
  simp only [Linux.tuntapSysSetIpv6, Prog.wp_call_bind, Prog.wp_ite, Prog.pure_eq, Prog.wp_ret]
  rintro fd k₁ ⟨hsock, -⟩
  refine ⟨fun _ _ _ _ h0 => absurd h0 hno, fun hfd r k₂ hindex => ?_⟩
  refine ⟨fun _ _ _ _ _ _ _ h0 => absurd h0 hno, fun hr rd k₃ hdel ra k₄ hadd => ?_⟩
  refine ⟨fun _ _ _ _ _ _ _ h0 => absurd h0 hno, fun hra _ k₅ hclose _ => ?_⟩
  obtain ⟨h₁, hopen, hne⟩ := h.borrow hfd hsock
  obtain ⟨rfl, harg⟩ := h₁.siocgifindex hi names_linux hr hindex.1
  have hnamed := (indexNamed_index (ifrInt r.arg)).trans harg
  obtain ⟨hfds₃, hifs₃⟩ := honouring_siocdifaddr hopen (by rw [hnamed]; exact h₁.iface) hdel
  rw [hnamed, inet6Named_index] at hifs₃
  have hnamed' := (indexNamed_request ((Buf.zero : In6Ifreq).memcpy 20
    (Buf.store32 (ifrInt r.arg)) 4) s6 prefixLen).trans hnamed
  obtain ⟨hfds₄, hifs₄⟩ := honouring_siocsifaddr (by rw [hfds₃]; exact hopen)
    (by rw [hnamed']; exact hifs₃) hra hadd
  rw [hnamed', inet6Named_request] at hifs₄
  obtain ⟨hfds₅, hifs₅⟩ := hclose.1.close_socket (by rw [hfds₄, hfds₃]; exact hopen)
  refine ⟨?_, ?_, h.name⟩
  · rw [hfds₅, Function.update_of_ne hne, hfds₄, hfds₃]
    exact h₁.sock
  · rw [hifs₅]
    exact hifs₄

/-- The kernel may refuse to delete what is not there and grant the rest. -/
theorem tuntapSysSetIpv6_may (hi : i < 2 ^ 31) (h : k.Reaches dev i f)
    (habsent : unspecified ∉ f.inet6) {fd : Int} (h0 : 0 ≤ fd) (hfree : k.fds fd = none)
    (s6 : Buf 16) (prefixLen : BitVec 32) :
    (Linux.tuntapSysSetIpv6 dev s6 prefixLen).May (honouring R)
      (fun n k' => n = 0 ∧ k'.fds fd = none) k := by
  let k₁ := k.setFd fd (some (.socket .inet6))
  have hborrow : Kern.Step R k (.socket .inet6) fd k₁ := Or.inr ⟨h0, hfree, rfl, rfl⟩
  obtain ⟨hreach, hopen, -⟩ := h.borrow (by omega) hborrow
  have hnamed := (indexNamed_index (ifrInt (setIfrInt (Linux.ifreqNamed dev)
    (BitVec.ofNat 32 i)))).trans (toNat_ifindex hi _)
  refine (Prog.may_call_bind _ _).mpr ⟨fd, k₁, ⟨Or.inr ⟨h0, hfree, rfl, rfl⟩, trivial⟩, ?_⟩
  rw [if_neg (by omega)]
  refine (Prog.may_call_bind _ _).mpr ⟨⟨0, setIfrInt (Linux.ifreqNamed dev) (BitVec.ofNat 32 i)⟩,
    k₁, ⟨Or.inr ⟨rfl, rfl, ⟨_, hreach.sock⟩, i, f, hreach.found names_linux, rfl⟩, trivial⟩, ?_⟩
  rw [if_neg (show (0 : Int) ≠ -1 by decide)]
  refine (Prog.may_call_bind _ _).mpr ⟨⟨-1, .other⟩, k₁, ⟨Or.inl ⟨rfl, rfl⟩, ?del⟩, ?_⟩
  case del =>
    intro g _ hg hmem
    rw [show (Buf.load32 _).toNat = i from hnamed] at hg
    obtain rfl := Option.some.inj (h.iface.symm.trans hg)
    rw [show (_, _) = unspecified from inet6Named_index _] at hmem
    exact absurd hmem habsent
  have hnamed' := (indexNamed_request ((Buf.zero : In6Ifreq).memcpy 20 (Buf.store32 (ifrInt
    (setIfrInt (Linux.ifreqNamed dev) (BitVec.ofNat 32 i)))) 4) s6 prefixLen).trans hnamed
  let k₂ := k₁.setIface i f { f with inet6 := (s6, prefixLen) :: f.inet6 } hreach.iface rfl
  refine (Prog.may_call_bind _ _).mpr ⟨⟨0, .other⟩, k₂, ⟨Or.inr ⟨rfl, ?add⟩, trivial⟩, ?_⟩
  case add =>
    simp only [Kern.Sets]
    rw [if_pos hopen]
    refine ⟨i, f, h.iface, hnamed'.symm, rfl, ?_⟩
    rw [show (_, _) = (s6, prefixLen) from inet6Named_request _ _ _]
    rfl
  rw [if_neg (by decide)]
  refine (Prog.may_call_bind _ _).mpr ⟨(0 : Int), k₂.setFd fd none, ⟨⟨rfl, ?leaves⟩, trivial⟩, rfl,
    Function.update_self ..⟩
  case leaves =>
    unfold Kern.Leaves
    rw [show k₂.fds fd = some (.socket .inet6) from hopen]
    rfl

end Call

/-! ## A sequence of calls -/

/-- A call of `tuntap_set_ip` with this IPv6 address and prefix length, that
succeeds. -/
def SetsInet6 (R : Rules) (libc : Libc) (dev : Device) (k : Kern) (a : Buf 16 × Int)
    (k' : Kern) : Prop :=
  ∃ addr tr, libc.inetPton4 addr = none ∧ libc.inetPton6 addr = some a.1 ∧
    (tuntapSetIp .linux libc dev (some addr) a.2).Runs tr 0 ∧ (honouring R).Steps k tr k'

/-- An address and a prefix length as they are given to the kernel. -/
def inet6Given (a : Buf 16 × Int) : Inet6 := (a.1, BitVec.ofInt 32 a.2)

/-- What a prefix length is checked for. -/
def PrefixValid (a : Buf 16 × Int) : Prop := 0 ≤ a.2 ∧ a.2 ≤ 128

theorem inet6Given_inj {a b : Buf 16 × Int} (ha : PrefixValid a) (hb : PrefixValid b)
    (h : inet6Given a = inet6Given b) : a = b := by
  obtain ⟨haddr, hlen⟩ := Prod.mk.inj h
  have hint : ∀ {c : Buf 16 × Int}, PrefixValid c → (BitVec.ofInt 32 c.2).toInt = c.2 := by
    rintro c ⟨h0, h128⟩
    rw [BitVec.toInt_ofInt]
    exact Int.bmod_eq_of_le (by omega) (by omega)
  have hsame := congrArg BitVec.toInt hlen
  rw [hint ha, hint hb] at hsame
  exact Prod.ext haddr hsame

section Sequence

variable {R : Rules} {libc : Libc} {dev : Device} {k k' : Kern} {i : Nat} {f : Iface}

theorem SetsInet6.reaches (hdev : dev.tunFd ≠ -1) (hi : i < 2 ^ 31) (h : k.Reaches dev i f)
    {a : Buf 16 × Int} (hs : SetsInet6 R libc dev k a k') :
    PrefixValid a ∧
      k'.Reaches dev i { f with inet6 := inet6Given a :: f.inet6.erase unspecified } := by
  obtain ⟨addr, tr, h4, h6, hr, hk⟩ := hs
  simp only [tuntapSetIp, if_neg hdev, h4, h6] at hr
  by_cases hrange : a.2 < 0 ∨ a.2 > 128
  · rw [if_pos hrange] at hr
    obtain ⟨_, _, _, _, hret⟩ := hr
    exact absurd (show (0 : Int) = -1 from hret) (by decide)
  · rw [if_neg hrange] at hr
    refine ⟨by unfold PrefixValid; omega, ?_⟩
    exact (tuntapSysSetIpv6_wp hi h a.1 (BitVec.ofInt 32 a.2)).of_runs hr hk rfl

variable (R libc) in
theorem exists_setsInet6 (addr : CString) (a : Buf 16 × Int) (fd : Int) (hdev : dev.tunFd ≠ -1)
    (hi : i < 2 ^ 31) (h : k.Reaches dev i f) (habsent : unspecified ∉ f.inet6) (h0 : 0 ≤ fd)
    (hfree : k.fds fd = none) (h4 : libc.inetPton4 addr = none)
    (h6 : libc.inetPton6 addr = some a.1) (hvalid : PrefixValid a) :
    ∃ k', SetsInet6 R libc dev k a k' ∧ k'.fds fd = none := by
  have hmay : (tuntapSetIp .linux libc dev (some addr) a.2).May (honouring R)
      (fun n k' => n = 0 ∧ k'.fds fd = none) k := by
    simp only [tuntapSetIp, if_neg hdev, h4, h6]
    rw [if_neg (by unfold PrefixValid at hvalid; omega)]
    exact tuntapSysSetIpv6_may hi h habsent h0 hfree a.1 _
  obtain ⟨tr, n, k', hr, hk, rfl, hfree'⟩ := (Prog.may_iff _).mp hmay
  exact ⟨k', ⟨addr, tr, h4, h6, hr, hk⟩, hfree'⟩

/-- What a sequence of calls leaves on the interface. -/
theorem run_reaches (hdev : dev.tunFd ≠ -1) (hi : i < 2 ^ 31) (h : k.Reaches dev i f)
    {tr : List (Kern × (Buf 16 × Int) × Kern)} (hr : Run (SetsInet6 R libc dev) k tr k') :
    (∀ x ∈ tr, PrefixValid x.2.1) ∧ k'.Reaches dev i { f with
      inet6 := (tr.map fun x => inet6Given x.2.1).foldl
        (fun l a => a :: l.erase unspecified) f.inet6 } := by
  induction hr generalizing f with
  | nil k => exact ⟨by simp, h⟩
  | cons hs _ ih =>
      obtain ⟨hvalid, hreach⟩ := hs.reaches hdev hi h
      obtain ⟨hall, hend⟩ := ih hreach
      simp only [List.mem_cons, forall_eq_or_imp]
      exact ⟨⟨hvalid, hall⟩, hend⟩

end Sequence

/-- The interface carries this IPv6 address and no other. -/
def CarriesOnly (k : Kern) (i : Nat) (a : Inet6) : Prop :=
  ∃ f, k.ifs i = some f ∧ ∀ b, b ∈ f.inet6 ↔ b = a

/-- After a sequence of successful calls on an interface without IPv6 addresses
it carries the last one and no other exactly when every call before was given
that one too, or `::` with prefix length 0. -/
theorem set_inet6_replaced_iff (R : Rules) (libc : Libc) (dev : Device) (k k' : Kern) (i : Nat)
    (f : Iface) (tr : List (Kern × (Buf 16 × Int) × Kern)) (x : Kern × (Buf 16 × Int) × Kern)
    (hdev : dev.tunFd ≠ -1) (hk : k.Reaches dev i f) (hi : i < 2 ^ 31) (h0 : f.inet6 = [])
    (hr : Run (SetsInet6 R libc dev) k (tr ++ [x]) k') :
    CarriesOnly k' i (inet6Given x.2.1) ↔
      ∀ y ∈ tr, y.2.1 = x.2.1 ∨ y.2.1 = (Buf.zero, 0) := by
  obtain ⟨hvalid, hreach⟩ := run_reaches hdev hi hk hr
  have hcarries : CarriesOnly k' i (inet6Given x.2.1) ↔
      ∀ b, b ∈ (tr.map (fun x => inet6Given x.2.1) ++ [inet6Given x.2.1]).foldl
        (fun l a => a :: l.erase unspecified) [] ↔ b = inet6Given x.2.1 := by
    rw [h0, List.map_append, List.map_singleton] at hreach
    constructor
    · rintro ⟨g, hg, hmem⟩
      obtain rfl := Option.some.inj (hreach.iface.symm.trans hg)
      exact hmem
    · intro hmem
      exact ⟨_, hreach.iface, hmem⟩
  rw [hcarries, foldl_replace_eq_last_iff, List.forall_mem_map]
  have hzero : PrefixValid (Buf.zero, 0) := ⟨by decide, by decide⟩
  have hx := hvalid x (List.mem_append_right _ (List.mem_singleton_self x))
  refine forall₂_congr fun y hy => ?_
  have hy' := hvalid y (List.mem_append_left _ hy)
  refine or_congr ⟨inet6Given_inj hy' hx, fun heq => by rw [heq]⟩ ⟨?_, fun heq => by rw [heq]; rfl⟩
  exact fun heq => inet6Given_inj hy' hzero heq

/-- One call after another on an interface that has no address. -/
theorem exists_setsInet6_pair (addr addr' : CString) (a b : Buf 16 × Int)
    (h4 : Libc.knowing6.inetPton4 addr = none) (h6 : Libc.knowing6.inetPton6 addr = some a.1)
    (h4' : Libc.knowing6.inetPton4 addr' = none) (h6' : Libc.knowing6.inetPton6 addr' = some b.1)
    (ha : PrefixValid a) (hb : PrefixValid b) (hne : unspecified ≠ inet6Given a) :
    ∃ k₁ k₂, SetsInet6 (Rules.plain .linux) Libc.knowing6 Device.tun0 Kern.tun0 a k₁ ∧
      SetsInet6 (Rules.plain .linux) Libc.knowing6 Device.tun0 k₁ b k₂ := by
  have hdev : Device.tun0.tunFd ≠ -1 := by decide
  obtain ⟨k₁, hs₁, hfree⟩ := exists_setsInet6 (Rules.plain .linux) Libc.knowing6 addr a 5 hdev
    (by decide) Kern.tun0_reaches List.not_mem_nil (by decide) rfl h4 h6 ha
  have hreach := (hs₁.reaches hdev (by decide) Kern.tun0_reaches).2
  obtain ⟨k₂, hs₂, -⟩ := exists_setsInet6 (Rules.plain .linux) Libc.knowing6 addr' b 5 hdev
    (by decide) hreach (List.not_mem_cons_of_ne_of_not_mem hne List.not_mem_nil) (by decide) hfree
    h4' h6' hb
  exact ⟨k₁, k₂, hs₁, hs₂⟩

/-- fe80::1/64 twice. -/
theorem set_inet6_twice_same : ∃ k' tr x,
    Run (SetsInet6 (Rules.plain .linux) Libc.knowing6 Device.tun0) Kern.tun0 (tr ++ [x]) k' ∧
      tr.map (fun y => y.2.1) = [(linkLocal 1, 64)] ∧ x.2.1 = (linkLocal 1, 64) ∧
        CarriesOnly k' 0 (inet6Given (linkLocal 1, 64)) := by
  have hdev : Device.tun0.tunFd ≠ -1 := by decide
  obtain ⟨k₁, k₂, hs₁, hs₂⟩ := exists_setsInet6_pair (CString.lit "fe80::1")
    (CString.lit "fe80::1") (linkLocal 1, 64) (linkLocal 1, 64) rfl rfl rfl rfl
    ⟨by decide, by decide⟩ ⟨by decide, by decide⟩ (by decide)
  have hr := Run.cons hs₁ (.cons hs₂ (.nil k₂))
  refine ⟨k₂, [_], _, hr, rfl, rfl, (set_inet6_replaced_iff _ _ _ _ _ 0 _ [_] _ hdev
    Kern.tun0_reaches (by decide) rfl hr).mpr fun y hy => Or.inl ?_⟩
  obtain rfl := List.mem_singleton.mp hy
  rfl

/-- fe80::1/64 and then fe80::2/64: the interface has both. -/
theorem set_inet6_twice_both :
    ¬ ∀ (R : Rules) (libc : Libc) (dev : Device) (k k' : Kern) (i : Nat) (f : Iface)
      (tr : List (Kern × (Buf 16 × Int) × Kern)) (x : Kern × (Buf 16 × Int) × Kern),
        dev.tunFd ≠ -1 → k.Reaches dev i f → i < 2 ^ 31 → f.inet6 = [] →
          Run (SetsInet6 R libc dev) k (tr ++ [x]) k' →
            CarriesOnly k' i (inet6Given x.2.1) := by
  intro hclaim
  have hdev : Device.tun0.tunFd ≠ -1 := by decide
  have hne : unspecified ≠ inet6Given (linkLocal 1, 64) := by decide
  obtain ⟨k₁, k₂, hs₁, hs₂⟩ := exists_setsInet6_pair (CString.lit "fe80::1")
    (CString.lit "fe80::2") (linkLocal 1, 64) (linkLocal 2, 64) rfl rfl rfl rfl
    ⟨by decide, by decide⟩ ⟨by decide, by decide⟩ hne
  have hreach₁ := (hs₁.reaches hdev (by decide) Kern.tun0_reaches).2
  obtain ⟨g, hg, hmem⟩ := hclaim _ _ _ _ _ _ _ [_] _ hdev Kern.tun0_reaches (by decide) rfl
    (.cons hs₁ (.cons hs₂ (.nil k₂)))
  have hreach₂ := (hs₂.reaches hdev (by decide) hreach₁).2
  obtain rfl := Option.some.inj (hreach₂.iface.symm.trans hg)
  have hold : inet6Given (linkLocal 1, 64) = inet6Given (linkLocal 2, 64) := by
    refine (hmem _).mp (List.mem_cons_of_mem _ ?_)
    exact (List.mem_erase_of_ne hne.symm).mpr (List.mem_cons_self ..)
  exact absurd hold (by decide)

end Libtuntap
