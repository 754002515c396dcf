import Libtuntap.Proofs.Requests
import Libtuntap.Unix.Api

/-!
# `tuntap_set_ip` from the string to the requests

One function serves two families. The parser decides the family, one range
check from 0 to 128 serves both, and the IPv4 mask is computed by shifting a
32-bit word to the right by the prefix length and taking the complement, with a
length of 32 set apart. For a length up to 32 the word that comes out, read in
network order, is the mask. From 33 to 128 the range check lets an IPv4 prefix
through, the shift is by more than the width of the word, and the kernel is
handed whatever came of it. An IPv6 prefix is right over the whole range.

So the function does what it should exactly when the string is not an IPv4
address with a length the check was too wide for.

What it asks for is read off the requests: every field a kernel looks at, in the
one structure or the other. The deletion in front of an IPv6 address is refused
on most interfaces, to no effect, so it is not counted among what a kernel has to
grant.
-/

namespace Libtuntap

open Effect CMem

/-- Four bytes as a word in network order. -/
def networkWord (b : Buf 4) : BitVec 32 :=
  (b.byte 0).toBitVec ++ (b.byte 1).toBitVec ++ (b.byte 2).toBitVec ++ (b.byte 3).toBitVec

/-- `len` one bits from the top, then zeros. -/
def IsPrefixMask (w : BitVec 32) (len : Int) : Prop :=
  ∀ i : Nat, i < 32 → (w.getMsbD i = true ↔ (i : Int) < len)

/-! ## The mask -/

theorem networkWord_htonl (x : BitVec 32) : networkWord (Buf.store32 (htonl x)) = x := by
  refine BitVec.eq_of_getLsbD_eq fun i hi => ?_
  simp only [networkWord, Buf.byte, Buf.store32, htonl, BitVec.getLsbD_append]
  grind

theorem getLsbD_ones (i : Nat) : (0xffffffff : BitVec 32).getLsbD i = decide (i < 32) := by
  rw [show (0xffffffff : BitVec 32) = BitVec.allOnes 32 by decide, BitVec.getLsbD_allOnes]

theorem isPrefixMask_ones : IsPrefixMask 0xffffffff 32 := by
  intro i hi
  rw [BitVec.getMsbD, getLsbD_ones]
  simp [hi]
  omega

theorem isPrefixMask_shift (len : Nat) :
    IsPrefixMask (~~~((~~~0 : BitVec 32) >>> len)) len := by
  intro i hi
  rw [show (~~~0 : BitVec 32) = 0xffffffff by decide, BitVec.getMsbD, BitVec.getLsbD_not,
    BitVec.getLsbD_ushiftRight, getLsbD_ones]
  simp [hi]
  omega

/-- Up to 32 the mask is computed without a call, and it is the mask. -/
theorem netmaskWord_ensures {netmask : Int} (h0 : 0 ≤ netmask) (h32 : netmask ≤ 32) :
    (netmaskWord netmask).Ensures fun tr w =>
      tr = [] ∧ IsPrefixMask (networkWord (Buf.store32 w)) netmask := by
  unfold netmaskWord
  by_cases h : netmask = 32
  · rw [if_pos h]
    refine ⟨rfl, ?_⟩
    rw [networkWord_htonl, h]
    exact isPrefixMask_ones
  · rw [if_neg h]
    unfold shiftRight
    rw [if_neg (by omega)]
    refine ⟨rfl, ?_⟩
    rw [networkWord_htonl]
    obtain ⟨len, rfl⟩ := Int.eq_ofNat_of_zero_le h0
    exact isPrefixMask_shift len

/-! ## The requests -/

/-- A request that changes an IPv4 address or mask: the structure is a
`struct ifreq`. -/
def Ipv4Request : Event Call Resp → Prop
  | ⟨.ioctl (n := n) _ req _, _⟩ => n = 40 ∧ (req = .siocsifaddr ∨ req = .siocsifnetmask)
  | _ => False

/-- A request that changes an IPv6 address: the structure is a
`struct in6_ifreq`. -/
def Ipv6Request : Event Call Resp → Prop
  | ⟨.ioctl (n := n) _ req _, _⟩ => n = 24 ∧ (req = .siocsifaddr ∨ req = .siocdifaddr)
  | _ => False

/-- What a request hands to the kernel that takes it for a `struct ifreq`: the size,
the socket and the request, then the name and the address or mask. -/
def ipv4Handed : Event Call Resp → Option (Nat × Int × Request × CString × Buf 4)
  | ⟨.ioctl (n := n) fd req arg, _⟩ =>
      some (n, fd, req, (ifrName arg).cstr.take 15, ifrInAddr arg)
  | _ => none

/-- The same of a `struct in6_ifreq`: the address with its prefix length, and the index. -/
def ipv6Handed : Event Call Resp → Option (Nat × Int × Request × Inet6 × Nat)
  | ⟨.ioctl (n := n) fd req arg, _⟩ => some (n, fd, req, inet6Named arg, indexNamed arg)
  | _ => none

/-- The index the kernel gives for a name. -/
def indexAnswered : Event Call Resp → Option (Int × CString × Nat)
  | ⟨.ioctlGet fd .siocgifindex arg, r⟩ =>
      some (fd, (ifrName arg).cstr.take 15, (ifrInt r.arg).toNat)
  | _ => none

/-- A message to the log callback. -/
def IsLog : Event Call Resp → Prop
  | ⟨.log .., _⟩ => True
  | _ => False

def WantsIpv4 (libc : Libc) (addr : CString) (netmask : Int) : Prop :=
  (libc.inetPton4 addr).isSome ∧ 0 ≤ netmask ∧ netmask ≤ 32

def WantsIpv6 (libc : Libc) (addr : CString) (netmask : Int) : Prop :=
  (libc.inetPton6 addr).isSome ∧ 0 ≤ netmask ∧ netmask ≤ 128

/-- The two requests of an IPv4 change, and no other: the address the string
stands for and the mask of the length, for the device, on its control socket. -/
def AsksIpv4 (libc : Libc) (dev : Device) (addr : CString) (netmask : Int)
    (tr : List (Event Call Resp)) : Prop :=
  ∃ s4 bits, libc.inetPton4 addr = some s4 ∧ IsPrefixMask (networkWord bits) netmask ∧
    tr.filterMap ipv4Handed =
      [(40, dev.ctrlSock, .siocsifaddr, dev.ifName.cstr.take 15, s4),
        (40, dev.ctrlSock, .siocsifnetmask, dev.ifName.cstr.take 15, bits)]

/-- The two requests of an IPv6 change, and no other: a deletion, of whatever address,
then the address the string stands for and the length, for the index the kernel
gave for the device, on a socket of that family. -/
def AsksIpv6 (libc : Libc) (dev : Device) (addr : CString) (netmask : Int)
    (tr : List (Event Call Resp)) : Prop :=
  ∃ s6 prefixLen fd index old, libc.inetPton6 addr = some s6 ∧ prefixLen.toInt = netmask ∧
    (⟨.socket .inet6, fd⟩ : Event Call Resp) ∈ tr ∧
    tr.filterMap indexAnswered = [(dev.ctrlSock, dev.ifName.cstr.take 15, index)] ∧
    tr.filterMap ipv6Handed =
      [(24, fd, .siocdifaddr, old, index), (24, fd, .siocsifaddr, (s6, prefixLen), index)]

/-- What the function is to ask for, and what it answers when it asks for
nothing. -/
structure EndToEnd (libc : Libc) (dev : Device) (addr : CString) (netmask : Int)
    (tr : List (Event Call Resp)) (n : Int) : Prop where
  ipv4 : (∃ e ∈ tr, Ipv4Request e) ↔ WantsIpv4 libc addr netmask
  address : WantsIpv4 libc addr netmask → AsksIpv4 libc dev addr netmask tr
  ipv6 : (∃ e ∈ tr, Ipv6Request e) ↔ WantsIpv6 libc addr netmask
  address6 : WantsIpv6 libc addr netmask → AsksIpv6 libc dev addr netmask tr
  otherwise : ¬ WantsIpv4 libc addr netmask → ¬ WantsIpv6 libc addr netmask →
    n = -1 ∧ ∀ e ∈ tr, IsLog e

/-- The kernel did as it was asked. The deletion is let off: there is an address to
delete only where the interface has `::`, and the answer is not looked at. -/
def Complied : Event Call Resp → Prop
  | ⟨.ioctl _ .siocdifaddr _, _⟩ => True
  | e => Granted e

theorem Granted.complied {e : Event Call Resp} (h : Granted e) : Complied e := by
  unfold Complied
  split
  · trivial
  · exact h

/-! ## The two back-end calls -/

/-- An IPv4 change, refused or made: the address, then the mask. -/
theorem tuntapSysSetIpv4_ensures (dev : Device) (s4 : Buf 4) (mask : BitVec 32) :
    (Linux.tuntapSysSetIpv4 dev s4 mask).Ensures fun tr n =>
      n = -1 ∧ (∃ e ∈ tr, ¬ Complied e) ∨
        n = 0 ∧ ∃ (a m : Ifreq) (ra rm : IoctlRet), ra.ret ≠ -1 ∧ rm.ret ≠ -1 ∧
          Names dev 40 a ∧ ifrInAddr a = s4 ∧ Names dev 40 m ∧ ifrInAddr m = Buf.store32 mask ∧
          tr = [⟨.ioctl dev.ctrlSock .siocsifaddr a, ra⟩,
            ⟨.ioctl dev.ctrlSock .siocsifnetmask m, rm⟩] := by
  unfold Linux.tuntapSysSetIpv4
  simp only [Prog.ensures_call_bind, Prog.ensures_ite, Prog.pure_eq, Prog.ensures_ret]
  intro ra
  refine ⟨fun hra _ => ?_, fun hra rm => ⟨fun hrm _ => ?_, fun hrm => ?_⟩⟩
  · exact Or.inl ⟨trivial, _, List.mem_cons_self .., fun h => h hra⟩
  · exact Or.inl ⟨trivial, _, List.mem_cons_of_mem _ (List.mem_cons_self ..), fun h => h hrm⟩
  refine Or.inr ⟨trivial, _, _, ra, rm, hra, hrm, ?_, ?_, ?_, ?_, rfl⟩
  · exact (names_linux.memcpy (by decide)).memcpy (by decide)
  · unfold ifrInAddr
    rw [Buf.slice_memcpy_disjoint _ _ _ _ _ _ (by decide),
      Buf.slice_memcpy_same _ _ _ (by decide)]
  · exact (((names_linux.memcpy (by decide)).memcpy (by decide)).memset (by decide)).memcpy
      (by decide)
  · unfold ifrInAddr
    rw [Buf.slice_memcpy_inside _ _ _ _ _ _ (by decide) (by decide) (by decide)]
    exact Buf.slice_memcpy_same _ _ _ (by decide)

/-- The request that deletes: an index and nothing else. -/
def in6Cleared (index : BitVec 32) : In6Ifreq := Buf.zero.memcpy 20 (Buf.store32 index) 4

/-- The request that adds. -/
def in6Filled (s6 : Buf 16) (prefixLen index : BitVec 32) : In6Ifreq :=
  ((in6Cleared index).memcpy 16 (Buf.store32 prefixLen) 4).memcpy 0 s6 16

theorem ipv6Handed_cleared {fd : Int} {req : Request} {index : BitVec 32} {r : IoctlRet} :
    ipv6Handed ⟨.ioctl fd req (in6Cleared index), r⟩ =
      some (24, fd, req, unspecified, index.toNat) := by
  unfold ipv6Handed in6Cleared
  dsimp only
  rw [inet6Named_index, indexNamed_index]

theorem ipv6Handed_filled {fd : Int} {req : Request} {s6 : Buf 16} {prefixLen index : BitVec 32}
    {r : IoctlRet} : ipv6Handed ⟨.ioctl fd req (in6Filled s6 prefixLen index), r⟩ =
      some (24, fd, req, (s6, prefixLen), index.toNat) := by
  unfold ipv6Handed in6Filled in6Cleared
  dsimp only
  rw [inet6Named_request, indexNamed_request, indexNamed_index]

/-- An IPv6 change, refused or made: the index, the deletion of an address and the
new one. -/
theorem tuntapSysSetIpv6_ensures (dev : Device) (s6 : Buf 16) (prefixLen : BitVec 32) :
    (Linux.tuntapSysSetIpv6 dev s6 prefixLen).Ensures fun tr n =>
      n = -1 ∧ (∃ e ∈ tr, ¬ Complied e) ∨
        n = 0 ∧ ∃ (fd rc : Int) (i : Ifreq) (ri : IoctlGetRet 40) (rd ra : IoctlRet),
          fd ≠ -1 ∧ ri.ret ≠ -1 ∧ ra.ret ≠ -1 ∧ Names dev 40 i ∧
          tr = [⟨.socket .inet6, fd⟩, ⟨.ioctlGet dev.ctrlSock .siocgifindex i, ri⟩,
            ⟨.ioctl fd .siocdifaddr (in6Cleared (ifrInt ri.arg)), rd⟩,
            ⟨.ioctl fd .siocsifaddr (in6Filled s6 prefixLen (ifrInt ri.arg)), ra⟩,
            ⟨.close fd, rc⟩] := by
  unfold Linux.tuntapSysSetIpv6
  simp only [Prog.ensures_call_bind, Prog.ensures_ite, Prog.pure_eq, Prog.ensures_ret]
  intro fd
  refine ⟨fun hfd _ => ?_, fun hfd ri => ⟨fun hri _ _ => ?_, fun hri rd ra => ⟨?_, ?_⟩⟩⟩
  · exact Or.inl ⟨trivial, _, List.mem_cons_self .., fun h => h hfd⟩
  · exact Or.inl ⟨trivial, _, List.mem_cons_of_mem _ (List.mem_cons_self ..), fun h => h hri⟩
  · intro hra _ _
    exact Or.inl ⟨trivial, _, List.mem_cons_of_mem _ (List.mem_cons_of_mem _
      (List.mem_cons_of_mem _ (List.mem_cons_self ..))), fun h => h hra⟩
  · intro hra rc
    exact Or.inr ⟨trivial, fd, rc, _, ri, rd, ra, hfd, hri, hra, names_linux, rfl⟩

/-! ## The function -/

section

variable {libc : Libc} {dev : Device} {addr : CString} {netmask : Int}

/-- Messages only, where nothing is wanted. -/
theorem EndToEnd.of_nothing {tr : List (Event Call Resp)} (h4 : ¬ WantsIpv4 libc addr netmask)
    (h6 : ¬ WantsIpv6 libc addr netmask) (hlog : ∀ e ∈ tr, IsLog e) :
    EndToEnd libc dev addr netmask tr (-1) := by
  have hnone : ∀ e, IsLog e → ¬ Ipv4Request e ∧ ¬ Ipv6Request e := by
    intro e he
    obtain ⟨c, r⟩ := e
    cases c with
    | log => exact ⟨id, id⟩
    | _ => exact he.elim
  exact {
    ipv4 := ⟨fun ⟨e, he, h⟩ => absurd h (hnone e (hlog e he)).1, fun h => absurd h h4⟩
    address := fun h => absurd h h4
    ipv6 := ⟨fun ⟨e, he, h⟩ => absurd h (hnone e (hlog e he)).2, fun h => absurd h h6⟩
    address6 := fun h => absurd h h6
    otherwise := fun _ _ => ⟨rfl, hlog⟩ }

theorem EndToEnd.of_ipv4 {n : Int} {a m : Ifreq} {ra rm : IoctlRet}
    (h4 : WantsIpv4 libc addr netmask) (h6 : ¬ WantsIpv6 libc addr netmask)
    (hs4 : libc.inetPton4 addr = some (ifrInAddr a)) (ha : Names dev 40 a) (hm : Names dev 40 m)
    (hmask : IsPrefixMask (networkWord (ifrInAddr m)) netmask) :
    EndToEnd libc dev addr netmask
      [⟨.ioctl dev.ctrlSock .siocsifaddr a, ra⟩,
        ⟨.ioctl dev.ctrlSock .siocsifnetmask m, rm⟩] n where
  ipv4 := ⟨fun _ => h4, fun _ => ⟨_, List.mem_cons_self .., rfl, Or.inl rfl⟩⟩
  address _ := by
    refine ⟨ifrInAddr a, ifrInAddr m, hs4, hmask, ?_⟩
    rw [← show (ifrName a).cstr.take 15 = dev.ifName.cstr.take 15 from ha]
    simp only [List.filterMap_cons, List.filterMap_nil, ipv4Handed]
    rw [show (ifrName m).cstr.take 15 = (ifrName a).cstr.take 15 from hm.trans ha.symm]
  ipv6 := by
    refine ⟨fun h => ?_, fun h => absurd h h6⟩
    obtain ⟨e, he, h⟩ := h
    simp only [List.mem_cons, List.not_mem_nil, or_false] at he
    rcases he with rfl | rfl
    · exact absurd h.1 (by decide)
    · exact absurd h.1 (by decide)
  address6 h := absurd h h6
  otherwise h := absurd h4 h

theorem EndToEnd.of_ipv6 {fd rc n : Int} {s6 : Buf 16} {i : Ifreq} {ri : IoctlGetRet 40}
    {rd ra : IoctlRet} (h4 : ¬ WantsIpv4 libc addr netmask) (h6 : WantsIpv6 libc addr netmask)
    (hs6 : libc.inetPton6 addr = some s6) (hi : Names dev 40 i) :
    EndToEnd libc dev addr netmask
      [⟨.socket .inet6, fd⟩, ⟨.ioctlGet dev.ctrlSock .siocgifindex i, ri⟩,
        ⟨.ioctl fd .siocdifaddr (in6Cleared (ifrInt ri.arg)), rd⟩,
        ⟨.ioctl fd .siocsifaddr (in6Filled s6 (BitVec.ofInt 32 netmask) (ifrInt ri.arg)), ra⟩,
        ⟨.close fd, rc⟩] n where
  ipv4 := by
    refine ⟨fun h => ?_, fun h => absurd h h4⟩
    obtain ⟨e, he, h⟩ := h
    simp only [List.mem_cons, List.not_mem_nil, or_false] at he
    rcases he with rfl | rfl | rfl | rfl | rfl
    · exact h.elim
    · exact h.elim
    · exact absurd h.1 (by decide)
    · exact absurd h.1 (by decide)
    · exact h.elim
  address h := absurd h h4
  ipv6 := by
    exact ⟨fun _ => h6, fun _ => ⟨_, List.mem_cons_of_mem _ (List.mem_cons_of_mem _
      (List.mem_cons_self ..)), rfl, Or.inr rfl⟩⟩
  address6 _ := by
    have hlen : (BitVec.ofInt 32 netmask).toInt = netmask := by
      rw [BitVec.toInt_ofInt]
      exact Int.bmod_eq_of_le (by have := h6.2.1; omega) (by have := h6.2.2; omega)
    refine ⟨s6, BitVec.ofInt 32 netmask, fd, (ifrInt ri.arg).toNat, unspecified, hs6, hlen,
      List.mem_cons_self .., ?_, ?_⟩
    · rw [← show (ifrName i).cstr.take 15 = dev.ifName.cstr.take 15 from hi]
      rfl
    · rw [List.filterMap_cons_none rfl, List.filterMap_cons_none rfl,
        List.filterMap_cons_some ipv6Handed_cleared, List.filterMap_cons_some ipv6Handed_filled]
      rfl
  otherwise _ h := absurd h6 h

/-- What the call leaves when the kernel grants what it is asked. -/
theorem tuntapSetIp_granted (hdev : dev.tunFd ≠ -1)
    (hlibc : ∀ s, libc.inetPton4 s = none ∨ libc.inetPton6 s = none) :
    (tuntapSetIp .linux libc dev (some addr) netmask).Ensures fun tr n =>
      (∀ e ∈ tr, Complied e) →
        (EndToEnd libc dev addr netmask tr n ↔
          ¬ ((libc.inetPton4 addr).isSome ∧ 32 < netmask ∧ netmask ≤ 128)) := by
  have hlog : ∀ level msg, ∀ e ∈ [(⟨.log level msg, ()⟩ : Event Call Resp)], IsLog e := by
    intro level msg e he
    obtain rfl := List.mem_singleton.mp he
    trivial
  have not_refused : ∀ {tr : List (Event Call Resp)}, (∀ e ∈ tr, Complied e) →
      ¬ ∃ e ∈ tr, ¬ Complied e := fun hg ⟨e, he, hno⟩ => hno (hg e he)
  simp only [tuntapSetIp, hdev, if_false]
  by_cases hrange : netmask < 0 ∨ netmask > 128
  · simp only [if_pos hrange]
    intro _ _
    refine iff_of_true (.of_nothing ?_ ?_ (hlog _ _)) ?_
    · exact fun h => by obtain ⟨-, h⟩ := h; omega
    · exact fun h => by obtain ⟨-, h⟩ := h; omega
    · exact fun h => by obtain ⟨-, h⟩ := h; omega
  · simp only [if_neg hrange]
    cases hpton4 : libc.inetPton4 addr with
    | some s4 =>
        have h6 : ¬ WantsIpv6 libc addr netmask := by
          intro h
          have hnone := (hlibc addr).resolve_left (by simp [hpton4])
          exact absurd h.1 (by simp [hnone])
        dsimp only
        by_cases h32 : netmask ≤ 32
        · have h4 : WantsIpv4 libc addr netmask := ⟨by simp [hpton4], by omega, h32⟩
          refine (netmaskWord_ensures (by omega) h32).bind fun tr₀ w hw => ?_
          obtain ⟨rfl, hmask⟩ := hw
          refine (tuntapSysSetIpv4_ensures dev s4 w).mono fun tr n htr hg => ?_
          obtain ⟨-, a, m, ra, rm, -, -, ha, hs4, hm, hbits, rfl⟩ :=
            htr.resolve_left fun h => not_refused hg h.2
          rw [← hbits] at hmask
          refine iff_of_true (.of_ipv4 h4 h6 (by rw [hpton4, hs4]) ha hm hmask) ?_
          exact fun h => by omega
        · refine (Prog.ensures_true (netmaskWord netmask)).bind fun tr₀ w _ => ?_
          refine (tuntapSysSetIpv4_ensures dev s4 w).mono fun tr n htr hg => ?_
          obtain ⟨-, a, m, ra, rm, -, -, -, -, -, -, rfl⟩ := htr.resolve_left fun h =>
            not_refused (fun e he => hg e (List.mem_append_right _ he)) h.2
          refine iff_of_false (fun h => ?_) (fun h => h ⟨by simp, by omega, by omega⟩)
          have hasked : ∃ e ∈ tr₀ ++ [(⟨.ioctl dev.ctrlSock .siocsifaddr a, ra⟩ : Event Call Resp),
              ⟨.ioctl dev.ctrlSock .siocsifnetmask m, rm⟩], Ipv4Request e :=
            ⟨_, List.mem_append_right _ (List.mem_cons_self ..), rfl, Or.inl rfl⟩
          exact h32 (h.ipv4.mp hasked).2.2
    | none =>
        have h4 : ¬ WantsIpv4 libc addr netmask := fun h => absurd h.1 (by simp [hpton4])
        cases hpton6 : libc.inetPton6 addr with
        | some s6 =>
            dsimp only
            refine (tuntapSysSetIpv6_ensures dev s6 (BitVec.ofInt 32 netmask)).mono
              fun tr n htr hg => ?_
            obtain ⟨-, fd, rc, i, ri, rd, ra, -, -, -, hi, rfl⟩ :=
              htr.resolve_left fun h => not_refused hg h.2
            have h6 : WantsIpv6 libc addr netmask := ⟨by simp [hpton6], by omega, by omega⟩
            exact iff_of_true (.of_ipv6 h4 h6 hpton6 hi) (by simp)
        | none =>
            intro _ _
            refine iff_of_true (.of_nothing h4 ?_ (hlog _ _)) (by simp)
            exact fun h => absurd h.1 (by simp [hpton6])

end

/-- `tuntap_set_ip` on a started device, with a kernel that grants what it is
asked: it asks for what it should exactly when it is not given an IPv4 address
with a prefix length from 33 to 128. -/
theorem set_ip_end_to_end_iff (libc : Libc) (dev : Device) (addr : CString) (netmask : Int)
    (hdev : dev.tunFd ≠ -1) (hlibc : ∀ s, libc.inetPton4 s = none ∨ libc.inetPton6 s = none)
    (tr : List (Event Call Resp)) (n : Int)
    (hr : (tuntapSetIp .linux libc dev (some addr) netmask).Runs tr n)
    (hg : ∀ e ∈ tr, Complied e) :
    EndToEnd libc dev addr netmask tr n ↔
      ¬ ((libc.inetPton4 addr).isSome ∧ 32 < netmask ∧ netmask ≤ 128) :=
  (Prog.ensures_iff _).mp (tuntapSetIp_granted hdev hlibc) tr n hr hg

/-- A parser that knows the IPv4 address 10.0.0.1. -/
def Libc.knowing : Libc where
  inetPton4 s := if s = CString.lit "10.0.0.1" then some fun i => [10, 0, 0, 1].getD i 0 else none
  inetPton6 _ := none
  etherAton _ := none
  etherNtoa _ := CString.lit ""

/-- fe80::1 and fe80::2. -/
def linkLocal (last : UInt8) : Buf 16 := fun i =>
  [0xfe, 0x80, 0, 0, 0, 0, 0, 0, 0, 0, 0, 0, 0, 0, 0, last].getD i 0

/-- A parser that knows these two. -/
def Libc.knowing6 : Libc where
  inetPton4 _ := none
  inetPton6 s :=
    if s = CString.lit "fe80::1" then some (linkLocal 1)
    else if s = CString.lit "fe80::2" then some (linkLocal 2)
    else none
  etherAton _ := none
  etherNtoa _ := CString.lit ""

/-- A device with both descriptors open. -/
def Device.running : Device := { Device.init with tunFd := 4, ctrlSock := 3 }

/-- 10.0.0.1/24, granted. -/
theorem set_ip_24_runs : ∃ tr n, (tuntapSetIp .linux Libc.knowing Device.running
      (some (CString.lit "10.0.0.1")) 24).Runs tr n ∧ ∀ e ∈ tr, Complied e := by
  refine ⟨_, _, ⟨⟨0, .other⟩, _, rfl, ⟨0, .other⟩, _, rfl, rfl, rfl⟩, fun e he => ?_⟩
  simp only [List.mem_cons, List.not_mem_nil, or_false] at he
  rcases he with rfl | rfl
  · exact fun h => absurd h (by decide)
  · exact fun h => absurd h (by decide)

/-- fe80::1/64 on interface 7. The deletion is refused, as there is no `::` to delete. -/
theorem set_ip_64_runs : ∃ tr n, (tuntapSetIp .linux Libc.knowing6 Device.running
      (some (CString.lit "fe80::1")) 64).Runs tr n ∧
    (∀ e ∈ tr, Complied e) ∧ ∃ e ∈ tr, ¬ Granted e := by
  have hruns : (Linux.tuntapSysSetIpv6 Device.running (linkLocal 1) 64).Runs
      [⟨.socket .inet6, (5 : Int)⟩, ⟨.ioctlGet 3 .siocgifindex (Linux.ifreqNamed Device.running),
          ⟨0, setIfrInt Buf.zero 7⟩⟩,
        ⟨.ioctl 5 .siocdifaddr (in6Cleared (ifrInt (setIfrInt Buf.zero 7))), ⟨-1, .other⟩⟩,
        ⟨.ioctl 5 .siocsifaddr (in6Filled (linkLocal 1) 64 (ifrInt (setIfrInt Buf.zero 7))),
          ⟨0, .other⟩⟩, ⟨.close 5, (0 : Int)⟩] 0 :=
    ⟨(5 : Int), _, rfl, ⟨0, setIfrInt Buf.zero 7⟩, _, rfl, ⟨-1, .other⟩, _, rfl, ⟨0, .other⟩, _,
      rfl, (0 : Int), _, rfl, rfl, rfl⟩
  refine ⟨_, _, hruns, fun e he => ?_, _,
    List.mem_cons_of_mem _ (List.mem_cons_of_mem _ (List.mem_cons_self ..)), fun h => h rfl⟩
  simp only [List.mem_cons, List.not_mem_nil, or_false] at he
  rcases he with rfl | rfl | rfl | rfl | rfl
  · exact fun h => absurd h (by decide)
  · exact fun h => absurd h (by decide)
  · trivial
  · exact fun h => absurd h (by decide)
  · trivial

/-- Both families on a started device. -/
theorem set_ip_24_and_64 :
    (∃ tr n, (tuntapSetIp .linux Libc.knowing Device.running
        (some (CString.lit "10.0.0.1")) 24).Runs tr n ∧ (∀ e ∈ tr, Complied e) ∧
      EndToEnd Libc.knowing Device.running (CString.lit "10.0.0.1") 24 tr n) ∧
    ∃ tr n, (tuntapSetIp .linux Libc.knowing6 Device.running
        (some (CString.lit "fe80::1")) 64).Runs tr n ∧ (∀ e ∈ tr, Complied e) ∧
      (∃ e ∈ tr, ¬ Granted e) ∧
      EndToEnd Libc.knowing6 Device.running (CString.lit "fe80::1") 64 tr n := by
  obtain ⟨tr, n, hr, hg⟩ := set_ip_24_runs
  obtain ⟨tr₆, n₆, hr₆, hg₆, hno⟩ := set_ip_64_runs
  refine ⟨⟨tr, n, hr, hg, ?_⟩, tr₆, n₆, hr₆, hg₆, hno, ?_⟩
  · exact (set_ip_end_to_end_iff Libc.knowing Device.running (CString.lit "10.0.0.1") 24 (by decide)
      (fun _ => Or.inr rfl) tr n hr hg).mpr (by omega)
  · exact (set_ip_end_to_end_iff Libc.knowing6 Device.running (CString.lit "fe80::1") 64 (by decide)
      (fun _ => Or.inl rfl) tr₆ n₆ hr₆ hg₆).mpr fun h => absurd h.1 (by decide)

/-- 10.0.0.1/33 on a started device, on a machine that takes the shift count
modulo 32: the kernel is asked for the mask 128.0.0.0. -/
theorem set_ip_33_asked :
    ¬ ∀ (libc : Libc) (dev : Device) (addr : CString) (netmask : Int)
      (tr : List (Event Call Resp)) (n : Int), dev.tunFd ≠ -1 →
        (∀ s, libc.inetPton4 s = none ∨ libc.inetPton6 s = none) →
          (tuntapSetIp .linux libc dev (some addr) netmask).Runs tr n →
            (∀ e ∈ tr, Complied e) → EndToEnd libc dev addr netmask tr n := by
  intro hclaim
  have h := hclaim Libc.knowing Device.running
    (CString.lit "10.0.0.1") 33 _ _ (by decide) (fun _ => Or.inr rfl)
    ⟨(0x7fffffff : BitVec 32), _, rfl, ⟨0, .other⟩, _, rfl, ⟨0, .other⟩, _, rfl, rfl, rfl⟩ ?_
  · have hasked := h.ipv4.mp ⟨_, List.mem_cons_of_mem _ (List.mem_cons_self ..), rfl, Or.inl rfl⟩
    exact absurd hasked.2.2 (by decide)
  · intro e he
    simp only [List.mem_cons, List.not_mem_nil, or_false] at he
    rcases he with rfl | rfl | rfl
    · trivial
    · exact fun h => absurd h (by decide)
    · exact fun h => absurd h (by decide)

end Libtuntap
