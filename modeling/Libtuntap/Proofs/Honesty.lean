import Libtuntap.Proofs.SetIp

/-!
# What a zero means

Eight functions of the API change something in the kernel and answer 0 or -1. A
caller reads 0 as "done", so 0 should come only after the request that carries
the change was issued and granted. Which request that is depends on the
function and its arguments; `Op.Carried` names it by the fields a kernel would
read, not by the way the code fills them in.

The code has one way out that answers 0 with no request at all: the early
return of `tuntap_set_ip`, `tuntap_set_mtu` and `tuntap_set_debug` on a device
that is not started. The other five make the request there as well, on a
descriptor of -1, and report what came of it.

Two functions ask for something else than they were told. Linux takes the
argument of `TUNSETDEBUG` by value, and `tuntap_set_debug` passes the address of
its argument. And `tuntap_set_ip` shifts for the mask by any prefix length up to
128, also for an IPv4 address, which has none beyond 32. There a zero means that
the kernel granted what it was asked, and that was not the change.

So the answers are honest exactly off that way out, and in these two cases as far
as the kernel refuses.
-/

namespace Libtuntap

open Effect CMem

/-- A granted `ioctl` on `fd`, with an argument as wanted. -/
def Accepted (fd : Int) (req : Request) (ok : (n : Nat) → Buf n → Prop) :
    Event Call Resp → Prop
  | ⟨.ioctl (n := n) fd' req' arg, r⟩ => fd' = fd ∧ req' = req ∧ ok n arg ∧ r.ret ≠ -1
  | ⟨.ioctlGet (n := n) fd' req' arg, r⟩ => fd' = fd ∧ req' = req ∧ ok n arg ∧ r.ret ≠ -1
  | _ => False

/-- A socket of the family was opened as `fd`. -/
def OpenedSocket (domain : Domain) (fd : Int) : Event Call Resp → Prop
  | ⟨.socket d, r⟩ => d = domain ∧ r = fd ∧ fd ≠ -1
  | _ => False

/-- A granted `ioctl` on `fd` that hands over a number. -/
def AcceptedVal (fd : Int) (req : Request) (val : BitVec 32) : Event Call Resp → Prop
  | ⟨.ioctlVal fd' req' val', r⟩ => fd' = fd ∧ req' = req ∧ val' = val ∧ r.ret ≠ -1
  | _ => False

/-- The kernel told the index of the device's interface. -/
def ToldIndex (dev : Device) (index : Nat) : Event Call Resp → Prop
  | ⟨.ioctlGet (n := n) fd .siocgifindex arg, r⟩ =>
      fd = dev.ctrlSock ∧ Names dev n arg ∧ r.ret ≠ -1 ∧ (ifrInt r.arg).toNat = index
  | _ => False

/-- Both steps of an IPv4 change. -/
def SentIpv4 (dev : Device) (s4 bits : Buf 4) (tr : List (Event Call Resp)) : Prop :=
  (∃ e ∈ tr, Accepted dev.ctrlSock .siocsifaddr
      (fun n arg => Names dev n arg ∧ ifrInAddr arg = s4) e) ∧
    ∃ e ∈ tr, Accepted dev.ctrlSock .siocsifnetmask
      (fun n arg => Names dev n arg ∧ ifrInAddr arg = bits) e

/-- The address and the mask of that many bits. -/
def CarriedIpv4 (dev : Device) (s4 : Buf 4) (netmask : Int) (tr : List (Event Call Resp)) : Prop :=
  0 ≤ netmask ∧ netmask ≤ 32 ∧
    ∃ bits, IsPrefixMask (networkWord bits) netmask ∧ SentIpv4 dev s4 bits tr

/-- The address and the prefix length, for the index of the interface. -/
def CarriedIpv6 (dev : Device) (a : Inet6) (tr : List (Event Call Resp)) : Prop :=
  ∃ fd index, (∃ e ∈ tr, OpenedSocket .inet6 fd e) ∧ (∃ e ∈ tr, ToldIndex dev index e) ∧
    ∃ e ∈ tr, Accepted fd .siocsifaddr
      (fun _ arg => inet6Named arg = a ∧ indexNamed arg = index) e

/-- Every request the change needs was issued and granted. `dev` is the record
before the call and `d` the one after it. -/
def Op.Carried (libc : Libc) (dev d : Device) (tr : List (Event Call Resp)) : Op → Prop
  | .setIp addr netmask =>
      (∃ s4, addr.bind libc.inetPton4 = some s4 ∧ CarriedIpv4 dev s4 netmask tr) ∨
        ∃ s6, addr.bind libc.inetPton6 = some s6 ∧
          CarriedIpv6 dev (s6, BitVec.ofInt 32 netmask) tr
  | .setMtu mtu => ∃ e ∈ tr, Accepted dev.ctrlSock .siocsifmtu
      (fun n arg => Names dev n arg ∧ ifrInt arg = mtu) e
  | .setDebug set => ∃ e ∈ tr, AcceptedVal dev.tunFd .tunsdebug set e
  | .setNonblocking set => ∃ e ∈ tr, Accepted dev.tunFd .fionbio
      (fun _ arg => Buf.load32 (arg.slice 0 4) = set) e
  | .setIfname ifname => ∃ e ∈ tr, Accepted dev.ctrlSock .siocsifname
      (fun n arg => Names dev n arg ∧ ifname = some (ifrNewname arg).cstr) e
  | .setHwaddr hwaddr =>
      (hwaddr = CString.lit "random" ∨ libc.etherAton hwaddr = some d.hwaddr) ∧
        ∃ e ∈ tr, Accepted dev.ctrlSock .siocsifhwaddr
          (fun n arg => Names dev n arg ∧ ifrHwaddr arg = d.hwaddr) e
  | .up => ∃ e ∈ tr, Accepted dev.ctrlSock .siocsifflags
      (fun n arg => Names dev n arg ∧ ifrFlags arg &&& iffUp = iffUp) e
  | .down => ∃ e ∈ tr, Accepted dev.ctrlSock .siocsifflags
      (fun n arg => Names dev n arg ∧ ifrFlags arg &&& iffUp = 0) e
  | _ => False

/-- The functions whose answer is about a change. -/
def Op.Sets : Op → Prop
  | .setIp .. | .setMtu _ | .setDebug _ | .setNonblocking _ | .setIfname _ | .setHwaddr _
  | .up | .down => True
  | _ => False

/-- The functions that return early on a device that is not started. -/
def Op.ReturnsEarly : Op → Prop
  | .setIp .. | .setMtu _ | .setDebug _ => True
  | _ => False

/-- The functions and arguments that ask for something else than the change: an
argument passed by address that is taken by value, and a mask of more bits than
there are. -/
def Op.Misasks (libc : Libc) : Op → Prop
  | .setDebug _ => True
  | .setIp addr netmask => (∃ s4, addr.bind libc.inetPton4 = some s4) ∧ 32 < netmask ∧ netmask ≤ 128
  | _ => False

/-- Zero after the change, a negative answer otherwise. -/
def Honest (libc : Libc) (dev : Device) (op : Op) (tr : List (Event Call Resp)) :
    Ret × Option Device → Prop
  | (.int n, some d) => n = 0 ∧ op.Carried libc dev d tr ∨ n < 0
  | _ => False

section Accepted

variable {fd fd' : Int} {req req' : Request} {ok : (n : Nat) → Buf n → Prop}

@[simp] theorem accepted_ioctl {n : Nat} {arg : Buf n} {r : IoctlRet} :
    Accepted fd req ok ⟨.ioctl fd' req' arg, r⟩ ↔
      fd' = fd ∧ req' = req ∧ ok n arg ∧ r.ret ≠ -1 := Iff.rfl

@[simp] theorem accepted_ioctlGet {n : Nat} {arg : Buf n} {r : IoctlGetRet n} :
    Accepted fd req ok ⟨.ioctlGet fd' req' arg, r⟩ ↔
      fd' = fd ∧ req' = req ∧ ok n arg ∧ r.ret ≠ -1 := Iff.rfl

/-- A message is no request. -/
theorem not_accepted_of_log {level : Level} {msg : CString} :
    ¬ ∃ e ∈ [(⟨.log level msg, ()⟩ : Event Call Resp)], Accepted fd req ok e := by
  intro h
  obtain ⟨e, he, hacc⟩ := h
  obtain rfl := List.mem_singleton.mp he
  exact hacc

end Accepted

section Honest

variable {libc : Libc} {dev d : Device} {op : Op} {tr : List (Event Call Resp)}

@[simp] theorem honest_failed : Honest libc dev op tr (back (-1, d)) := by
  exact Or.inr (Int.negSucc_lt_zero 0)

@[simp] theorem honest_done : Honest libc dev op tr (back (0, d)) ↔ op.Carried libc dev d tr := by
  simp [Honest, back]

@[simp] theorem honest_keep {n : Int} :
    Honest libc dev op tr (keep d (.int n)) ↔ Honest libc dev op tr (back (n, d)) := Iff.rfl

end Honest

/-! ## The functions one by one -/

section Started

variable {libc : Libc} {dev : Device}

theorem setMtu_honest (mtu : BitVec 32) (hdev : dev.tunFd ≠ -1) :
    ((Op.setMtu mtu).prog .linux libc dev).Ensures (Honest libc dev (.setMtu mtu)) := by
  simp only [Op.prog, tuntapSetMtu, hdev, if_false]
  simp
  intro r hr
  refine ⟨_, List.mem_cons_self .., rfl, rfl, ?_, hr⟩
  exact ⟨(names_ifreqNamed .linux).of_eq (ifrName_setIfrInt ..), ifrInt_setIfrInt _ _ (by decide)⟩

theorem setNonblocking_honest (set : BitVec 32) :
    ((Op.setNonblocking set).prog .linux libc dev).Ensures
      (Honest libc dev (.setNonblocking set)) := by
  simp only [Op.prog, tuntapSetNonblocking]
  simp
  intro r hr
  refine ⟨_, List.mem_cons_self .., rfl, rfl, ?_, hr⟩
  simp

theorem up_honest : (Op.up.prog .linux libc dev).Ensures (Honest libc dev .up) := by
  simp only [Op.prog, tuntapUp, setFlags]
  simp
  intro r hr
  refine ⟨_, List.mem_cons_self .., rfl, rfl, ?_, hr⟩
  refine ⟨(names_ifreqNamed .linux).of_eq (ifrName_setIfrFlags ..), ?_⟩
  rw [ifrFlags_setIfrFlags _ _ (by decide)]
  exact or_iffUp_and_iffUp _

theorem down_honest : (Op.down.prog .linux libc dev).Ensures (Honest libc dev .down) := by
  simp only [Op.prog, tuntapDown, setFlags]
  simp
  intro r hr
  refine ⟨_, List.mem_cons_self .., rfl, rfl, ?_, hr⟩
  refine ⟨(names_ifreqNamed .linux).of_eq (ifrName_setIfrFlags ..), ?_⟩
  rw [ifrFlags_setIfrFlags _ _ (by decide)]
  exact and_not_iffUp_and_iffUp _

theorem setIfname_honest (ifname : Option CString) :
    ((Op.setIfname ifname).prog .linux libc dev).Ensures
      (Honest libc dev (.setIfname ifname)) := by
  cases ifname with
  | none => simp [Op.prog, tuntapSetIfname]
  | some ifname =>
      simp only [Op.prog, tuntapSetIfname, tuntapSysSetIfname, Linux.tuntapSysSetIfname]
      simp
      intro hlen r hr
      refine ⟨_, List.mem_cons_self .., rfl, rfl, ?_, hr⟩
      exact ⟨names_renaming ifname _, congrArg some (ifrNewname_renaming hlen).symm⟩

/-- The request for a link-layer address. -/
theorem tuntapSysSetHwaddr_ensures (ethAddr : Buf 6) :
    (Linux.tuntapSysSetHwaddr dev ethAddr).Ensures fun tr n => n = -1 ∨ n = 0 ∧
      ∃ e ∈ tr, Accepted dev.ctrlSock .siocsifhwaddr
        (fun n arg => Names dev n arg ∧ ifrHwaddr arg = ethAddr) e := by
  unfold Linux.tuntapSysSetHwaddr
  simp only [Prog.ensures_call_bind, Prog.ensures_ite, Prog.pure_eq, Prog.ensures_ret]
  intro r
  refine ⟨fun _ _ => Or.inl trivial, fun hr => Or.inr ⟨trivial, ?_⟩⟩
  refine ⟨_, List.mem_cons_self .., rfl, rfl, ⟨?_, ?_⟩, hr⟩
  · exact (names_linux.memcpy (by decide)).memcpy (by decide)
  · exact Buf.slice_memcpy_same _ _ _ (by decide)

theorem setHwaddrTo_ensures (libc : Libc) {hwaddr : CString} {ethAddr : Buf 6}
    (h : hwaddr = CString.lit "random" ∨ libc.etherAton hwaddr = some ethAddr)
    (tr₀ : List (Event Call Resp)) :
    (setHwaddrTo .linux dev ethAddr).Ensures fun tr r =>
      Honest libc dev (.setHwaddr hwaddr) (tr₀ ++ tr) (back r) := by
  refine (tuntapSysSetHwaddr_ensures ethAddr).bind fun tr n hn => ?_
  cases hn with
  | inl hn =>
      rw [if_pos hn]
      exact honest_failed
  | inr hn =>
      obtain ⟨rfl, e, he, hacc⟩ := hn
      refine honest_done.mpr ⟨h, e, ?_, hacc⟩
      rw [List.append_nil]
      exact List.mem_append_right _ he

theorem setHwaddr_honest (hwaddr : CString) :
    ((Op.setHwaddr hwaddr).prog .linux libc dev).Ensures
      (Honest libc dev (.setHwaddr hwaddr)) := by
  simp only [Op.prog, tuntapSetHwaddr]
  by_cases hr : hwaddr = CString.lit "random"
  · simp only [if_pos hr, Prog.bind_assoc]
    refine (Prog.ensures_true randomHwaddr).bind fun tr₀ ethAddr _ => ?_
    refine (setHwaddrTo_ensures libc (Or.inl hr) tr₀).bind fun tr r h => ?_
    simpa using h
  · simp only [if_neg hr]
    cases haton : libc.etherAton hwaddr with
    | none => exact honest_failed
    | some ethAddr =>
        refine (setHwaddrTo_ensures libc (Or.inr haton) []).bind fun tr r h => ?_
        simpa using h

/-! ## Addresses -/

theorem SentIpv4.of_subset {s4 bits : Buf 4} {tr tr' : List (Event Call Resp)}
    (h : SentIpv4 dev s4 bits tr) (hsub : ∀ e ∈ tr, e ∈ tr') : SentIpv4 dev s4 bits tr' := by
  obtain ⟨⟨e, he, hacc⟩, ⟨e', he', hacc'⟩⟩ := h
  exact ⟨⟨e, hsub e he, hacc⟩, ⟨e', hsub e' he', hacc'⟩⟩

theorem sentIpv4 {a m : Ifreq} {ra rm : IoctlRet} (ha : Names dev 40 a) (hm : Names dev 40 m)
    (hra : ra.ret ≠ -1) (hrm : rm.ret ≠ -1) : SentIpv4 dev (ifrInAddr a) (ifrInAddr m)
      [⟨.ioctl dev.ctrlSock .siocsifaddr a, ra⟩, ⟨.ioctl dev.ctrlSock .siocsifnetmask m, rm⟩] := by
  refine ⟨⟨_, List.mem_cons_self .., rfl, rfl, ⟨ha, rfl⟩, hra⟩, ?_⟩
  exact ⟨_, List.mem_cons_of_mem _ (List.mem_cons_self ..), rfl, rfl, ⟨hm, rfl⟩, hrm⟩

/-- The mask is computed with nothing asked of the kernel, and up to 32 it is right. -/
theorem netmaskWord_granted {netmask : Int} (h0 : 0 ≤ netmask) :
    (netmaskWord netmask).Ensures fun tr w => (∀ e ∈ tr, Granted e) ∧
      (netmask ≤ 32 → IsPrefixMask (networkWord (Buf.store32 w)) netmask) := by
  by_cases h32 : netmask ≤ 32
  · refine (netmaskWord_ensures h0 h32).mono fun tr w hw => ?_
    obtain ⟨rfl, hmask⟩ := hw
    exact ⟨fun e he => absurd he List.not_mem_nil, fun _ => hmask⟩
  · unfold netmaskWord shiftRight
    rw [if_neg (by omega), if_pos (by omega)]
    intro w
    refine ⟨fun e he => ?_, fun h => absurd h h32⟩
    obtain rfl := List.mem_singleton.mp he
    trivial

theorem carriedIpv6 {fd rc : Int} {s6 : Buf 16} {prefixLen : BitVec 32} {i : Ifreq}
    {ri : IoctlGetRet 40} {rd ra : IoctlRet} (hi : Names dev 40 i) (hfd : fd ≠ -1)
    (hri : ri.ret ≠ -1) (hra : ra.ret ≠ -1) : CarriedIpv6 dev (s6, prefixLen)
      [⟨.socket .inet6, fd⟩, ⟨.ioctlGet dev.ctrlSock .siocgifindex i, ri⟩,
        ⟨.ioctl fd .siocdifaddr (in6Cleared (ifrInt ri.arg)), rd⟩,
        ⟨.ioctl fd .siocsifaddr (in6Filled s6 prefixLen (ifrInt ri.arg)), ra⟩,
        ⟨.close fd, rc⟩] := by
  refine ⟨fd, (ifrInt ri.arg).toNat, ⟨_, List.mem_cons_self .., rfl, rfl, hfd⟩, ?_, ?_⟩
  · exact ⟨_, List.mem_cons_of_mem _ (List.mem_cons_self ..), rfl, hi, hri, rfl⟩
  · refine ⟨_, List.mem_cons_of_mem _ (List.mem_cons_of_mem _ (List.mem_cons_of_mem _
      (List.mem_cons_self ..))), rfl, rfl, ⟨inet6Named_request _ _ _, ?_⟩, hra⟩
    exact (indexNamed_request _ _ _).trans (indexNamed_index _)

/-- An IPv4 address, whatever the length: the answer tells whether the two requests
were granted, and up to 32 they are the right ones. -/
theorem setIp_ipv4_ensures {addr : CString} {s4 : Buf 4} {netmask : Int} (hdev : dev.tunFd ≠ -1)
    (hpton4 : libc.inetPton4 addr = some s4) (hrange : ¬ (netmask < 0 ∨ netmask > 128)) :
    ((Op.setIp (some addr) netmask).prog .linux libc dev).Ensures fun tr r =>
      r = keep dev (.int (-1)) ∧ (∃ e ∈ tr, ¬ Granted e) ∨
        r = keep dev (.int 0) ∧ (∀ e ∈ tr, Granted e) ∧
          ∃ bits, (netmask ≤ 32 → IsPrefixMask (networkWord bits) netmask) ∧
            SentIpv4 dev s4 bits tr := by
  simp only [Op.prog, tuntapSetIp, if_neg hdev, if_neg hrange, hpton4, Prog.bind_assoc]
  refine (netmaskWord_granted (by omega)).bind fun tr₀ mask hmask => ?_
  refine (tuntapSysSetIpv4_ensures dev s4 mask).bind fun tr n hn => ?_
  have hsub : ∀ e ∈ tr, e ∈ tr₀ ++ (tr ++ []) := fun e he => by
    rw [List.append_nil]
    exact List.mem_append_right _ he
  rcases hn with ⟨rfl, e, he, hno⟩ | ⟨rfl, a, m, ra, rm, hra, hrm, ha, rfl, hm, hbits, rfl⟩
  · exact Or.inl ⟨rfl, e, hsub e he, fun h => hno h.complied⟩
  · rw [← hbits] at hmask
    refine Or.inr ⟨rfl, fun e he => ?_, _, hmask.2, (sentIpv4 ha hm hra hrm).of_subset hsub⟩
    simp only [List.append_nil, List.mem_append, List.mem_cons, List.not_mem_nil, or_false] at he
    rcases he with he | rfl | rfl
    · exact hmask.1 e he
    · exact hra
    · exact hrm

theorem setIp_honest (addr : Option CString) (netmask : Int) (hdev : dev.tunFd ≠ -1)
    (hmask : ¬ (Op.setIp addr netmask).Misasks libc) :
    ((Op.setIp addr netmask).prog .linux libc dev).Ensures
      (Honest libc dev (.setIp addr netmask)) := by
  have hfail : ∀ {tr}, Honest libc dev (.setIp addr netmask) tr (keep dev (.int (-1))) :=
    honest_keep.mpr honest_failed
  cases addr with
  | none =>
      simp only [Op.prog, tuntapSetIp, if_neg hdev]
      exact fun _ => hfail
  | some addr =>
      by_cases hrange : netmask < 0 ∨ netmask > 128
      · simp only [Op.prog, tuntapSetIp, if_neg hdev, if_pos hrange]
        exact fun _ => hfail
      cases hpton4 : libc.inetPton4 addr with
      | some s4 =>
          have h32 : netmask ≤ 32 := by
            by_contra hlong
            exact hmask ⟨⟨s4, hpton4⟩, by omega, by omega⟩
          refine (setIp_ipv4_ensures hdev hpton4 hrange).mono fun tr r hr => ?_
          rcases hr with ⟨rfl, -⟩ | ⟨rfl, -, bits, hbits, hsent⟩
          · exact hfail
          · exact honest_keep.mpr (honest_done.mpr
              (Or.inl ⟨s4, hpton4, by omega, h32, bits, hbits h32, hsent⟩))
      | none =>
          simp only [Op.prog, tuntapSetIp, if_neg hdev, if_neg hrange, hpton4]
          cases hpton6 : libc.inetPton6 addr with
          | some s6 =>
              refine (tuntapSysSetIpv6_ensures dev s6 (BitVec.ofInt 32 netmask)).bind
                fun tr n hn => ?_
              rcases hn with ⟨rfl, -⟩ | ⟨rfl, fd, rc, i, ri, rd, ra, hfd, hri, hra, hi, rfl⟩
              · exact hfail
              · exact honest_keep.mpr (honest_done.mpr
                  (Or.inr ⟨s6, hpton6, carriedIpv6 hi hfd hri hra⟩))
          | none => exact fun _ => hfail

/-! ## What is not asked for -/

/-- No socket is opened for an IPv4 address. -/
theorem setIp_ipv4_noSocket {addr : CString} {s4 : Buf 4} {netmask : Int}
    (hpton4 : libc.inetPton4 addr = some s4) :
    ((Op.setIp (some addr) netmask).prog .linux libc dev).AllCalls fun c =>
      ∀ domain, c ≠ .socket domain := by
  simp [Op.prog, tuntapSetIp, hpton4, netmaskWord, shiftRight, tuntapSysSetIpv4,
    Linux.tuntapSysSetIpv4]

/-- What is passed is the address of the argument, never the argument. -/
theorem setDebug_noVal (set : BitVec 32) :
    ((Op.setDebug set).prog .linux libc dev).AllCalls fun c =>
      ∀ fd req val, c ≠ .ioctlVal fd req val := by
  simp [Op.prog, tuntapSetDebug]

theorem Op.Misasks.not_carried {op : Op} (hask : op.Misasks libc) {tr : List (Event Call Resp)}
    {r : Ret × Option Device} (hr : (op.prog .linux libc dev).Runs tr r) {d : Device} :
    ¬ op.Carried libc dev d tr := by
  intro hcarried
  cases op with
  | setDebug set =>
      obtain ⟨⟨c, r⟩, he, hacc⟩ := hcarried
      have hnone := (setDebug_noVal set).of_runs hr _ he
      cases c with
      | ioctlVal fd req val => exact hnone fd req val rfl
      | _ => exact hacc
  | setIp addr netmask =>
      obtain ⟨⟨s4, hs4⟩, h32, -⟩ := hask
      obtain ⟨addr, rfl, hpton4⟩ := Option.bind_eq_some_iff.mp hs4
      rcases hcarried with ⟨-, -, -, hle, -⟩ | ⟨s6, -, fd, index, ⟨⟨c, r⟩, he, hopened⟩, -⟩
      · omega
      · have hnone := (setIp_ipv4_noSocket hpton4).of_runs hr _ he
        cases c with
        | socket domain => exact hnone domain rfl
        | _ => exact hopened
  | _ => exact hask

/-- On a started device both answer -1 when a request was refused, and 0 otherwise. -/
theorem Op.Misasks.answers {op : Op} (hask : op.Misasks libc) (hdev : dev.tunFd ≠ -1) :
    (op.prog .linux libc dev).Ensures fun tr r =>
      r = keep dev (.int (-1)) ∧ (∃ e ∈ tr, ¬ Granted e) ∨
        r = keep dev (.int 0) ∧ ∀ e ∈ tr, Granted e := by
  cases op with
  | setDebug set =>
      refine Prog.Ensures.bind (Q := fun tr n => n = -1 ∧ (∃ e ∈ tr, ¬ Granted e) ∨
        n = 0 ∧ ∀ e ∈ tr, Granted e) ?_ fun tr n hn => ?_
      · unfold tuntapSetDebug
        simp only [if_neg hdev, reduceCtorEq, if_false, Prog.ensures_call_bind, Prog.ensures_ite,
          Prog.pure_eq, Prog.ensures_ret]
        intro r
        refine ⟨fun hr => ?_, fun hr => Or.inr ⟨trivial, fun e he => ?_⟩⟩
        · have hrefused : ¬ Granted ⟨.ioctl dev.tunFd .tunsdebug (Buf.store32 set), r⟩ :=
            fun h => h hr
          refine ⟨fun _ _ => ?_, fun _ => ⟨fun _ _ => ?_, fun _ _ => ?_⟩⟩
          · exact Or.inl ⟨trivial, _, List.mem_cons_self .., hrefused⟩
          · exact Or.inl ⟨trivial, _, List.mem_cons_self .., hrefused⟩
          · exact Or.inl ⟨trivial, _, List.mem_cons_self .., hrefused⟩
        · obtain rfl := List.mem_singleton.mp he
          exact hr
      · show _ ∧ (∃ e ∈ tr ++ [], ¬ Granted e) ∨ _ ∧ ∀ e ∈ tr ++ [], Granted e
        rw [List.append_nil]
        exact hn.imp (fun h => ⟨by rw [h.1], h.2⟩) fun h => ⟨by rw [h.1], h.2⟩
  | setIp addr netmask =>
      obtain ⟨⟨s4, hs4⟩, h32, h128⟩ := hask
      obtain ⟨addr, rfl, hpton4⟩ := Option.bind_eq_some_iff.mp hs4
      exact (setIp_ipv4_ensures hdev hpton4 (by omega)).mono fun tr r hr =>
        hr.imp id fun h => ⟨h.1, h.2.1⟩
  | _ => exact hask.elim

end Started

/-- A function that returns early issues nothing on a device that is not
started, and answers 0. -/
theorem returnsEarly_runs {libc : Libc} {dev : Device} {op : Op} (hop : op.ReturnsEarly)
    (hdev : dev.tunFd = -1) :
    (op.prog .linux libc dev).Ensures fun tr r =>
      r = keep dev (.int 0) ∧ tr = [⟨.log .notice (CString.lit "Device is not started"), ()⟩] := by
  cases op with
  | setIp | setMtu | setDebug =>
      simp only [Op.prog, tuntapSetIp, tuntapSetMtu, tuntapSetDebug, hdev, if_true]
      exact fun _ => ⟨rfl, rfl⟩
  | _ => exact hop.elim

/-- Off the early return a function that asks for the change is honest, on every
device. -/
theorem Op.honest_of_not_early {libc : Libc} {dev : Device} {op : Op} (hop : op.Sets)
    (hearly : dev.tunFd = -1 → ¬ op.ReturnsEarly) (hask : ¬ op.Misasks libc) :
    (op.prog .linux libc dev).Ensures (Honest libc dev op) := by
  have hdev : op.ReturnsEarly → dev.tunFd ≠ -1 := fun h hne => hearly hne h
  cases op with
  | setIp addr netmask => exact setIp_honest addr netmask (hdev trivial) hask
  | setMtu mtu => exact setMtu_honest mtu (hdev trivial)
  | setDebug set => exact absurd trivial hask
  | setNonblocking set => exact setNonblocking_honest set
  | setIfname ifname => exact setIfname_honest ifname
  | setHwaddr hwaddr => exact setHwaddr_honest hwaddr
  | up => exact up_honest
  | down => exact down_honest
  | _ => exact hop.elim

/-- One that asks for something else is honest when it is refused. -/
theorem Op.Misasks.honest_iff {libc : Libc} {dev : Device} {op : Op} (hask : op.Misasks libc)
    (hdev : dev.tunFd ≠ -1) {tr : List (Event Call Resp)} {r : Ret × Option Device}
    (hr : (op.prog .linux libc dev).Runs tr r) :
    Honest libc dev op tr r ↔ ∃ e ∈ tr, ¬ Granted e := by
  rcases (Prog.ensures_iff _).mp (hask.answers hdev) tr r hr with ⟨rfl, hno⟩ | ⟨rfl, hg⟩
  · exact iff_of_true (honest_keep.mpr honest_failed) hno
  · refine iff_of_false (fun h => ?_) fun ⟨e, he, hno⟩ => hno (hg e he)
    exact hask.not_carried hr (honest_done.mp (honest_keep.mp h))

theorem Op.Misasks.returnsEarly {libc : Libc} {op : Op} (h : op.Misasks libc) :
    op.ReturnsEarly := by
  cases op with
  | setIp | setDebug => trivial
  | _ => exact h.elim

/-- The early return is a zero for nothing. -/
theorem not_honest_of_early {libc : Libc} {dev : Device} {op : Op} (hdev : dev.tunFd = -1)
    (hearly : op.ReturnsEarly) {tr : List (Event Call Resp)} {r : Ret × Option Device}
    (hr : (op.prog .linux libc dev).Runs tr r) : ¬ Honest libc dev op tr r := by
  intro hhonest
  obtain ⟨rfl, rfl⟩ := (Prog.ensures_iff _).mp (returnsEarly_runs hearly hdev) tr r hr
  have hcarried := honest_done.mp (honest_keep.mp hhonest)
  cases op with
  | setIp =>
      rcases hcarried with ⟨s4, -, -, -, bits, -, haddr, -⟩ | ⟨s6, -, fd, index, -, -, haddr⟩
      · exact not_accepted_of_log haddr
      · exact not_accepted_of_log haddr
  | setMtu => exact not_accepted_of_log hcarried
  | setDebug =>
      obtain ⟨e, he, hacc⟩ := hcarried
      obtain rfl := List.mem_singleton.mp he
      exact hacc
  | _ => exact hearly.elim

/-- Whatever the kernel answers, the answer of a call is honest exactly when the
call is not the early return of a device that is not started and, should it ask
for something else than the change, the kernel refuses one of its requests. -/
theorem answer_honest_iff (libc : Libc) (dev : Device) (op : Op) (hop : op.Sets)
    (tr : List (Event Call Resp)) (r : Ret × Option Device)
    (hr : (op.prog .linux libc dev).Runs tr r) :
    Honest libc dev op tr r ↔
      (dev.tunFd = -1 → ¬ op.ReturnsEarly) ∧ (op.Misasks libc → ∃ e ∈ tr, ¬ Granted e) := by
  constructor
  · intro hhonest
    have hearly : dev.tunFd = -1 → ¬ op.ReturnsEarly := fun hdev hop =>
      not_honest_of_early hdev hop hr hhonest
    refine ⟨hearly, fun hask => ?_⟩
    have hdev : dev.tunFd ≠ -1 := fun hdev => hearly hdev hask.returnsEarly
    exact (hask.honest_iff hdev hr).mp hhonest
  · rintro ⟨hearly, hrefused⟩
    by_cases hask : op.Misasks libc
    · have hdev : dev.tunFd ≠ -1 := fun hdev => hearly hdev hask.returnsEarly
      exact (hask.honest_iff hdev hr).mpr (hrefused hask)
    · exact (Prog.ensures_iff _).mp (Op.honest_of_not_early hop hearly hask) tr r hr

/-- `SIOCSIFMTU` is refused. -/
def refusedMtu : List (Event Call Resp) :=
  [⟨.ioctl 3 .siocsifmtu (setIfrInt (ifreqNamed .linux Device.running) 1400), ⟨-1, .other⟩⟩,
    ⟨.log .err (CString.lit "Can't set MTU"), ()⟩]

/-- The MTU of a started device is refused, and the call says so. -/
theorem refused_mtu_honest :
    Honest Libc.refusing Device.running (.setMtu 1400) refusedMtu
        (keep Device.running (.int (-1))) ↔
      (Device.running.tunFd = -1 → ¬ (Op.setMtu 1400).ReturnsEarly) ∧
        ((Op.setMtu 1400).Misasks Libc.refusing → ∃ e ∈ refusedMtu, ¬ Granted e) := by
  refine answer_honest_iff _ Device.running (.setMtu 1400) trivial _ _ ?_
  exact ⟨_, _, rfl, _, _, rfl, rfl, rfl⟩

/-- The MTU of a device never started is set to 1400: nothing is asked of the
kernel, and the answer is 0. -/
theorem mtu_not_carried :
    ¬ ∀ (libc : Libc) (dev : Device) (op : Op) (tr : List (Event Call Resp))
      (r : Ret × Option Device), op.Sets → (op.prog .linux libc dev).Runs tr r →
        Honest libc dev op tr r := by
  intro hclaim
  have h := hclaim Libc.refusing Device.init (.setMtu 1400) _ _ trivial ⟨(), _, rfl, rfl, rfl⟩
  exact not_accepted_of_log (honest_done.mp (honest_keep.mp h))

end Libtuntap
