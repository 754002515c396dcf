import Libtuntap.Effect.Run
import Libtuntap.Effect.Trace
import Libtuntap.Proofs.Started

/-!
# The copy of `if_name` into a request

`if_name` has 17 bytes and `ifr_name` has 16. The Linux back end copies
`sizeof dev->if_name` bytes, so every request gets the last byte of the record's
copy as the first byte of its payload. Two of the requests have nothing else
written there, the queries of the MTU and of the index, and they are right only
because that byte is always zero.

No function says so, but none can change it. `tuntap_init` clears all 17 bytes,
`tuntap_sys_start` copies 16 over them, and `tuntap_set_ifname` refuses a name of
more than 16 characters. With the byte known, a request is its two parts side by
side (`request`), and a field that is set afterwards is set in the payload.
-/

namespace Libtuntap

open Effect CMem

/-- The last byte of the copy is zero, so the copy is a string. -/
def Terminated (dev : Device) : Prop := dev.ifName.byte 16 = 0

/-- A step of a client: a call of the API, on whatever replies, that leaves the
device. -/
def Device.Step (libc : Libc) (dev : Device) (op : Op) (dev' : Device) : Prop :=
  ∃ tr ret, (op.prog .linux libc dev).Runs tr (ret, some dev')

/-- What a client can have: the device of `tuntap_init`, after any calls. -/
def Device.Reachable (libc : Libc) (dev : Device) : Prop :=
  ∃ tr dev₀ steps, tuntapInit.Runs tr (some dev₀) ∧ Run (Device.Step libc) dev₀ steps dev

/-! ## The last byte -/

section Terminator

variable {libc : Libc} {dev : Device}

theorem Terminated.memcpy (h : Terminated dev) (ifName : Buf 16) :
    (dev.ifName.memcpy 0 ifName 16).byte 16 = 0 := by
  rw [Buf.byte_memcpy, if_neg (by omega)]
  exact h

theorem Terminated.strncpy (h : Terminated dev) (ifname : CString) {len : Nat}
    (hlen : len ≤ ifNamesize) :
    ((dev.ifName.memset 0 0 ifNamesize).strncpy 0 ifname len).byte 16 = 0 := by
  have h16 : ifNamesize = 16 := rfl
  rw [Buf.byte_strncpy, if_neg (by omega), Buf.byte_memset, if_neg (by omega)]
  exact h

theorem tuntapSysStart_terminated (h : Terminated dev) (mode : Mode) (tun : Int) :
    (Linux.tuntapSysStart dev mode tun).Answers fun r => Terminated r.2 := by
  have hcopy := h.memcpy
  unfold Terminated at h ⊢
  simp [Linux.tuntapSysStart, Linux.setPersistent, h, hcopy]

theorem startClean_terminated (h : Terminated dev) (fd sock : Int) :
    (startClean fd sock dev).Answers fun r => Terminated r.2 := by
  simp [startClean, h]

theorem tuntapStart_terminated (h : Terminated dev) (mode : Mode) (tun : Int) :
    (tuntapStart .linux dev mode tun).Answers fun r => Terminated r.2 := by
  have hsock : ∀ sock : Int, Terminated { dev with ctrlSock := sock } := fun _ => h
  unfold tuntapStart
  simp only [Prog.answers_ite, Prog.answers_call_bind]
  refine ⟨fun _ _ => h, fun _ sock => ⟨fun _ => startClean_terminated h _ _, fun _ => ?_⟩⟩
  refine ⟨fun _ => startClean_terminated (hsock sock) _ _, fun _ => ?_⟩
  refine (tuntapSysStart_terminated (hsock sock) mode tun).bind fun r hr => ?_
  rw [Prog.answers_ite]
  exact ⟨fun _ => startClean_terminated hr _ _, fun _ => hr⟩

theorem tuntapSetIfname_terminated (h : Terminated dev) (ifname : Option CString) :
    (tuntapSetIfname .linux dev ifname).Answers fun r => Terminated r.2 := by
  cases ifname with
  | none => exact fun _ => h
  | some ifname =>
      unfold tuntapSetIfname
      rw [Prog.answers_ite]
      refine ⟨fun _ _ => h, fun hlen => ?_⟩
      have hname := h.strncpy ifname (Nat.not_lt.mp hlen)
      simp only [tuntapSysSetIfname, Linux.tuntapSysSetIfname, Prog.bind_assoc, Prog.ite_bind,
        Prog.pure_eq, Prog.ret_bind, Prog.answers_call_bind, Prog.answers_ite, Prog.answers_ret]
      exact fun r => ⟨fun _ _ => ⟨fun _ => h, fun _ => hname⟩,
        fun _ => ⟨fun _ => h, fun _ => hname⟩⟩

def ComesTerminated (r : Ret × Option Device) : Prop := ∀ d, r.2 = some d → Terminated d

theorem back_terminated {p : Sys (Int × Device)} (hp : p.Answers fun r => Terminated r.2) :
    (p >>= fun r => Prog.ret (back r)).Answers ComesTerminated := by
  refine hp.bind fun r hr d hd => ?_
  have hdev : r.2 = d := Option.some.inj hd
  exact hdev ▸ hr

theorem gone_terminated {p : Sys Unit} :
    (p >>= fun _ => Prog.ret (Ret.void, none)).Answers ComesTerminated := by
  refine (Prog.answers_of_forall (fun _ => trivial) p).bind fun _ _ d hd => ?_
  cases hd

theorem Op.prog_terminated (h : Terminated dev) (op : Op) :
    (op.prog .linux libc dev).Answers ComesTerminated := by
  by_cases hends : op.StartsOrEnds
  · cases op with
    | start mode tun => exact back_terminated (tuntapStart_terminated h mode tun)
    | release => exact gone_terminated
    | destroy => exact gone_terminated
    | _ => cases hends
  · by_cases hname : .name ∈ op.writes
    · obtain ⟨ifname, rfl⟩ := Op.name_mem_writes hname
      exact back_terminated (tuntapSetIfname_terminated h ifname)
    · refine (op.record hends).mono fun r hr d hd => ?_
      obtain ⟨d', hd', hframe⟩ := hr
      have hdev : d = d' := Option.some.inj (hd.symm.trans hd')
      unfold Terminated
      rw [hdev, hframe.name hname]
      exact h

theorem Device.Reachable.terminated (h : Device.Reachable libc dev) : Terminated dev := by
  obtain ⟨tr, dev₀, steps, hinit, hrun⟩ := h
  have hcleared : tuntapInit.Answers fun o => ∀ d, o = some d → Terminated d := by
    simp [tuntapInit, Terminated, Device.init]
  refine (hrun.invariant (hcleared.of_runs hinit dev₀ rfl) fun x _ hstep hx => ?_).1
  obtain ⟨tr', ret, hruns⟩ := hstep
  exact (Op.prog_terminated hx x.2.1).of_runs hruns _ rfl

end Terminator

/-! ## Requests -/

/-- The name of a device beside a payload. -/
def request (dev : Device) (payload : Buf 24) : Ifreq := fun i =>
  if i < 16 then dev.ifName.byte i else payload.byte (i - 16)

/-- `ifr_flags`. -/
def flagsPayload (flags : BitVec 16) : Buf 24 := Buf.zero.memcpy 0 (Buf.store16 flags) 2

/-- `ifr_mtu`. -/
def mtuPayload (mtu : BitVec 32) : Buf 24 := Buf.zero.memcpy 0 (Buf.store32 mtu) 4

/-- `ifr_hwaddr`: the type and the address. -/
def hwaddrPayload (ethAddr : Buf 6) : Buf 24 :=
  (Buf.zero.memcpy 0 (Buf.store16 arphrdEther) 2).memcpy 2 ethAddr 6

/-- `ifr_addr` and `ifr_netmask`: a `struct sockaddr_in`. -/
def inetPayload (addr : Buf 4) : Buf 24 := Buf.zero.memcpy 0 (sockaddrIn addr) 16

/-- `struct in6_ifreq`, which has no name. -/
def in6Request (s6 : Buf 16) (prefixLen index : BitVec 32) : In6Ifreq :=
  ((Buf.zero.memcpy 0 s6 16).memcpy 16 (Buf.store32 prefixLen) 4).memcpy 20 (Buf.store32 index) 4

section Request

variable {dev : Device} {payload : Buf 24} {m : Nat}

theorem byte_request (dev : Device) (payload : Buf 24) (i : Nat) :
    (request dev payload).byte i =
      if i < 16 then dev.ifName.byte i else payload.byte (i - 16) := by
  by_cases h : i < 40
  · rw [Buf.byte_of_lt h]
    rfl
  · rw [Buf.byte_of_le (by omega), if_neg (by omega), Buf.byte_of_le (by omega)]

/-- The copy of 17 bytes is the name and nothing else. -/
theorem ifreqNamed_eq (h : Terminated dev) : Linux.ifreqNamed dev = request dev Buf.zero := by
  refine Buf.ext_byte fun i hi => ?_
  unfold Linux.ifreqNamed
  rw [Buf.byte_memcpy, byte_request, Buf.byte_zero, Buf.byte_zero, Nat.sub_zero]
  by_cases hname : i < 16
  · rw [if_pos (by omega), if_pos hname]
  · rw [if_neg hname]
    by_cases hlast : i = 16
    · rw [if_pos (by omega), hlast]
      exact h
    · rw [if_neg (by omega)]

/-- What is copied behind the name is copied into the payload. -/
theorem request_memcpy (off : Nat) (src : Buf m) (len : Nat) :
    (request dev payload).memcpy (16 + off) src len = request dev (payload.memcpy off src len) := by
  refine Buf.ext_byte fun i hi => ?_
  rw [Buf.byte_memcpy, byte_request, byte_request, Buf.byte_memcpy]
  by_cases hname : i < 16
  · rw [if_neg (by omega), if_pos hname, if_pos hname]
  · by_cases hin : 16 + off ≤ i ∧ i < 16 + off + len
    · rw [if_pos (by omega), if_neg hname, if_pos (by omega), Nat.sub_add_eq]
    · rw [if_neg (by omega), if_neg hname, if_neg hname, if_neg (by omega)]

theorem request_memset (off : Nat) (v : UInt8) (len : Nat) :
    (request dev payload).memset (16 + off) v len = request dev (payload.memset off v len) := by
  refine Buf.ext_byte fun i hi => ?_
  rw [Buf.byte_memset, byte_request, byte_request, Buf.byte_memset]
  by_cases hname : i < 16
  · rw [if_neg (by omega), if_pos hname, if_pos hname]
  · by_cases hin : 16 + off ≤ i ∧ i < 16 + off + len
    · rw [if_pos (by omega), if_neg hname, if_pos (by omega)]
    · rw [if_neg (by omega), if_neg hname, if_neg hname, if_neg (by omega)]

/-- The address is written first and its family behind. -/
theorem inetPayload_eq (addr : Buf 4) :
    (Buf.zero.memcpy 4 addr 4).memcpy 0 (Buf.store16 afInet) 2 = inetPayload addr := by
  refine Buf.ext_byte fun i hi => ?_
  unfold inetPayload sockaddrIn
  simp only [Buf.byte_memcpy, Buf.byte_zero, Nat.sub_zero, Nat.zero_le, true_and, Nat.zero_add]
  by_cases hfamily : i < 2
  · rw [if_pos (by omega), if_pos (by omega), if_neg (by omega), if_pos (by omega)]
  · by_cases haddr : 4 ≤ i ∧ i < 8
    · rw [if_neg (by omega), if_pos (by omega), if_pos (by omega), if_pos (by omega)]
    · rw [if_neg (by omega), if_neg (by omega)]
      by_cases hin : i < 16
      · rw [if_pos (by omega), if_neg (by omega), if_neg (by omega)]
      · rw [if_neg (by omega)]

/-- The structure is cleared before the mask is written. -/
theorem maskPayload_eq (addr mask : Buf 4) :
    ((inetPayload addr).memset 0 0 16).memcpy 0 (sockaddrIn mask) 16 = inetPayload mask := by
  refine Buf.ext_byte fun i hi => ?_
  unfold inetPayload
  simp only [Buf.byte_memcpy, Buf.byte_memset, Buf.byte_zero]
  by_cases hin : i < 16
  · rw [if_pos (by omega), if_pos (by omega)]
  · rw [if_neg (by omega), if_neg (by omega), if_neg (by omega), if_neg (by omega)]

theorem in6Request_zero (index : BitVec 32) :
    (Buf.zero : In6Ifreq).memcpy 20 (Buf.store32 index) 4 = in6Request Buf.zero 0 index := by
  have hlen : Buf.store32 0 = Buf.zero := by decide
  refine Buf.ext_byte fun i hi => ?_
  unfold in6Request
  rw [hlen]
  simp only [Buf.byte_memcpy, Buf.byte_zero, ite_self]

theorem in6Request_memcpy (s6 : Buf 16) (prefixLen index : BitVec 32) :
    ((in6Request Buf.zero 0 index).memcpy 16 (Buf.store32 prefixLen) 4).memcpy 0 s6 16 =
      in6Request s6 prefixLen index := by
  refine Buf.ext_byte fun i hi => ?_
  rw [← in6Request_zero]
  unfold in6Request
  simp only [Buf.byte_memcpy, Buf.byte_zero]
  by_cases haddr : i < 16
  · rw [if_pos (by omega), if_neg (by omega), if_neg (by omega), if_pos (by omega)]
  · by_cases hplen : i < 20
    · rw [if_neg (by omega), if_pos (by omega), if_neg (by omega), if_pos (by omega)]
    · rw [if_neg (by omega), if_neg (by omega), if_pos (by omega), if_pos (by omega)]

end Request

/-! ## What the functions hand over -/

def IsIoctl : Call → Prop
  | .ioctl .. | .ioctlVal .. | .ioctlGet .. | .ioctlStr .. | .ioctlGetStr .. => True
  | _ => False

/-- A request of `tuntap_sys_set_ipv6`: the query of the index, or, on the
socket that was opened and with the index that was answered, one of the two that
have no name. -/
def HandedIpv6 (dev : Device) (s6 : Buf 16) (prefixLen : BitVec 32)
    (tr : List (Event Call Resp)) (c : Call) : Prop :=
  c = .ioctlGet dev.ctrlSock .siocgifindex (request dev Buf.zero) ∨
    ∃ (fd : Int) (r : IoctlGetRet 40), ⟨Call.socket .inet6, fd⟩ ∈ tr ∧
      ⟨Call.ioctlGet dev.ctrlSock .siocgifindex (request dev Buf.zero), r⟩ ∈ tr ∧
      (c = .ioctl fd .siocdifaddr (in6Request Buf.zero 0 (ifrInt r.arg)) ∨
        c = .ioctl fd .siocsifaddr (in6Request s6 prefixLen (ifrInt r.arg)))

/-- Every request for a device is its name, 16 bytes of it, beside the payload
that is meant. -/
structure HandsExact (dev : Device) : Prop where
  up : (tuntapUp .linux dev).AllCalls fun c => IsIoctl c → c = .ioctl dev.ctrlSock .siocsifflags
    (request dev (flagsPayload (dev.flags.setWidth 16 ||| iffUp)))
  down : (tuntapDown .linux dev).AllCalls fun c => IsIoctl c →
    c = .ioctl dev.ctrlSock .siocsifflags
      (request dev (flagsPayload (dev.flags.setWidth 16 &&& ~~~iffUp)))
  getMtu : (tuntapGetMtu .linux dev).AllCalls fun c => IsIoctl c →
    c = .ioctlGet dev.ctrlSock .siocgifmtu (request dev Buf.zero)
  setMtu : ∀ mtu, (tuntapSetMtu .linux dev mtu).AllCalls fun c => IsIoctl c →
    c = .ioctl dev.ctrlSock .siocsifmtu (request dev (mtuPayload mtu))
  setHwaddr : ∀ ethAddr, (setHwaddrTo .linux dev ethAddr).AllCalls fun c => IsIoctl c →
    c = .ioctl dev.ctrlSock .siocsifhwaddr (request dev (hwaddrPayload ethAddr))
  setIpv4 : ∀ s4 bits, (tuntapSysSetIpv4 .linux dev s4 bits).AllCalls fun c => IsIoctl c →
    c = .ioctl dev.ctrlSock .siocsifaddr (request dev (inetPayload s4)) ∨
      c = .ioctl dev.ctrlSock .siocsifnetmask (request dev (inetPayload (Buf.store32 bits)))
  setIpv6 : ∀ s6 prefixLen tr n, (tuntapSysSetIpv6 .linux dev s6 prefixLen).Runs tr n →
    ∀ e ∈ tr, IsIoctl e.1 → HandedIpv6 dev s6 prefixLen tr e.1

section Hands

variable {libc : Libc} {dev : Device}

theorem setFlags_exact (h : Terminated dev) (change : BitVec 16 → BitVec 16) :
    (setFlags .linux dev change).AllCalls fun c => IsIoctl c → c =
      .ioctl dev.ctrlSock .siocsifflags
        (request dev (flagsPayload (change (dev.flags.setWidth 16)))) := by
  have hreq : setIfrFlags (Linux.ifreqNamed dev) (change (dev.flags.setWidth 16)) =
      request dev (flagsPayload (change (dev.flags.setWidth 16))) := by
    rw [ifreqNamed_eq h]
    exact request_memcpy 0 _ 2
  unfold setFlags
  rw [Prog.allCalls_call_bind]
  refine ⟨fun _ => congrArg (Call.ioctl dev.ctrlSock .siocsifflags) hreq, fun r => ?_⟩
  simp

theorem tuntapGetMtu_exact (h : Terminated dev) :
    (tuntapGetMtu .linux dev).AllCalls fun c => IsIoctl c →
      c = .ioctlGet dev.ctrlSock .siocgifmtu (request dev Buf.zero) := by
  have hcall : Call.ioctlGet dev.ctrlSock .siocgifmtu (ifreqNamed .linux dev) =
      .ioctlGet dev.ctrlSock .siocgifmtu (request dev Buf.zero) :=
    congrArg (Call.ioctlGet dev.ctrlSock .siocgifmtu) (ifreqNamed_eq h)
  simp [tuntapGetMtu, IsIoctl, hcall]

theorem tuntapSetMtu_exact (h : Terminated dev) (mtu : BitVec 32) :
    (tuntapSetMtu .linux dev mtu).AllCalls fun c => IsIoctl c →
      c = .ioctl dev.ctrlSock .siocsifmtu (request dev (mtuPayload mtu)) := by
  have hreq : setIfrInt (Linux.ifreqNamed dev) mtu = request dev (mtuPayload mtu) := by
    rw [ifreqNamed_eq h]
    exact request_memcpy 0 _ 4
  have hcall : Call.ioctl dev.ctrlSock .siocsifmtu (setIfrInt (ifreqNamed .linux dev) mtu) =
      .ioctl dev.ctrlSock .siocsifmtu (request dev (mtuPayload mtu)) :=
    congrArg (Call.ioctl dev.ctrlSock .siocsifmtu) hreq
  simp [tuntapSetMtu, IsIoctl, hcall]

theorem setHwaddrTo_exact (h : Terminated dev) (ethAddr : Buf 6) :
    (setHwaddrTo .linux dev ethAddr).AllCalls fun c => IsIoctl c →
      c = .ioctl dev.ctrlSock .siocsifhwaddr (request dev (hwaddrPayload ethAddr)) := by
  have hreq : ((Linux.ifreqNamed dev).memcpy 16 (Buf.store16 arphrdEther) 2).memcpy 18 ethAddr 6 =
      request dev (hwaddrPayload ethAddr) := by
    rw [ifreqNamed_eq h]
    exact (congrArg (Buf.memcpy · 18 ethAddr 6) (request_memcpy 0 _ 2)).trans
      (request_memcpy 2 ethAddr 6)
  have hname : Linux.ifreqNamed { dev with hwaddr := ethAddr } = Linux.ifreqNamed dev := rfl
  simp [setHwaddrTo, tuntapSysSetHwaddr, Linux.tuntapSysSetHwaddr, IsIoctl, hname, hreq]

theorem tuntapSysSetIpv4_exact (h : Terminated dev) (s4 : Buf 4) (bits : BitVec 32) :
    (tuntapSysSetIpv4 .linux dev s4 bits).AllCalls fun c => IsIoctl c →
      c = .ioctl dev.ctrlSock .siocsifaddr (request dev (inetPayload s4)) ∨
        c = .ioctl dev.ctrlSock .siocsifnetmask (request dev (inetPayload (Buf.store32 bits))) := by
  have haddr : ((Linux.ifreqNamed dev).memcpy 20 s4 4).memcpy 16 (Buf.store16 afInet) 2 =
      request dev (inetPayload s4) := by
    rw [ifreqNamed_eq h, ← inetPayload_eq]
    exact (congrArg (Buf.memcpy · 16 _ 2) (request_memcpy 4 s4 4)).trans (request_memcpy 0 _ 2)
  have hmask : ((request dev (inetPayload s4)).memset 16 0 16).memcpy 16
      (sockaddrIn (Buf.store32 bits)) 16 = request dev (inetPayload (Buf.store32 bits)) := by
    rw [← maskPayload_eq s4 (Buf.store32 bits)]
    exact (congrArg (Buf.memcpy · 16 _ 16) (request_memset 0 0 16)).trans (request_memcpy 0 _ 16)
  simp [tuntapSysSetIpv4, Linux.tuntapSysSetIpv4, IsIoctl, haddr, hmask]

theorem tuntapSysSetIpv6_exact (h : Terminated dev) (s6 : Buf 16) (prefixLen : BitVec 32)
    (tr : List (Event Call Resp)) (n : Int)
    (hr : (tuntapSysSetIpv6 .linux dev s6 prefixLen).Runs tr n) :
    ∀ e ∈ tr, IsIoctl e.1 → HandedIpv6 dev s6 prefixLen tr e.1 := by
  simp only [tuntapSysSetIpv6, Linux.tuntapSysSetIpv6, ifreqNamed_eq h, in6Request_zero,
    in6Request_memcpy, Prog.runs_call_bind, Prog.runs_ite, Prog.pure_eq, Prog.runs_ret] at hr
  obtain ⟨fd, _, rfl, ⟨-, _, _, rfl, rfl, -⟩ | ⟨-, r, _, rfl, hr⟩⟩ := hr
  · simp [IsIoctl]
  obtain ⟨-, _, _, rfl, _, _, rfl, rfl, -⟩ | ⟨-, _, _, rfl, _, _, rfl, hr⟩ := hr
  · simp [IsIoctl, HandedIpv6]
  have hhanded : ∀ rest c, c = .ioctl fd .siocdifaddr (in6Request Buf.zero 0 (ifrInt r.arg)) ∨
      c = .ioctl fd .siocsifaddr (in6Request s6 prefixLen (ifrInt r.arg)) →
        HandedIpv6 dev s6 prefixLen (⟨Call.socket .inet6, fd⟩ ::
          ⟨Call.ioctlGet dev.ctrlSock .siocgifindex (request dev Buf.zero), r⟩ :: rest) c :=
    fun rest c hc => Or.inr ⟨fd, r, List.mem_cons_self .., List.mem_cons_of_mem _
      (List.mem_cons_self ..), hc⟩
  obtain ⟨-, _, _, rfl, _, _, rfl, rfl, -⟩ | ⟨-, _, _, rfl, rfl, -⟩ := hr
  all_goals
    intro e he hioctl
    simp only [List.mem_cons, List.not_mem_nil, or_false] at he
    rcases he with rfl | rfl | rfl | rfl | rfl | rfl
    · cases hioctl
    · exact Or.inl rfl
    · exact hhanded _ _ (Or.inl rfl)
    · exact hhanded _ _ (Or.inr rfl)
    all_goals cases hioctl

/-- In every state a client can reach, the copy of the name is terminated and
carried into every request unharmed. -/
theorem reachable_hands_exact (h : Device.Reachable libc dev) :
    dev.ifName.byte 16 = 0 ∧ HandsExact dev := by
  have hterm := h.terminated
  refine ⟨hterm, ?_⟩
  exact {
    up := setFlags_exact hterm fun flags => flags ||| iffUp
    down := setFlags_exact hterm fun flags => flags &&& ~~~iffUp
    getMtu := tuntapGetMtu_exact hterm
    setMtu := tuntapSetMtu_exact hterm
    setHwaddr := setHwaddrTo_exact hterm
    setIpv4 := tuntapSysSetIpv4_exact hterm
    setIpv6 := tuntapSysSetIpv6_exact hterm }

end Hands

/-! ## A name of 16 characters -/

def longName : CString := CString.lit "sixteen-bytes-16"

/-- `tap0` after it was given that name. -/
def Device.renamed : Device :=
  { Device.tap0 with ifName := (Device.tap0.ifName.memset 0 0 16).strncpy 0 longName 16 }

theorem renamed_runs : ∃ tr, (tuntapSetIfname .linux Device.tap0 (some longName)).Runs tr
    (0, Device.renamed) := by
  have hlen : ¬ longName.strlen > ifNamesize := by decide
  unfold tuntapSetIfname
  dsimp only
  rw [if_neg hlen]
  exact ⟨_, ⟨0, .other⟩, [], rfl, rfl, rfl⟩

theorem renamed_reachable (libc : Libc) : Device.Reachable libc Device.renamed := by
  obtain ⟨tr, hrenamed⟩ := renamed_runs
  have hstart : Device.Step libc Device.init (.start tuntapModeEthernet 0) Device.tap0 :=
    ⟨startTap0, .int 0, (Prog.runs_bind _ _ _ _).mpr ⟨_, startTap0, [], by simp, startTap0_runs,
      rfl, rfl⟩⟩
  have hname : Device.Step libc Device.tap0 (.setIfname (some longName)) Device.renamed :=
    ⟨tr, .int 0, (Prog.runs_bind _ _ _ _).mpr ⟨_, tr, [], by simp, hrenamed, rfl, rfl⟩⟩
  exact ⟨_, Device.init, _, ⟨true, [], rfl, rfl, rfl⟩, .cons hstart (.cons hname (.nil _))⟩

theorem renamed_hands_exact : Device.renamed.ifName.cstr = longName ∧
    Device.renamed.ifName.byte 16 = 0 ∧ HandsExact Device.renamed :=
  ⟨by decide, reachable_hands_exact (renamed_reachable Libc.refusing)⟩

end Libtuntap
