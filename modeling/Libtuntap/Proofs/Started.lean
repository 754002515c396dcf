import Libtuntap.Proofs.Frame
import Libtuntap.Proofs.Requests

/-!
# A started Linux device and its interface

A successful start leaves three things that hold together: `tun_fd` is attached
to an interface, the control socket is open, and the name in the record is that
of the interface. The first two are about descriptors, which no later call
touches. The third is about two copies of a name, which a rename changes both.
It survives in the form in which the kernel uses it, as the first 15 bytes of
the copy.

What else a start has learned is kept beside it: the framing the mode asked
for, and the link-layer address where the query was granted.
-/

namespace Libtuntap

open Effect CMem

/-- What leaves the name leaves the interface in reach. -/
theorem Kern.Reaches.frame {k k' : Kern} {dev d : Device} {i : Nat} {f : Iface}
    {fields : List Field} (h : k.Reaches dev i f) (hk : k.Frame fields k')
    (hd : dev.Frame fields d) (hname : .name ∉ fields) :
    ∃ f', k'.Reaches d i f' ∧ f.Frame fields f' := by
  obtain ⟨f', hf', hframe⟩ := hk.ifs i f h.iface
  have hsame : f'.name = f.name := hframe .name hname
  refine ⟨f', ⟨?_, hf', ?_⟩, hframe⟩
  · rw [hd.ctrlSock]
    exact hk.fds _ _ h.sock
  · rw [hsame, hd.name hname]
    exact h.name

/-- `tun_fd` is attached to the interface, and the device reaches it. -/
structure Linked (dev : Device) (k : Kern) (i : Nat) (f : Iface) : Prop where
  attached : k.fds dev.tunFd = some (.tun (some i))
  reaches : k.Reaches dev i f

section Linked

variable {dev d : Device} {k k' : Kern} {i j : Nat} {f g : Iface} {fields : List Field}

theorem Linked.unique (h : Linked dev k i f) (ha : k.Attached dev.tunFd j g) :
    i = j ∧ f = g :=
  Kern.Attached.unique ⟨h.attached, h.reaches.iface⟩ ha

theorem Linked.frame (h : Linked dev k i f) (hk : k.Frame fields k') (hd : dev.Frame fields d)
    (hname : .name ∉ fields) : ∃ f', Linked d k' i f' ∧ f.Frame fields f' := by
  obtain ⟨f', hreach, hframe⟩ := h.reaches.frame hk hd hname
  refine ⟨f', ⟨?_, hreach⟩, hframe⟩
  rw [hd.tunFd]
  exact hk.fds _ _ h.attached

/-- Others that keep the name keep the link. -/
theorem Linked.others {kept : List Field} (h : Linked dev k i f)
    (ho : OthersKeep kept dev k k') (hname : .name ∈ kept) :
    ∃ f', Linked dev k' i f' ∧ ∀ field ∈ kept, f.Same f' field := by
  obtain ⟨htun, hsock, hifs⟩ := ho
  obtain ⟨f', hf', hsame⟩ := hifs i f ⟨h.attached, h.reaches.iface⟩
  have hsn : f'.name = f.name := hsame .name hname
  exact ⟨f', ⟨htun.trans h.attached, hsock.trans h.reaches.sock, hf',
    hsn.trans h.reaches.name⟩, hsame⟩

end Linked

/-! ## The start -/

/-- The flags of `TUNSETIFF` for a mode. -/
def Mode.framing (mode : Mode) : BitVec 16 :=
  (if mode.clearPersist = tuntapModeEthernet then iffTap else iffTun) ||| iffNoPi

/-- Of the replies in `A` none refuses a query of the link-layer address. -/
def AddressRead (A : Event Call Resp → Prop) : Prop :=
  ∀ (fd : Int) (n : Nat) (arg : Buf n) (r : IoctlGetRet n),
    A ⟨.ioctlGet fd .siocgifhwaddr arg, r⟩ → r.ret ≠ -1

/-- What a successful start knows of the interface. -/
structure Fresh (A : Event Call Resp → Prop) (mode : Mode) (dev : Device) (f : Iface) :
    Prop where
  name : dev.ifName.cstr = f.name
  framing : f.framing = mode.framing
  hwaddr : mode.clearPersist = tuntapModeEthernet → AddressRead A → dev.hwaddr = f.hwaddr

/-- The answer of `tuntap_sys_start`: a failure and the record as it was, or a
descriptor attached to an interface the record now describes. -/
def SysStarted (A : Event Call Resp → Prop) (dev : Device) (mode : Mode) (r : Int × Device)
    (k : Kern) : Prop :=
  r = (-1, dev) ∨ r.1 ≠ -1 ∧ r.2.tunFd = dev.tunFd ∧ r.2.ctrlSock = dev.ctrlSock ∧
    ∃ i f, k.fds r.1 = some (.tun (some i)) ∧ k.Reaches r.2 i f ∧ Fresh A mode r.2 f

section Start

variable {R : Rules} {A : Event Call Resp → Prop} {k k' : Kern} {dev : Device} {mode : Mode}
  {tun : Int}

theorem Linux.setPersistent_frame {K : Kernel Call Resp Kern}
    (hK : ∀ {s c r s'}, K s c r s' → Kern.Step R s c r s') {fd : Int} {persist : Prop}
    [Decidable persist] :
    (setPersistent fd persist).Wp K (fun _ k' => k.Frame [.persist] k') k := by
  unfold setPersistent
  split
  · intro r k' hs
    exact (hK hs).frame ((framed_ioctlVal _ .tunsetpersist _).mpr (List.Subset.refl _))
  · exact .of_eq rfl

/-- The request of an attachment asks for the framing of the mode. -/
theorem Linux.ifrFlags_request (flags : BitVec 16) (name : CString) (c : Prop) [Decidable c] :
    ifrFlags (if c then (setIfrFlags (Buf.zero : Ifreq) flags).strlcpy 0 name 16
      else setIfrFlags Buf.zero flags) = flags := by
  split
  · unfold ifrFlags
    rw [Buf.slice_strlcpy_disjoint _ _ _ _ _ _ (by omega)]
    exact ifrFlags_setIfrFlags _ _ (by omega)
  · exact ifrFlags_setIfrFlags _ _ (by omega)

/-- What the kernel attaches is named in the reply and framed as asked. -/
theorem Kern.Step.tunsetiff {fd : Int} {arg : Ifreq} {r : IoctlGetRet 40} (hr : r.ret ≠ -1)
    (hs : Kern.Step R k (.ioctlGet fd .tunsetiff arg) r k') :
    ∃ i f, f.framing = ifrFlags arg ∧ (ifrName r.arg).cstr = f.name ∧ k.fds fd = some (.tun none) ∧
      k'.fds = Function.update k.fds fd (some (.tun (some i))) ∧ k'.ifs i = some f := by
  rcases hs with ⟨h, -⟩ | ⟨-, -, hfd, i, f, hframing, -, -, hname, hfds, hifs⟩
  · exact absurd h hr
  · refine ⟨i, f, hframing, hname, hfd, hfds, ?_⟩
    rw [hifs, Function.update_self]

theorem Kern.Step.siocgifflags {fd : Int} {n : Nat} {arg : Buf n} {r : IoctlGetRet n}
    (hr : r.ret ≠ -1) (hs : Kern.Step R k (.ioctlGet fd .siocgifflags arg) r k') :
    k' = k ∧ ifrName r.arg = ifrName arg := by
  rcases hs with ⟨h, -⟩ | ⟨-, hk, -, i, f, -, hout⟩
  · exact absurd h hr
  · refine ⟨hk, ?_⟩
    rw [hout]
    exact ifrName_setIfrFlags _ _

theorem Kern.Step.siocgifhwaddr {fd : Int} {arg : Ifreq} {r : IoctlGetRet 40} {i : Nat}
    {f : Iface} (ha : k.Attached fd i f) (hr : r.ret ≠ -1)
    (hs : Kern.Step R k (.ioctlGet fd .siocgifhwaddr arg) r k') :
    k' = k ∧ ifrHwaddr r.arg = f.hwaddr := by
  rcases hs with ⟨h, -⟩ | ⟨-, hk, j, g, hg, hout⟩
  · exact absurd h hr
  · obtain ⟨-, rfl⟩ := ha.unique hg
    exact ⟨hk, hout⟩

/-- What is left when the kernel has attached an interface, set it persistent
and given its flags: the descriptor and the interface of the reply. -/
theorem Linux.attached {k₁ k₂ k₃ k₄ : Kern} {fd sock : Int} {arg : Ifreq}
    {r rf : IoctlGetRet 40} (hsock : k₁.fds sock = some (.socket .inet))
    (hattach : Kern.Step R k₁ (.ioctlGet fd .tunsetiff arg) r k₂) (hr : r.ret ≠ -1)
    (hpersist : k₂.Frame [.persist] k₃)
    (hflags : Kern.Step R k₃ (.ioctlGet sock .siocgifflags r.arg) rf k₄) (hrf : rf.ret ≠ -1) :
    ∃ i f, k₄.fds fd = some (.tun (some i)) ∧ k₄.ifs i = some f ∧
      k₄.fds sock = some (.socket .inet) ∧ (ifrName rf.arg).cstr = f.name ∧
      f.framing = ifrFlags arg := by
  obtain ⟨i, f, hframing, hname, hfree, hfds, hifs⟩ := hattach.tunsetiff hr
  have hne : sock ≠ fd := by
    intro heq
    rw [heq, hfree] at hsock
    cases hsock
  obtain ⟨rfl, hout⟩ := hflags.siocgifflags hrf
  obtain ⟨f', hf', hframe⟩ := hpersist.ifs i f hifs
  refine ⟨i, f', hpersist.fds _ _ ?_, hf', hpersist.fds _ _ ?_, ?_, ?_⟩
  · rw [hfds, Function.update_self]
  · rw [hfds, Function.update_of_ne hne]
    exact hsock
  · rw [hout, hname]
    exact (hframe .name (by decide)).symm
  · exact (hframe .framing (by decide)).trans hframing

theorem Linux.tuntapSysStart_started (hsock : k.fds dev.ctrlSock = some (.socket .inet)) :
    (tuntapSysStart dev mode tun).Wp ((kernel R).Only A) (SysStarted A dev mode) k := by
  have hfail : ∀ {t}, SysStarted A dev mode (-1, dev) t := Or.inl rfl
  dsimp only [tuntapSysStart]
  rw [Mode.clearPersist_eq]
  refine (Prog.wp_ite _ _ _).mpr ⟨fun _ _ _ _ => hfail, fun _ => ?_⟩
  refine (Prog.wp_ite _ _ _).mpr ⟨fun _ _ _ _ => hfail, fun _ => ?_⟩
  refine (Prog.wp_call_bind _ _).mpr fun fd k₁ hopen => ?_
  refine (Prog.wp_ite _ _ _).mpr ⟨fun _ _ _ _ => hfail, fun hfd => ?_⟩
  refine (Prog.wp_ite _ _ _).mpr ⟨fun _ => hfail, fun _ => ?_⟩
  refine (Prog.wp_call_bind _ _).mpr fun r k₂ hattach => ?_
  refine (Prog.wp_ite _ _ _).mpr ⟨fun _ _ _ _ => hfail, fun hr => ?_⟩
  refine (setPersistent_frame (R := R) fun h => h.2).bind fun persisted k₃ hpersist => ?_
  refine (Prog.wp_ite _ _ _).mpr ⟨fun _ _ _ _ => hfail, fun _ => ?_⟩
  refine (Prog.wp_call_bind _ _).mpr fun rf k₄ hflags => ?_
  refine (Prog.wp_ite _ _ _).mpr ⟨fun _ _ _ _ => hfail, fun hrf => ?_⟩
  -- from here on the kernel only answers questions about the attached interface
  have hlinked : ∃ i f, k₄.fds fd = some (.tun (some i)) ∧ k₄.ifs i = some f ∧
      k₄.fds dev.ctrlSock = some (.socket .inet) ∧ (ifrName rf.arg).cstr = f.name ∧
      f.framing = mode.framing := by
    have hsock₁ : k₁.fds dev.ctrlSock = some (.socket .inet) :=
      Kern.Frame.fds (hopen.2.frame (framed_open _) : k.Frame [] k₁) _ _ hsock
    have hframing := attached hsock₁ hattach.2 hr hpersist hflags.2 hrf
    rw [ifrFlags_request] at hframing
    exact hframing
  obtain ⟨i, f, hfds, hifs, hsock₄, hname, hframing⟩ := hlinked
  have hshort : f.name.strlen ≤ 15 := k₄.short i f hifs
  have hcstr : (dev.ifName.memcpy 0 (ifrName rf.arg) 16).cstr = f.name := by
    rw [Buf.cstr_memcpy_zero _ _ (by decide) (by rw [hname]; omega), hname]
  have hok : ∀ {d : Device}, d.tunFd = dev.tunFd → d.ctrlSock = dev.ctrlSock →
      d.ifName.cstr = f.name →
      (mode.clearPersist = tuntapModeEthernet → AddressRead A → d.hwaddr = f.hwaddr) →
      SysStarted A dev mode (fd, d) k₄ := by
    intro d htun hctrl hcopy hhw
    refine Or.inr ⟨hfd, htun, hctrl, i, f, hfds, ⟨?_, hifs, ?_⟩, hcopy, hframing, hhw⟩
    · rw [hctrl]
      exact hsock₄
    · rw [hcopy, CString.take_of_strlen_le hshort]
  refine (Prog.wp_ite _ _ _).mpr ⟨fun _ => ?_, fun hmode => ?_⟩
  · refine (Prog.wp_call_bind _ _).mpr fun ifrHw k₅ hun => ?_
    obtain rfl : k₅ = k₄ := hun.2
    refine (Prog.wp_call_bind _ _).mpr fun ra k₆ haddr => ?_
    refine (Prog.wp_ite _ _ _).mpr ⟨fun hra => ?_, fun hra => ?_⟩
    · refine (Prog.wp_call_bind _ _).mpr fun _ k₇ hlog => ?_
      rcases haddr.2 with ⟨-, rfl⟩ | ⟨h0, -⟩
      · obtain rfl : k₇ = k₆ := hlog.2
        exact hok rfl rfl hcstr fun _ hread => absurd hra (hread _ _ _ _ haddr.1)
      · exact absurd h0 (by omega)
    · obtain ⟨rfl, hhw⟩ := haddr.2.siocgifhwaddr ⟨hfds, hifs⟩ hra
      exact hok rfl rfl hcstr fun _ _ => hhw
  · exact hok rfl rfl hcstr fun h => absurd h hmode

/-- The answer of `tuntap_start`: a failure on a record that is not started, or
a started one that is linked to its interface. -/
def Started (A : Event Call Resp → Prop) (mode : Mode) (r : Int × Device) (k : Kern) : Prop :=
  r.1 = -1 ∧ r.2.tunFd = -1 ∨
    r.1 = 0 ∧ r.2.tunFd ≠ -1 ∧ ∃ i f, Linked r.2 k i f ∧ Fresh A mode r.2 f

/-- What holds of `tuntap_start` from what holds of the back end on a granted
socket. The sockets closed on the way out can leave any state behind. -/
theorem tuntapStart_wp {os : Os} {K : Kernel Call Resp Kern} {Q : Int × Device → Kern → Prop}
    (hdev : dev.tunFd = -1) (hfail : ∀ d t, d.tunFd = -1 → Q (-1, d) t)
    (hsys : ∀ sock k₁, K k (.socket .inet) sock k₁ → sock ≠ -1 →
      (tuntapSysStart os { dev with ctrlSock := sock } mode tun).Wp K (fun r t =>
        (r.1 = -1 → ∀ t', Q (-1, r.2) t') ∧ (r.1 ≠ -1 → Q (0, { r.2 with tunFd := r.1 }) t))
        k₁) :
    (tuntapStart os dev mode tun).Wp K Q k := by
  have hclean : ∀ {sock d t}, (∀ t', Q (-1, d) t') → (startClean (-1) sock d).Wp K Q t := by
    intro sock d t hd
    simp [startClean, hd]
  unfold tuntapStart
  rw [if_neg (not_not.mpr hdev)]
  refine (Prog.wp_call_bind _ _).mpr fun sock k₁ hsock => ?_
  refine (Prog.wp_ite _ _ _).mpr ⟨fun _ => hclean fun t => hfail _ t hdev, fun hne => ?_⟩
  refine (Prog.wp_ite _ _ _).mpr ⟨fun _ => hclean fun t => hfail _ t hdev, fun _ => ?_⟩
  refine (hsys sock k₁ hsock hne).bind fun r k₂ hr => ?_
  obtain ⟨fd, d⟩ := r
  obtain ⟨hno, hyes⟩ := hr
  refine (Prog.wp_ite _ _ _).mpr ⟨fun hfd => ?_, hyes⟩
  subst hfd
  exact hclean (hno rfl)

theorem tuntapStart_started (hdev : dev.tunFd = -1) :
    (tuntapStart .linux dev mode tun).Wp ((kernel R).Only A) (Started A mode) k := by
  refine tuntapStart_wp hdev (fun d t hd => Or.inl ⟨rfl, hd⟩) fun sock k₁ hsock hne => ?_
  have hopen := (Kern.Step.socket_opens hsock.2 hne).2
  have hsys : (Linux.tuntapSysStart { dev with ctrlSock := sock } mode tun).Wp
      ((kernel R).Only A) (SysStarted A { dev with ctrlSock := sock } mode) k₁ :=
    Linux.tuntapSysStart_started hopen
  refine hsys.mono fun r k₂ hr => ?_
  rcases hr with rfl | ⟨hfd, htun, hctrl, i, f, hfds, hreach, hfresh⟩
  · exact ⟨fun _ _ => Or.inl ⟨rfl, hdev⟩, fun h => absurd rfl h⟩
  · exact ⟨fun h => absurd h hfd, fun _ => Or.inr ⟨rfl, hfd, i, f,
      ⟨hfds, hreach.sock, hreach.iface, hreach.name⟩,
      hfresh.name, hfresh.framing, hfresh.hwaddr⟩⟩

end Start

/-! ## The rename -/

/-- The copy after a rename. -/
def renamed (ifName : Buf 17) (ifname : CString) : Buf 17 :=
  (ifName.memset 0 0 ifNamesize).strncpy 0 ifname ifname.strlen

/-- The copy starts with the name it was given; a 16-byte name has no
terminator of its own. -/
theorem take_cstr_renamed (ifName : Buf 17) {ifname : CString} (h : ifname.strlen ≤ 16) :
    (renamed ifName ifname).cstr.take 16 = ifname := by
  have hslice : ((renamed ifName ifname).slice 0 16).cstr = ifname := by
    unfold renamed
    rw [Buf.cstr_slice_strncpy _ _ h (by decide)]
    · exact CString.take_of_strlen_le (Nat.le_refl _)
    · intro i _ hi
      rw [Buf.byte_memset, if_pos]
      unfold ifNamesize
      omega
  rw [← Buf.cstr_slice_zero _ _ (by decide), hslice]

theorem take_fifteen_cstr_renamed (ifName : Buf 17) {ifname : CString}
    (h : ifname.strlen ≤ 16) : (renamed ifName ifname).cstr.take 15 = ifname.take 15 := by
  have htake := congrArg (fun c => c.take 15) (take_cstr_renamed ifName h)
  rw [CString.take_take] at htake
  exact htake

/-- The copy is the name the kernel took exactly when nothing was cut. -/
theorem cstr_renamed_eq_iff (ifName : Buf 17) {ifname : CString} (h : ifname.strlen ≤ 16) :
    (renamed ifName ifname).cstr = ifname.take 15 ↔ ifname.strlen ≠ 16 := by
  have htake := take_cstr_renamed ifName h
  have hlen := congrArg CString.strlen htake
  rw [CString.strlen_take] at hlen
  constructor
  · intro heq hsixteen
    have hcopy := congrArg CString.strlen heq
    rw [CString.strlen_take] at hcopy
    omega
  · intro hne
    rw [CString.take_of_strlen_le (by omega)] at htake
    rw [htake, CString.take_of_strlen_le (by omega)]

section Rename

variable {R : Rules} {k : Kern} {dev : Device} {i : Nat} {f : Iface}

/-- Refused, and nothing has changed; or granted, and both names have. -/
def Renamed (dev : Device) (k : Kern) (i : Nat) (f : Iface) (ifname : CString)
    (r : Int × Device) (k' : Kern) : Prop :=
  r = (-1, dev) ∧ k' = k ∨ r = (0, { dev with ifName := renamed dev.ifName ifname }) ∧
    ifname.strlen ≤ 16 ∧ k.Put k' i { f with name := ifname.take 15 }

theorem Linux.tuntapSysSetIfname_wp (h : k.Reaches dev i f) {ifname : CString}
    (hle : ifname.strlen ≤ ifNamesize) :
    (tuntapSysSetIfname dev ifname ifname.strlen).Wp (kernel R) (fun n k' =>
      n = -1 ∧ k' = k ∨ n = 0 ∧ k.Put k' i { f with name := ifname.take 15 }) k := by
  refine (Prog.wp_call_bind _ _).mpr fun r k' hs => ?_
  rcases hs with ⟨hr, rfl⟩ | ⟨hr, hs⟩
  · rw [if_pos hr]
    intro _ _ hlog
    exact Or.inl ⟨rfl, hlog⟩
  · rw [if_neg (by omega)]
    have hput := h.alters (names_renaming ifname _) hs
    rw [ifrNewname_renaming hle] at hput
    exact Or.inr ⟨rfl, hput⟩

theorem tuntapSetIfname_wp (h : k.Reaches dev i f) (ifname : CString) :
    (tuntapSetIfname .linux dev (some ifname)).Wp (kernel R) (Renamed dev k i f ifname) k := by
  refine (Prog.wp_ite _ _ _).mpr ⟨fun _ _ _ hlog => Or.inl ⟨rfl, hlog⟩, fun hlen => ?_⟩
  simp only [tuntapSysSetIfname, Prog.bind_assoc, Prog.pure_eq, Prog.ret_bind]
  refine (Linux.tuntapSysSetIfname_wp h (Nat.not_lt.mp hlen)).bind fun n k' hn => ?_
  rcases hn with ⟨rfl, hk⟩ | ⟨rfl, hput⟩
  · exact Or.inl ⟨rfl, hk⟩
  · exact Or.inr ⟨rfl, Nat.not_lt.mp hlen, hput⟩

end Rename

/-! ## Sessions -/

section Session

variable {R : Rules} {libc : Libc} {rely : Rely} {s s' : Session} {tr : List (Event Call Resp)}
  {ret : Ret}

/-- A start in a session, on a device that is not started. -/
theorem Session.Step.start (hos : R.os = .linux) {mode : Mode} {tun : Int}
    (hs : Session.Step R libc rely s (.call (.start mode tun) tr ret) s')
    (hdev : s.dev.tunFd = -1) {A : Event Call Resp → Prop} (hA : ∀ e ∈ tr, A e) :
    ∃ n, ret = .int n ∧ Started A mode (n, s'.dev) s'.kern := by
  cases hs with
  | call hr hk =>
      rw [hos] at hr
      have hwp : ((Op.start mode tun).prog .linux libc s.dev).Wp ((kernel R).Only A)
          (fun r k => ∃ r', r = back r' ∧ Started A mode r' k) s.kern :=
        (tuntapStart_started hdev).bind fun r k hr => ⟨r, rfl, hr⟩
      obtain ⟨⟨n, d⟩, hback, hstarted⟩ := hwp.of_runs hr (hk.only hA)
      obtain ⟨rfl, hd⟩ := Prod.mk.inj hback
      obtain rfl := Option.some.inj hd
      exact ⟨n, rfl, hstarted⟩

/-- A rename in a session. -/
theorem Session.Step.renamed (hos : R.os = .linux) {ifname : CString} {i : Nat} {f : Iface}
    (hs : Session.Step R libc rely s (.call (.setIfname (some ifname)) tr ret) s')
    (h : s.kern.Reaches s.dev i f) :
    ∃ n, ret = .int n ∧ Renamed s.dev s.kern i f ifname (n, s'.dev) s'.kern := by
  have hwp : ((Op.setIfname (some ifname)).prog R.os libc s.dev).Wp (kernel R)
      (fun r k => ∃ r', r = back r' ∧ Renamed s.dev s.kern i f ifname r' k) s.kern := by
    rw [hos]
    exact (tuntapSetIfname_wp h ifname).bind fun r k hr => ⟨r, rfl, hr⟩
  obtain ⟨⟨n, d⟩, hback, hren⟩ := hs.of_wp hwp
  obtain ⟨rfl, hd⟩ := Prod.mk.inj hback
  obtain rfl := Option.some.inj hd
  exact ⟨n, rfl, hren⟩

/-- A rename to nothing is refused before any request. -/
theorem Session.Step.renamed_none
    (hs : Session.Step R libc rely s (.call (.setIfname none) tr ret) s') : s' = s := by
  cases hs with
  | call hr hk =>
      obtain ⟨r, tr', rfl, rfl, hback⟩ := hr
      obtain ⟨m, hm, rfl⟩ := hk
      have hdev : s'.dev = s.dev := Option.some.inj (Prod.mk.inj hback).2
      have hkern : s'.kern = s.kern := hm
      cases s
      cases s'
      subst hdev
      subst hkern
      rfl

/-- Both sides of a rename that was granted. -/
theorem Linked.renamed {dev : Device} {k k' : Kern} {i : Nat} {f : Iface} {ifname : CString}
    (h : Linked dev k i f) (hle : ifname.strlen ≤ 16)
    (hput : k.Put k' i { f with name := ifname.take 15 }) :
    Linked { dev with ifName := Libtuntap.renamed dev.ifName ifname } k' i
      { f with name := ifname.take 15 } := by
  obtain ⟨hfds, hifs⟩ := hput
  refine ⟨?_, ?_, ?_, ?_⟩
  · rw [hfds]
    exact h.attached
  · rw [hfds]
    exact h.reaches.sock
  · rw [hifs, Function.update_self]
  · exact (take_fifteen_cstr_renamed _ hle).symm

/-- A call on a started device keeps the link, and of the interface all parts
it does not write. A rename writes the name on both sides. -/
theorem Session.Step.linked (hos : R.os = .linux) {op : Op} {i : Nat} {f : Iface}
    (hs : Session.Step R libc rely s (.call op tr ret) s') (hdev : s.dev.tunFd ≠ -1)
    (h : Linked s.dev s.kern i f) :
    ∃ f', Linked s'.dev s'.kern i f' ∧ f.Frame op.writes f' := by
  obtain ⟨hd, hk⟩ := hs.frame_of_started hdev
  by_cases hname : .name ∈ op.writes
  · obtain ⟨ifname, rfl⟩ := Op.name_mem_writes hname
    cases ifname with
    | none =>
        obtain rfl := hs.renamed_none
        exact ⟨f, h, .refl f⟩
    | some ifname =>
        obtain ⟨n, -, hren⟩ := hs.renamed hos h.reaches
        rcases hren with ⟨hr, hsame⟩ | ⟨hr, hle, hput⟩
        · have hdev' : s'.dev = s.dev := (Prod.mk.inj hr).2
          rw [hdev', hsame]
          exact ⟨f, h, .refl f⟩
        · have hdev' := (Prod.mk.inj hr).2
          have hlink := h.renamed hle hput
          rw [hdev']
          obtain ⟨f', hf', hframe⟩ := hk.ifs i f h.reaches.iface
          obtain rfl := Option.some.inj (hf'.symm.trans hlink.reaches.iface)
          exact ⟨_, hlink, hframe⟩
  · exact h.frame hk hd hname

/-- A device that is started is linked to its interface. -/
def Kept (s : Session) : Prop := s.dev.tunFd ≠ -1 → ∃ i f, Linked s.dev s.kern i f

/-- On a device that is not started, only a start that succeeds starts it. -/
theorem Session.Step.not_started {op : Op}
    (hs : Session.Step R libc rely s (.call op tr ret) s') (hdev : s.dev.tunFd = -1)
    (hop : ∀ mode tun, op ≠ .start mode tun) : s'.dev.tunFd = -1 := by
  by_cases hends : op.StartsOrEnds
  · cases hs with
    | call hr hk =>
        cases op with
        | start mode tun => exact absurd rfl (hop mode tun)
        | release =>
            obtain ⟨_, _, _, _, _, _, hback⟩ := (Prog.runs_bind _ _ _ _).mp hr
            cases hback
        | destroy =>
            obtain ⟨_, _, _, _, _, _, hback⟩ := (Prog.runs_bind _ _ _ _).mp hr
            cases hback
        | _ => exact hends.elim
  · rw [(hs.frame hends).1.tunFd]
    exact hdev

theorem Session.Step.kept (hos : R.os = .linux) {kept : List Field} {a : Act}
    (hs : Session.Step R libc (OthersKeep kept) s a s') (hname : .name ∈ kept) (h : Kept s) :
    Kept s' := by
  intro hdev'
  cases a with
  | others =>
      cases hs with
      | others hrely =>
          obtain ⟨i, f, hlink⟩ := h hdev'
          obtain ⟨f', hlink', -⟩ := hlink.others hrely hname
          exact ⟨i, f', hlink'⟩
  | call op tr ret =>
      by_cases hdev : s.dev.tunFd = -1
      · by_cases hop : ∃ mode tun, op = .start mode tun
        · obtain ⟨mode, tun, rfl⟩ := hop
          obtain ⟨n, -, hstarted⟩ := hs.start hos hdev (A := fun _ => True) fun _ _ => trivial
          rcases hstarted with ⟨-, htun⟩ | ⟨-, -, i, f, hlink, -⟩
          · exact absurd htun hdev'
          · exact ⟨i, f, hlink⟩
        · exact absurd (hs.not_started hdev fun mode tun heq => hop ⟨mode, tun, heq⟩) hdev'
      · obtain ⟨i, f, hlink⟩ := h hdev
        obtain ⟨f', hlink', -⟩ := hs.linked hos hdev hlink
        exact ⟨i, f', hlink'⟩

end Session

/-! ## A start that is granted everything -/

/-- `tap0` as the kernel makes it. -/
def Iface.tap0 : Iface :=
  { Iface.named (CString.lit "tap0") with framing := iffTap ||| iffNoPi }

theorem Iface.tap0_short : Iface.tap0.name.strlen ≤ 15 := by decide

/-- One interface, attached to descriptor 4, and a socket 3. -/
def Kern.attached (f : Iface) (hf : f.name.strlen ≤ 15) : Kern :=
  ((Kern.single f hf).setFd 3 (some (.socket .inet))).setFd 4 (some (.tun (some 0)))

/-- The request for it. -/
def reqTap0 : Ifreq :=
  (setIfrFlags Buf.zero (iffTap ||| iffNoPi)).strlcpy 0 (CString.lit "tap0") 16

/-- The device that comes of it. -/
def Device.tap0 : Device where
  tunFd := 4
  ctrlSock := 3
  flags := (ifrFlags (setIfrFlags reqTap0 0)).signExtend 32
  hwaddr := ifrHwaddr (Buf.zero : Ifreq)
  ifName := (Buf.zero : Buf 17).memcpy 0 (ifrName (setIfrFlags reqTap0 0)) 16

/-- The trace of a start that is granted everything. -/
def startTap0 : List (Event Call Resp) :=
  [⟨.socket .inet, (3 : Int)⟩, ⟨.open (CString.lit "/dev/net/tun"), (4 : Int)⟩,
    ⟨.ioctlGet 4 .tunsetiff reqTap0, ⟨0, reqTap0⟩⟩,
    ⟨.ioctlGet 3 .siocgifflags reqTap0, ⟨0, setIfrFlags reqTap0 0⟩⟩,
    ⟨.uninit 40, (Buf.zero : Buf 40)⟩,
    ⟨.ioctlGet 4 .siocgifhwaddr ((Buf.zero : Buf 40).memcpy 0 Device.tap0.ifName 17),
      ⟨0, Buf.zero⟩⟩]

theorem startTap0_runs : (tuntapStart .linux Device.init tuntapModeEthernet 0).Runs startTap0
    (0, Device.tap0) := by
  refine ⟨(3 : Int), _, rfl, (4 : Int), _, rfl, ?_⟩
  change ∃ (r : IoctlGetRet 40) (tr' : _), _ = _ ∧ _
  refine ⟨⟨0, reqTap0⟩, _, rfl, ?_⟩
  change ∃ (r : IoctlGetRet 40) (tr' : _), _ = _ ∧ _
  refine ⟨⟨0, setIfrFlags reqTap0 0⟩, _, rfl, ?_⟩
  change ∃ (r : Buf 40) (tr' : _), _ = _ ∧ _
  refine ⟨Buf.zero, _, rfl, ?_⟩
  change ∃ (r : IoctlGetRet 40) (tr' : _), _ = _ ∧ _
  exact ⟨⟨0, Buf.zero⟩, _, rfl, rfl, rfl⟩

theorem startTap0_steps : (kernel (Rules.plain .linux)).Steps Kern.blank startTap0
    (Kern.attached Iface.tap0 (by decide)) := by
  refine ⟨Kern.blank.setFd 3 (some (.socket .inet)), Or.inr ⟨by decide, rfl, rfl, rfl⟩,
    (Kern.blank.setFd 3 (some (.socket .inet))).setFd 4 (some (.tun none)),
    Or.inr ⟨by decide, rfl, rfl, rfl⟩, Kern.attached Iface.tap0 (by decide),
    Or.inr ⟨rfl, rfl, rfl, 0, Iface.tap0, ?_, Or.inl ⟨rfl, rfl⟩, ?_, ?_, ?_, rfl⟩,
    _, Or.inr ⟨rfl, rfl, ⟨.inet, rfl⟩, 0, Iface.tap0, ⟨rfl, ?_⟩, rfl⟩,
    _, rfl, _, Or.inr ⟨rfl, rfl, 0, Iface.tap0, ⟨rfl, rfl⟩, ?_⟩, rfl⟩
  · decide
  · intro _
    decide
  · decide
  · exact (Function.update_idem ..).symm
  · decide
  · decide

theorem startTap0_step (libc : Libc) (rely : Rely) :
    Session.Step (Rules.plain .linux) libc rely ⟨Device.init, Kern.blank⟩
      (.call (.start tuntapModeEthernet 0) startTap0 (.int 0))
      ⟨Device.tap0, Kern.attached Iface.tap0 (by decide)⟩ :=
  .call ((Prog.runs_bind _ _ _ _).mpr ⟨_, startTap0, [], rfl, startTap0_runs, rfl, rfl⟩)
    startTap0_steps

/-- A request that names that interface is granted. -/
theorem Kern.attached_alters {f : Iface} {hf : f.name.strlen ≤ 15} {n : Nat} {arg : Buf n}
    (hn : f.name = (ifrName arg).cstr.take 15) (change : Iface → Iface)
    (hf' : (change f).name.strlen ≤ 15) :
    (Kern.attached f hf).Alters 3 arg change (Kern.attached (change f) hf') :=
  ⟨⟨.inet, rfl⟩, 0, f, ⟨rfl, hn⟩, rfl, (Function.update_idem ..).symm⟩

theorem Device.tap0_names {n : Nat} {arg : Buf n} (h : Names Device.tap0 n arg) :
    Iface.tap0.name = (ifrName arg).cstr.take 15 := by
  rw [h]
  decide

/-- The request for its MTU. -/
def reqMtu : Ifreq := ifreqNamed .linux Device.tap0

/-- The MTU of `tap0` is set. -/
theorem setMtuTap0_step (libc : Libc) (rely : Rely) (f : Iface) (hf : f.name.strlen ≤ 15)
    (hname : f.name = Iface.tap0.name) (mtu : BitVec 32) :
    Session.Step (Rules.plain .linux) libc rely ⟨Device.tap0, Kern.attached f hf⟩
      (.call (.setMtu mtu) [⟨.ioctl 3 .siocsifmtu (setIfrInt reqMtu mtu), ⟨0, .other⟩⟩] (.int 0))
      ⟨Device.tap0, Kern.attached { f with mtu := mtu } hf⟩ := by
  have hint : ifrInt (setIfrInt reqMtu mtu) = mtu := ifrInt_setIfrInt _ _ (by decide)
  have hn : Names Device.tap0 40 (setIfrInt reqMtu mtu) :=
    (names_ifreqNamed .linux).memcpy (by decide)
  refine .call ⟨⟨0, .other⟩, [], rfl, rfl, rfl⟩ ⟨_, Or.inr ⟨rfl, ?_⟩, rfl⟩
  simp only [Kern.Sets, hint]
  exact Kern.attached_alters (hname.trans (Device.tap0_names hn)) _ hf

end Libtuntap
