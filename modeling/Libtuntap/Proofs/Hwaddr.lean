import Libtuntap.Proofs.Started

/-!
# The link-layer address in the record and the one in the kernel

`tuntap_set_hwaddr` copies the address into the record and asks the kernel
afterwards. When the kernel refuses, as it does a multicast address, the copy
stays: the call answers -1 and `tuntap_get_hwaddr` reports an address the
interface does not have. An address that does not parse is found out before
the copy and leaves both sides alone.

A granted request reaches the interface the record has the name of, so the two
sides move together as long as that name is still the interface's. No other
call writes either side.
-/

namespace Libtuntap

open Effect CMem

/-- The six bytes `tuntap_get_hwaddr` prints are the address of the interface
`tun_fd` is attached to. -/
def AddressAgrees (s : Session) : Prop :=
  ∃ i f, s.kern.Attached s.dev.tunFd i f ∧ s.dev.hwaddr = f.hwaddr

/-- A `tuntap_set_hwaddr` that answers -1 leaves what `tuntap_get_hwaddr`
reports. -/
def ReportsSame (libc : Libc) : Session × Act × Session → Prop
  | (s, .call (.setHwaddr _) _ ret, s') =>
      ret = .int (-1) → tuntapGetHwaddr libc s'.dev = tuntapGetHwaddr libc s.dev
  | _ => True

/-! ## The address asked for -/

/-- The number a call of `random` gave. -/
def drawn : Event Call Resp → Option Nat
  | ⟨.random, r⟩ => some r
  | _ => none

/-- The address made of six numbers. -/
def randomAddress (numbers : List Nat) : Buf 6 := fun i =>
  if i = 0 then UInt8.ofNat (numbers.getD 0 0) &&& 0xfc else UInt8.ofNat (numbers.getD i 0)

/-- The address a call asks the kernel for; none for a string that does not
parse. -/
def askedAddress (libc : Libc) (hwaddr : CString) (tr : List (Event Call Resp)) :
    Option (Buf 6) :=
  if hwaddr = CString.lit "random" then some (randomAddress (tr.filterMap drawn))
  else libc.etherAton hwaddr

/-- An address is asked for only where it reaches both sides, or where it is
the one the interface has. -/
def SetsBoth (libc : Libc) : Session × Act × Session → Prop
  | (s, .call (.setHwaddr hwaddr) tr _, _) =>
      ∀ a i f, askedAddress libc hwaddr tr = some a → s.kern.Attached s.dev.tunFd i f →
        (∀ e ∈ tr, Granted e) ∧ f.name = s.dev.ifName.cstr.take 15 ∨ a = f.hwaddr
  | _ => True

section Asked

variable {libc : Libc} {dev : Device}

/-- Byte after byte, from the numbers drawn in that order. -/
theorem fillRandom_ensures (n i : Nat) (ethRand : Buf 6) :
    (fillRandom n i ethRand).Ensures fun tr a => (∀ e ∈ tr, Granted e) ∧
      ∀ j < 6, a.byte j = if i ≤ j ∧ j < i + n then
        UInt8.ofNat ((tr.filterMap drawn).getD (j - i) 0) else ethRand.byte j := by
  induction n generalizing i ethRand with
  | zero =>
      refine ⟨fun _ he => absurd he List.not_mem_nil, fun j _ => ?_⟩
      rw [if_neg (by omega)]
  | succ n ih =>
      intro r
      refine (ih (i + 1) _).mono fun tr a h => ?_
      obtain ⟨hgranted, hbytes⟩ := h
      refine ⟨?_, fun j hj => ?_⟩
      · simp only [List.mem_cons, forall_eq_or_imp]
        exact ⟨trivial, hgranted⟩
      · have hdrawn : (⟨.random, r⟩ :: tr : List (Event Call Resp)).filterMap drawn =
            r :: tr.filterMap drawn := rfl
        rw [hbytes j hj, hdrawn, Buf.byte_memset]
        by_cases hij : j = i
        · subst hij
          rw [if_neg (by omega), if_pos (by omega), if_pos (by omega), Nat.sub_self]
          rfl
        · by_cases hlt : i ≤ j ∧ j < i + (n + 1)
          · obtain ⟨m, hm⟩ : ∃ m, j - i = m + 1 := ⟨j - i - 1, by omega⟩
            rw [if_pos (by omega), if_pos hlt, hm, show j - (i + 1) = m by omega]
            rfl
          · rw [if_neg (by omega), if_neg (by omega), if_neg hlt]

theorem randomHwaddr_ensures :
    randomHwaddr.Ensures fun tr a => (∀ e ∈ tr, Granted e) ∧
      a = randomAddress (tr.filterMap drawn) := by
  intro ethRand now _
  refine (fillRandom_ensures 6 0 ethRand).bind fun tr a h => ?_
  obtain ⟨hgranted, hbytes⟩ := h
  show _ ∧ _
  rw [List.append_nil]
  refine ⟨?_, ?_⟩
  · simp only [List.mem_cons, forall_eq_or_imp]
    exact ⟨trivial, trivial, trivial, hgranted⟩
  · show _ = randomAddress (tr.filterMap drawn)
    refine Buf.ext_byte fun j hj => ?_
    rw [Buf.byte_memset, Buf.byte_of_lt (b := randomAddress _) hj]
    by_cases hzero : j = 0
    · subst hzero
      rw [if_pos (by omega), hbytes 0 (by omega), if_pos (by omega)]
      rfl
    · rw [if_neg (by omega), hbytes j hj, if_pos (by omega)]
      unfold randomAddress
      rw [if_neg fun heq => hzero (congrArg Fin.val heq)]
      rfl

/-- The request answers 0 when it is granted, and the record has the address
either way. -/
theorem setHwaddrTo_granted_iff (ethAddr : Buf 6) :
    (setHwaddrTo .linux dev ethAddr).Ensures fun tr r => tr.filterMap drawn = [] ∧
      r.2 = { dev with hwaddr := ethAddr } ∧ ((∀ e ∈ tr, Granted e) ↔ r.1 = 0) := by
  simp only [setHwaddrTo, tuntapSysSetHwaddr, Linux.tuntapSysSetHwaddr, Prog.bind_assoc,
    Prog.pure_eq, Prog.ret_bind, Prog.ite_bind, Prog.ensures_call_bind, Prog.ensures_ite,
    Prog.ensures_ret]
  intro r
  constructor
  · intro hr
    simp [hr, drawn]
  · intro hr
    simp [hr, drawn]

/-- What a call with its trace leaves of the record. -/
theorem tuntapSetHwaddr_asked (hwaddr : CString) :
    (tuntapSetHwaddr .linux libc dev hwaddr).Ensures fun tr r =>
      askedAddress libc hwaddr tr = none ∧ r = (-1, dev) ∨
        ∃ a, askedAddress libc hwaddr tr = some a ∧ r.2 = { dev with hwaddr := a } ∧
          ((∀ e ∈ tr, Granted e) ↔ r.1 = 0) := by
  unfold tuntapSetHwaddr askedAddress
  split
  next =>
    refine randomHwaddr_ensures.bind fun tr₁ a h => ?_
    obtain ⟨hgranted, rfl⟩ := h
    refine (setHwaddrTo_granted_iff _).mono fun tr₂ r hset => ?_
    obtain ⟨hnone, hdev, hiff⟩ := hset
    refine Or.inr ⟨_, rfl, ?_, ?_⟩
    · rw [List.filterMap_append, hnone, List.append_nil]
      exact hdev
    · rw [← hiff]
      simp only [List.mem_append]
      exact ⟨fun h e he => h e (Or.inr he), fun h e he => he.elim (hgranted e) (h e)⟩
  next =>
    cases libc.etherAton hwaddr with
    | none => exact Or.inl ⟨rfl, rfl⟩
    | some a =>
        refine (setHwaddrTo_granted_iff a).mono fun tr r hset => ?_
        exact Or.inr ⟨a, rfl, hset.2⟩

end Asked

/-! ## The address set -/

section Set

variable {R : Rules} {libc : Libc} {k : Kern} {dev : Device} {i : Nat} {f : Iface}

theorem Kern.Attached.frame {k' : Kern} {fd : Int} {fields : List Field} (h : k.Attached fd i f)
    (hk : k.Frame fields k') : ∃ f', k'.Attached fd i f' ∧ f.Frame fields f' := by
  obtain ⟨f', hf', hframe⟩ := hk.ifs i f h.2
  exact ⟨f', ⟨hk.fds _ _ h.1, hf'⟩, hframe⟩

/-- Refused, and the kernel is as it was; or granted, and the interface has the
address of the record, if it is the one the record names. -/
def AddressSet (dev : Device) (k : Kern) (i : Nat) (f : Iface) (r : Int × Device)
    (k' : Kern) : Prop :=
  r.1 = -1 ∧ k' = k ∨ r.1 = 0 ∧ ∃ f', k'.Attached dev.tunFd i f' ∧
    f'.hwaddr = if f.name = dev.ifName.cstr.take 15 then r.2.hwaddr else f.hwaddr

theorem setHwaddrTo_wp (h : k.Attached dev.tunFd i f) (ethAddr : Buf 6) :
    (setHwaddrTo .linux dev ethAddr).Wp (kernel R) (AddressSet dev k i f) k := by
  simp only [setHwaddrTo, tuntapSysSetHwaddr, Linux.tuntapSysSetHwaddr, Prog.bind_assoc,
    Prog.ite_bind, Prog.pure_eq, Prog.ret_bind]
  refine (Prog.wp_call_bind _ _).mpr fun r k' hs => ?_
  rcases hs with ⟨hr, hk⟩ | ⟨hr, hs⟩
  · rw [if_pos hr]
    intro _ k'' hlog
    obtain rfl : k'' = k' := hlog
    exact Or.inl ⟨rfl, hk⟩
  · rw [if_neg (by omega)]
    refine Or.inr ⟨rfl, ?_⟩
    obtain ⟨-, j, g, hg, hfds, hifs⟩ := hs
    have hn : g.name = dev.ifName.cstr.take 15 :=
      hg.2.trans ((names_linux.memcpy (by decide)).memcpy (by decide))
    by_cases hname : f.name = dev.ifName.cstr.take 15
    · obtain rfl := k.distinct i j f g h.2 hg.1 (hname.trans hn.symm)
      have hiface := congrFun hifs i
      rw [Function.update_self] at hiface
      refine ⟨_, ⟨?_, hiface⟩, ?_⟩
      · rw [hfds]
        exact h.1
      · rw [if_pos hname]
        exact Buf.slice_memcpy_same _ _ _ (by decide)
    · have hne : i ≠ j := by
        intro heq
        subst heq
        obtain rfl := Option.some.inj (h.2.symm.trans hg.1)
        exact hname hn
      refine ⟨f, ⟨?_, ?_⟩, ?_⟩
      · rw [hfds]
        exact h.1
      · rw [hifs, Function.update_of_ne hne]
        exact h.2
      · rw [if_neg hname]

/-- Making up an address leaves the kernel. -/
theorem randomHwaddr_idle : randomHwaddr.Wp (kernel R) (fun _ k' => k' = k) k :=
  (randomHwaddr_allCalls (P := fun c => ∀ m r m', Kern.Step R m c r m' → m' = m)
    (fun _ _ _ h => h) (fun _ _ _ h => h) (fun _ _ _ _ h => h) (fun _ _ _ h => h)).wp rfl
    fun _ hc m r m' hstep hm => (hc m r m' hstep).trans hm

theorem tuntapSetHwaddr_wp (h : k.Attached dev.tunFd i f) (hwaddr : CString) :
    (tuntapSetHwaddr .linux libc dev hwaddr).Wp (kernel R) (AddressSet dev k i f) k := by
  unfold tuntapSetHwaddr
  split
  next =>
    refine randomHwaddr_idle.bind fun ethRand k' hk => ?_
    subst hk
    exact setHwaddrTo_wp h ethRand
  next =>
    cases libc.etherAton hwaddr with
    | none => exact Or.inl ⟨rfl, rfl⟩
    | some ethAddr => exact setHwaddrTo_wp h ethAddr

end Set

/-! ## Sessions -/

section Session

variable {R : Rules} {libc : Libc} {rely : Rely} {s s' : Session} {tr : List (Event Call Resp)}
  {ret : Ret}

/-- A call of `tuntap_set_hwaddr` in a session. -/
theorem Session.Step.setHwaddr (hos : R.os = .linux) {hwaddr : CString} {i : Nat} {f : Iface}
    (hs : Session.Step R libc rely s (.call (.setHwaddr hwaddr) tr ret) s')
    (h : s.kern.Attached s.dev.tunFd i f) :
    ∃ n, ret = .int n ∧ AddressSet s.dev s.kern i f (n, s'.dev) s'.kern ∧
      (askedAddress libc hwaddr tr = none ∧ n = -1 ∧ s'.dev = s.dev ∨
        ∃ a, askedAddress libc hwaddr tr = some a ∧ s'.dev = { s.dev with hwaddr := a } ∧
          ((∀ e ∈ tr, Granted e) ↔ n = 0)) := by
  cases hs with
  | call hr hk =>
      rw [hos] at hr
      obtain ⟨⟨n, d⟩, tr₁, tr₂, rfl, hset, rfl, hback⟩ := (Prog.runs_bind _ _ _ _).mp hr
      obtain ⟨rfl, hd⟩ := Prod.mk.inj hback
      obtain rfl := Option.some.inj hd
      rw [List.append_nil] at hk ⊢
      refine ⟨n, rfl, (tuntapSetHwaddr_wp h hwaddr).of_runs hset hk, ?_⟩
      rcases (Prog.ensures_iff _).mp (tuntapSetHwaddr_asked hwaddr) _ _ hset with hnone | hsome
      · exact Or.inl ⟨hnone.1, Prod.mk.inj hnone.2⟩
      · exact Or.inr hsome

/-- On attached devices the two agree when the copy is the address. -/
theorem addressAgrees_iff {i : Nat} {f : Iface} (h : s.kern.Attached s.dev.tunFd i f) :
    AddressAgrees s ↔ s.dev.hwaddr = f.hwaddr := by
  constructor
  · intro hag
    obtain ⟨j, g, hg, heq⟩ := hag
    rw [(h.unique hg).2]
    exact heq
  · exact fun heq => ⟨i, f, h, heq⟩

/-- Whether the two agree after a call of `tuntap_set_hwaddr`. -/
theorem Session.Step.addressAgrees_set (hos : R.os = .linux) {hwaddr : CString}
    (hs : Session.Step R libc rely s (.call (.setHwaddr hwaddr) tr ret) s')
    (hag : AddressAgrees s) :
    AddressAgrees s' ↔ SetsBoth libc (s, .call (.setHwaddr hwaddr) tr ret, s') := by
  obtain ⟨i, f, hf, hcopy⟩ := hag
  obtain ⟨n, rfl, hset, hasked⟩ := hs.setHwaddr hos hf
  have hboth : SetsBoth libc (s, .call (.setHwaddr hwaddr) tr (.int n), s') ↔
      ∀ a, askedAddress libc hwaddr tr = some a →
        (∀ e ∈ tr, Granted e) ∧ f.name = s.dev.ifName.cstr.take 15 ∨ a = f.hwaddr := by
    constructor
    · exact fun h a ha => h a i f ha hf
    · intro h a j g ha hg
      rw [← (hf.unique hg).2]
      exact h a ha
  rw [hboth]
  rcases hasked with ⟨hnone, rfl, hdev⟩ | ⟨a, hsome, hdev, hgranted⟩
  · rcases hset with ⟨-, hk⟩ | ⟨h, -⟩
    · refine iff_of_true ⟨i, f, ?_, ?_⟩ fun a ha => ?_
      · rw [hdev, hk]
        exact hf
      · rw [hdev]
        exact hcopy
      · rw [hnone] at ha
        cases ha
    · exact absurd (show (-1 : Int) = 0 from h) (by decide)
  · have hone : ∀ {P : Buf 6 → Prop}, (∀ b, askedAddress libc hwaddr tr = some b → P b) ↔ P a := by
      intro P
      rw [hsome]
      exact ⟨fun h => h a rfl, fun h b hb => Option.some.inj hb ▸ h⟩
    rw [hone]
    have htun : s'.dev.tunFd = s.dev.tunFd := by rw [hdev]
    have hcopy' : s'.dev.hwaddr = a := by rw [hdev]
    rcases hset with ⟨rfl, hk⟩ | ⟨rfl, f', hf', hhw⟩
    · have hf' : s'.kern.Attached s'.dev.tunFd i f := by
        rw [htun, hk]
        exact hf
      rw [addressAgrees_iff hf', hcopy']
      refine ⟨Or.inr, fun h => h.elim (fun hg => ?_) id⟩
      exact absurd (hgranted.mp hg.1) (by decide)
    · rw [← htun] at hf'
      rw [addressAgrees_iff hf', hhw, hcopy']
      by_cases hname : f.name = s.dev.ifName.cstr.take 15
      · rw [if_pos hname]
        exact iff_of_true rfl (Or.inl ⟨hgranted.mpr rfl, hname⟩)
      · rw [if_neg hname]
        exact ⟨Or.inr, fun h => h.elim (fun hg => absurd hg.2 hname) id⟩

theorem Session.Step.addressAgrees_iff (hos : R.os = .linux) {a : Act}
    (hs : Session.Step R libc (OthersKeep [.hwaddr]) s a s') (hdev : s.dev.tunFd ≠ -1)
    (hag : AddressAgrees s) : AddressAgrees s' ↔ SetsBoth libc (s, a, s') := by
  cases a with
  | others =>
      refine iff_of_true ?_ trivial
      cases hs with
      | others hrely =>
          obtain ⟨i, f, hf, hcopy⟩ := hag
          obtain ⟨f', hf', hsame⟩ := hrely.2.2 i f hf
          refine ⟨i, f', ⟨hrely.1.trans hf.1, hf'⟩, hcopy.trans ?_⟩
          exact (hsame .hwaddr (List.mem_singleton_self _)).symm
  | call op tr ret =>
      by_cases hhw : .hwaddr ∈ op.writes
      · obtain ⟨hwaddr, rfl⟩ := Op.hwaddr_mem_writes hhw
        exact hs.addressAgrees_set hos hag
      · refine iff_of_true ?_ ?_
        · obtain ⟨i, f, hf, hcopy⟩ := hag
          obtain ⟨hd, hk⟩ := hs.frame_of_started hdev
          obtain ⟨f', hf', hframe⟩ := hf.frame hk
          rw [← hd.tunFd] at hf'
          refine ⟨i, f', hf', (hd.hwaddr hhw).trans (hcopy.trans ?_)⟩
          exact (hframe .hwaddr hhw).symm
        · cases op with
          | setHwaddr hwaddr => exact absurd (List.mem_singleton_self _) hhw
          | _ => trivial

/-- What agrees before and after a refused call has not moved. -/
theorem Session.Step.reportsSame (hos : R.os = .linux) {a : Act}
    (hs : Session.Step R libc rely s a s') (hag : AddressAgrees s) (hag' : AddressAgrees s') :
    ReportsSame libc (s, a, s') := by
  cases a with
  | others => trivial
  | call op tr ret =>
      cases op with
      | setHwaddr hwaddr =>
          intro hret
          subst hret
          obtain ⟨i, f, hf, hcopy⟩ := hag
          obtain ⟨n, hn, hset, hasked⟩ := hs.setHwaddr hos hf
          obtain rfl := Ret.int.inj hn
          have htun : s'.dev.tunFd = s.dev.tunFd := (hs.frame id).1.tunFd
          rcases hset with ⟨-, hk⟩ | ⟨h, -⟩
          · have hf' : s'.kern.Attached s'.dev.tunFd i f := by
              rw [htun, hk]
              exact hf
            have hsame : s'.dev.hwaddr = s.dev.hwaddr :=
              ((Libtuntap.addressAgrees_iff hf').mp hag').trans hcopy.symm
            show libc.etherNtoa s'.dev.hwaddr = libc.etherNtoa s.dev.hwaddr
            rw [hsame]
          · exact absurd (show (-1 : Int) = 0 from h) (by decide)
      | _ => trivial

end Session

/-- From an Ethernet start whose query of the address was granted, through any
calls and anything others do but change the address: the address reported is
that of the kernel in every state reached, and unchanged by every refused call,
exactly when every address asked for reached both sides. -/
theorem hwaddr_agrees_iff (R : Rules) (libc : Libc) (rely : Rely) (s₀ s s' : Session)
    (mode : Mode) (tun : Int) (tr₀ : List (Event Call Resp)) (tr : List (Session × Act × Session))
    (hos : R.os = .linux) (hdev : s₀.dev.tunFd = -1)
    (hmode : mode.clearPersist = tuntapModeEthernet)
    (hstart : Session.Step R libc rely s₀ (.call (.start mode tun) tr₀ (.int 0)) s)
    (hread : AddressRead (· ∈ tr₀))
    (hr : Run (Session.Step R libc (OthersKeep [.hwaddr])) s tr s') :
    (AddressAgrees s ∧ ∀ x ∈ tr, AddressAgrees x.2.2 ∧ ReportsSame libc x) ↔
      ∀ x ∈ tr, SetsBoth libc x := by
  obtain ⟨n, hn, hstarted⟩ := hstart.start hos hdev (A := (· ∈ tr₀)) fun _ he => he
  obtain rfl := Ret.int.inj hn
  rcases hstarted with ⟨h, -⟩ | ⟨-, htun, i, f, hlink, hfresh⟩
  · exact absurd (show (0 : Int) = -1 from h) (by decide)
  have hag : AddressAgrees s :=
    ⟨i, f, ⟨hlink.attached, hlink.reaches.iface⟩, hfresh.hwaddr hmode hread⟩
  have hstep : ∀ {s a m}, Session.Step R libc (OthersKeep [.hwaddr]) s a m →
      s.dev.tunFd ≠ -1 → m.dev.tunFd ≠ -1 := by
    intro s a m hs hne
    cases a with
    | others =>
        cases hs with
        | others => exact hne
    | call op tr ret =>
        rw [(hs.frame_of_started hne).1.tunFd]
        exact hne
  have hopen := (hr.invariant (I := fun s => s.dev.tunFd ≠ -1) htun
    fun x _ hs hne => hstep hs hne).2
  have hiff := hr.inv_iff (I := fun s => s.dev.tunFd ≠ -1 ∧ AddressAgrees s)
    (G := fun s a s' => SetsBoth libc (s, a, s')) ⟨htun, hag⟩ fun {s a m} hs hinv => by
      rw [← hs.addressAgrees_iff hos hinv.1 hinv.2]
      exact and_iff_right (hstep hs hinv.1)
  rw [and_iff_right hag]
  constructor
  · intro h
    exact hiff.mp fun x hx => ⟨(hopen x hx).2, (h x hx).1⟩
  · intro h x hx
    have hall := hiff.mpr h
    have hbefore := (hr.invariant (I := AddressAgrees) hag fun x hx _ _ => (hall x hx).2).2
    exact ⟨(hall x hx).2,
      (hr.step_of_mem x hx).reportsSame hos (hbefore x hx).1 (hbefore x hx).2⟩

/-! ## `tap0` with another address -/

/-- A C library that knows one address. -/
def Libc.resolving (hwaddr : CString) (ethAddr : Buf 6) : Libc :=
  { Libc.refusing with etherAton := fun str => if str = hwaddr then some ethAddr else none }

/-- The request for it. -/
def reqHwaddr (ethAddr : Buf 6) : Ifreq :=
  ((Linux.ifreqNamed Device.tap0).memcpy 16 (Buf.store16 arphrdEther) 2).memcpy 18 ethAddr 6

section Tap0

variable {hwaddr : CString}

theorem tuntapSetHwaddr_resolving (ethAddr : Buf 6) (hstr : hwaddr ≠ CString.lit "random") :
    tuntapSetHwaddr .linux (Libc.resolving hwaddr ethAddr) Device.tap0 hwaddr =
      setHwaddrTo .linux Device.tap0 ethAddr := by
  unfold tuntapSetHwaddr
  rw [if_neg hstr]
  simp only [Libc.resolving, if_true]

theorem hwaddr_granted_step (rely : Rely) (ethAddr : Buf 6) (hstr : hwaddr ≠ CString.lit "random") :
    Session.Step (Rules.plain .linux) (Libc.resolving hwaddr ethAddr) rely
      ⟨Device.tap0, Kern.attached Iface.tap0 (by decide)⟩
      (.call (.setHwaddr hwaddr) [⟨.ioctl 3 .siocsifhwaddr (reqHwaddr ethAddr), ⟨0, .other⟩⟩]
        (.int 0))
      ⟨{ Device.tap0 with hwaddr := ethAddr },
        Kern.attached { Iface.tap0 with hwaddr := ifrHwaddr (reqHwaddr ethAddr) }
          Iface.tap0_short⟩ := by
  refine .call ((Prog.runs_bind _ _ _ _).mpr
    ⟨(0, { Device.tap0 with hwaddr := ethAddr }), _, [], (List.append_nil _).symm, ?_, rfl, rfl⟩)
    ⟨_, Or.inr ⟨rfl, ?_⟩, rfl⟩
  · show (tuntapSetHwaddr .linux _ Device.tap0 hwaddr).Runs _ _
    rw [tuntapSetHwaddr_resolving ethAddr hstr]
    exact ⟨⟨0, .other⟩, _, rfl, rfl, rfl⟩
  · exact Kern.attached_alters
      (Device.tap0_names ((names_linux.memcpy (by decide)).memcpy (by decide)))
      (fun f => { f with hwaddr := ifrHwaddr (reqHwaddr ethAddr) }) Iface.tap0_short

theorem hwaddr_refused_step (rely : Rely) (ethAddr : Buf 6) (hstr : hwaddr ≠ CString.lit "random") :
    Session.Step (Rules.plain .linux) (Libc.resolving hwaddr ethAddr) rely
      ⟨Device.tap0, Kern.attached Iface.tap0 (by decide)⟩
      (.call (.setHwaddr hwaddr)
        [⟨.ioctl 3 .siocsifhwaddr (reqHwaddr ethAddr), ⟨-1, .other⟩⟩,
          ⟨.log .err (CString.lit "Can't set link-layer address"), ()⟩] (.int (-1)))
      ⟨{ Device.tap0 with hwaddr := ethAddr }, Kern.attached Iface.tap0 (by decide)⟩ := by
  refine .call ((Prog.runs_bind _ _ _ _).mpr
    ⟨(-1, { Device.tap0 with hwaddr := ethAddr }), _, [], (List.append_nil _).symm, ?_, rfl, rfl⟩)
    ⟨_, Or.inl ⟨rfl, rfl⟩, _, rfl, rfl⟩
  show (tuntapSetHwaddr .linux _ Device.tap0 hwaddr).Runs _ _
  rw [tuntapSetHwaddr_resolving ethAddr hstr]
  exact ⟨⟨-1, .other⟩, _, rfl, (), _, rfl, rfl, rfl⟩

theorem startTap0_addressRead : AddressRead (· ∈ startTap0) := by
  intro fd n arg r h
  simp only [startTap0, List.mem_cons, List.not_mem_nil, or_false] at h
  rcases h with h | h | h | h | h | h
  all_goals cases h
  decide

end Tap0

/-- A unicast address is granted. -/
theorem set_hwaddr_granted_agrees : ∃ tr s',
    Run (Session.Step (Rules.plain .linux)
        (Libc.resolving (CString.lit "02:00:00:00:00:00") (Buf.zero.memset 0 2 1))
        (OthersKeep [.hwaddr]))
      ⟨Device.tap0, Kern.attached Iface.tap0 (by decide)⟩ tr s' ∧ tr.length = 1 ∧
      ∀ x ∈ tr, AddressAgrees x.2.2 := by
  have hstr : CString.lit "02:00:00:00:00:00" ≠ CString.lit "random" := by decide
  have hr := Run.cons
    (hwaddr_granted_step (OthersKeep [.hwaddr]) (Buf.zero.memset 0 2 1) hstr) (.nil _)
  refine ⟨_, _, hr, rfl, fun x hx => (((hwaddr_agrees_iff _ _ (OthersKeep [.hwaddr]) _ _ _ _ _ _ _
    rfl rfl (by decide) (startTap0_step _ _) startTap0_addressRead hr).mpr ?_).2 x hx).1⟩
  intro y hy
  obtain rfl := List.mem_singleton.mp hy
  intro a i f _ hf
  refine Or.inl ⟨fun e he => ?_, ?_⟩
  · obtain rfl := List.mem_singleton.mp he
    exact (granted_ioctl ..).mpr (by decide)
  · have hi : some (Desc.tun (some 0)) = some (.tun (some i)) := hf.1
    cases hi
    have hiface : some Iface.tap0 = some f := hf.2
    cases hiface
    decide

/-- A multicast address is refused, and the record keeps it. -/
theorem set_hwaddr_refused_disagrees :
    ¬ ∀ (R : Rules) (libc : Libc) (rely : Rely) (s₀ s s' : Session) (mode : Mode) (tun : Int)
      (tr₀ : List (Event Call Resp)) (tr : List (Session × Act × Session)),
      R.os = .linux → s₀.dev.tunFd = -1 → mode.clearPersist = tuntapModeEthernet →
        Session.Step R libc rely s₀ (.call (.start mode tun) tr₀ (.int 0)) s →
          AddressRead (· ∈ tr₀) → Run (Session.Step R libc (OthersKeep [.hwaddr])) s tr s' →
            AddressAgrees s ∧ ∀ x ∈ tr, AddressAgrees x.2.2 ∧ ReportsSame libc x := by
  intro hclaim
  have hstr : CString.lit "01:00:00:00:00:00" ≠ CString.lit "random" := by decide
  have hr := Run.cons
    (hwaddr_refused_step (OthersKeep [.hwaddr]) (Buf.zero.memset 0 1 1) hstr) (.nil _)
  obtain ⟨i, f, hf, hcopy⟩ := ((hclaim _ _ (OthersKeep [.hwaddr]) _ _ _ _ _ _ _ rfl rfl
    (by decide) (startTap0_step _ _) startTap0_addressRead hr).2 _ (List.mem_cons_self ..)).1
  have hi : some (Desc.tun (some 0)) = some (.tun (some i)) := hf.1
  cases hi
  have hiface : some Iface.tap0 = some f := hf.2
  cases hiface
  exact absurd (congrFun hcopy 0) (by decide)

end Libtuntap
