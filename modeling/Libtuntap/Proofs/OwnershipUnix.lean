import Libtuntap.Proofs.Ownership

/-!
# Who owns a descriptor on the other Unix systems

The five back ends share `tuntap-unix.c`, so they share the discipline of the
Linux library. What differs is which calls pass `ctrl_sock` without a look at
`tun_fd`: on FreeBSD and OpenBSD the two functions for the description do, and
on the systems that cannot rename an interface `tuntap_set_ifname` does not.
`Op.PassesCtrlSock` says it for each system.

The starts differ more. A BSD start creates an interface, opens one node after
another until one opens, and asks the node for its name; whichever of this
happens, it answers a descriptor that it opened itself or none. And FreeBSD
closes `tun_fd` before it destroys the interface, which the release that follows
has to be told.
-/

namespace Libtuntap

open Effect CMem

/-- The calls that get as far as passing `ctrl_sock` without a look at `tun_fd`. -/
def Op.PassesCtrlSock (os : Os) (libc : Libc) : Op → Prop
  | .release | .destroy | .up | .down => True
  | .setIfname (some ifname) => (os = .linux ∨ os = .freeBsd) ∧ ifname.strlen ≤ ifNamesize
  | .setHwaddr hwaddr => hwaddr = CString.lit "random" ∨ (libc.etherAton hwaddr).isSome
  | .setDescr (some _) | .getDescr => os = .freeBsd ∨ os = .openBsd
  | _ => False

section Quiet

variable {keep : Int → Prop} {os : Os} {libc : Libc} {dev : Device}

@[simp] theorem quiet_ioctlStr {n : Nat} (fd : Int) (req : Request) (arg : Buf n) (s : CString)
    (len : Nat) : Quiet keep (.ioctlStr fd req arg s len) ↔ Held keep fd :=
  quiet_iff_of_fd rfl (fun _ => rfl) rfl

@[simp] theorem quiet_ioctlGetStr {n : Nat} (fd : Int) (req : Request) (arg : Buf n)
    (len : Nat) : Quiet keep (.ioctlGetStr fd req arg len) ↔ Held keep fd :=
  quiet_iff_of_fd rfl (fun _ => rfl) rfl

@[simp] theorem quiet_getifaddrs : Quiet keep .getifaddrs :=
  quiet_of_fd_none rfl (fun _ => rfl) rfl

theorem setIfname_quiet {ifname : Option CString}
    (hctrl : (Op.setIfname ifname).PassesCtrlSock os libc → Held keep dev.ctrlSock) :
    (tuntapSetIfname os dev ifname).AllCalls (Quiet keep) := by
  cases ifname with
  | none => simp [tuntapSetIfname]
  | some ifname =>
      cases os with
      | linux =>
          simp only [tuntapSetIfname, tuntapSysSetIfname, Linux.tuntapSysSetIfname]
          simpa [Op.PassesCtrlSock] using hctrl
      | freeBsd =>
          simp only [tuntapSetIfname, tuntapSysSetIfname, FreeBsd.tuntapSysSetIfname]
          simpa [Op.PassesCtrlSock] using hctrl
      | openBsd | netBsd | darwin =>
          simp [tuntapSetIfname, tuntapSysSetIfname, Bsd.tuntapSysSetIfname]

theorem hwaddrTo_quiet (ethAddr : Buf 6) (hctrl : Held keep dev.ctrlSock) :
    (setHwaddrTo os dev ethAddr).AllCalls (Quiet keep) := by
  cases os with
  | linux => simpa [setHwaddrTo, tuntapSysSetHwaddr, Linux.tuntapSysSetHwaddr] using hctrl
  | freeBsd => simpa [setHwaddrTo, tuntapSysSetHwaddr, FreeBsd.tuntapSysSetHwaddr] using hctrl
  | openBsd => simpa [setHwaddrTo, tuntapSysSetHwaddr, OpenBsd.tuntapSysSetHwaddr] using hctrl
  | netBsd => simpa [setHwaddrTo, tuntapSysSetHwaddr, NetBsd.tuntapSysSetHwaddr] using hctrl
  | darwin => simpa [setHwaddrTo, tuntapSysSetHwaddr, Darwin.tuntapSysSetHwaddr] using hctrl

theorem setHwaddr_quiet {hwaddr : CString}
    (hctrl : (Op.setHwaddr hwaddr).PassesCtrlSock os libc → Held keep dev.ctrlSock) :
    (tuntapSetHwaddr os libc dev hwaddr).AllCalls (Quiet keep) := by
  unfold tuntapSetHwaddr
  by_cases hr : hwaddr = CString.lit "random"
  · rw [if_pos hr]
    exact randomHwaddr_quiet.bind fun ethAddr => hwaddrTo_quiet ethAddr (hctrl (Or.inl hr))
  · rw [if_neg hr]
    cases haton : libc.etherAton hwaddr with
    | none => trivial
    | some ethAddr => exact hwaddrTo_quiet ethAddr (hctrl (Or.inr (by simp [haton])))

theorem setDescr_quiet {descr : Option CString}
    (hctrl : (Op.setDescr descr).PassesCtrlSock os libc → Held keep dev.ctrlSock) :
    (tuntapSetDescr os dev descr).AllCalls (Quiet keep) := by
  cases descr with
  | none => simp [tuntapSetDescr]
  | some descr =>
      cases os with
      | linux => simp [tuntapSetDescr, tuntapSysSetDescr, Linux.tuntapSysSetDescr]
      | freeBsd =>
          have hsock := hctrl (Or.inl rfl)
          simp [tuntapSetDescr, tuntapSysSetDescr, FreeBsd.tuntapSysSetDescr, hsock]
      | openBsd =>
          have hsock := hctrl (Or.inr rfl)
          simp [tuntapSetDescr, tuntapSysSetDescr, OpenBsd.tuntapSysSetDescr, hsock]
      | netBsd => simp [tuntapSetDescr, tuntapSysSetDescr, NetBsd.tuntapSysSetDescr]
      | darwin => simp [tuntapSetDescr, tuntapSysSetDescr, Darwin.tuntapSysSetDescr]

theorem getDescr_quiet
    (hctrl : Op.getDescr.PassesCtrlSock os libc → Held keep dev.ctrlSock) :
    (tuntapGetDescr os dev).AllCalls (Quiet keep) := by
  cases os with
  | linux => simp [tuntapGetDescr, tuntapSysGetDescr, Linux.tuntapSysGetDescr]
  | freeBsd =>
      have hsock := hctrl (Or.inl rfl)
      simp [tuntapGetDescr, tuntapSysGetDescr, FreeBsd.tuntapSysGetDescr, hsock]
  | openBsd =>
      have hsock := hctrl (Or.inr rfl)
      simp [tuntapGetDescr, tuntapSysGetDescr, OpenBsd.tuntapSysGetDescr, hsock]
  | netBsd => simp [tuntapGetDescr, tuntapSysGetDescr, NetBsd.tuntapSysGetDescr]
  | darwin => simp [tuntapGetDescr, tuntapSysGetDescr, Darwin.tuntapSysGetDescr]

/-- Every call but the four that deal in descriptors is quiet. -/
theorem Op.quiet_on (os : Os) (op : Op) (hop : ¬ op.Deals) (htun : Held keep dev.tunFd)
    (hctrl : dev.tunFd ≠ -1 ∨ op.PassesCtrlSock os libc → Held keep dev.ctrlSock) :
    (op.prog os libc dev).AllCalls (Quiet keep) := by
  have hstarted : ¬ dev.tunFd = -1 → Held keep dev.ctrlSock :=
    fun h => hctrl (Or.inl h)
  have hlinux := @Op.prog_quiet keep libc dev
  cases op with
  | start | release | destroy | setIp => exact absurd trivial hop
  | setIfname ifname =>
      exact (setIfname_quiet fun h => hctrl (Or.inr h)).bind fun _ => trivial
  | setHwaddr hwaddr =>
      exact (setHwaddr_quiet fun h => hctrl (Or.inr h)).bind fun _ => trivial
  | setDescr descr => exact (setDescr_quiet fun h => hctrl (Or.inr h)).bind fun _ => trivial
  | getDescr => exact (getDescr_quiet fun h => hctrl (Or.inr h)).bind fun _ => trivial
  | up | down => exact (setFlags_quiet (hctrl (Or.inr trivial))).bind fun _ => trivial
  -- these do not depend on the system
  | getIfname | getHwaddr | getFd | read | readTm | write | writeTm | setNonblocking =>
      exact hlinux _ hop htun fun h => hctrl (h.imp_right False.elim)
  | getMtu => simpa [Op.prog, tuntapGetMtu] using hstarted
  | setMtu mtu => simpa [Op.prog, tuntapSetMtu] using hstarted
  | getReadable =>
      simp only [Op.prog, tuntapGetReadable, tuntapGetMtu]
      simpa using ⟨htun, fun _ _ => hstarted⟩
  | setDebug set => simpa [Op.prog, tuntapSetDebug] using fun _ _ => htun

end Quiet

/-! ## Starts -/

/-- More is owned than before, and `fd`, if it is one, is new. -/
def Opens (own : Int → Prop) (fd : Int) (own' : Int → Prop) : Prop :=
  (∀ n, own n → own' n) ∧ (fd ≠ -1 → Held (fun n => own' n ∧ ¬ own n) fd)

section Starts

variable {own own' : Int → Prop} {dev : Device} {fd : Int}

theorem Opens.gain (hfresh : 0 ≤ fd → ¬ own fd) : Opens own fd (gain own fd) :=
  ⟨fun _ h => Or.inr h, fun _ h0 => ⟨Or.inl ⟨h0, rfl⟩, hfresh h0⟩⟩

theorem Opens.held (h : Opens own fd own') : Held own' fd :=
  fun h0 => (h.2 (by omega) h0).1

/-- What was owned before an open that is not the first is owned after it. -/
theorem Opens.after {own₁ : Int → Prop} (hkeep : ∀ n, own n → own₁ n) (h : Opens own₁ fd own') :
    Opens own fd own' := by
  refine ⟨fun n hn => h.1 n (hkeep n hn), fun hne h0 => ?_⟩
  obtain ⟨hown, hnew⟩ := h.2 hne h0
  exact ⟨hown, fun hold => hnew (hkeep _ hold)⟩

theorem scanUnits_safe (type : CString) (n : Nat) (tun last : Int)
    (hlast : Opens own last own') :
    (Bsd.scanUnits type n tun last).Safe descriptors (fun r own'' => Opens own r.1 own'') own' := by
  induction n generalizing tun last own' with
  | zero => exact hlast
  | succ n ih =>
      refine safe_open fun fd hfresh => ?_
      have hopens : Opens own fd (gain own' fd) := (Opens.gain hfresh).after hlast.1
      exact (Prog.safe_ite _ _ _ _).mpr ⟨fun _ => hopens, fun _ => ih (tun + 1) fd hopens⟩

/-- What the choice of a node leaves: no less is owned, and a node that was
chosen is new. -/
def Chooses (own : Int → Prop) (o : Option (Int × Int)) (own' : Int → Prop) : Prop :=
  (∀ n, own n → own' n) ∧ ∀ r, o = some r → Opens own r.1 own'

theorem Opens.chooses {r : Int × Int} (h : Opens own r.1 own') : Chooses own (some r) own' := by
  refine ⟨h.1, fun r' heq => ?_⟩
  obtain rfl := Option.some.inj heq
  exact h

theorem scanned_safe (type : CString) :
    (Bsd.scanUnits type tuntapIdMax.toNat 0 (-1) >>= fun found =>
      (.ret (some found) : Sys (Option (Int × Int)))).Safe descriptors (Chooses own) own :=
  (scanUnits_safe type _ 0 (-1) ⟨fun _ h => h, fun h => absurd rfl h⟩).bind
    fun _ _ h => h.chooses

theorem openUnit_safe (type : CString) (tun : Int) :
    (Bsd.openUnit type tun).Safe descriptors (Chooses own) own := by
  unfold Bsd.openUnit
  refine (Prog.safe_ite _ _ _ _).mpr ⟨fun _ => safe_open fun fd hfresh => ?_, fun _ => ?_⟩
  · exact Opens.chooses (Opens.gain hfresh)
  · refine (Prog.safe_ite _ _ _ _).mpr ⟨fun _ => ?_, fun _ => ?_⟩
    · exact scanned_safe type
    · exact safe_of_quiet (quiet_log ..) fun _ => ⟨fun _ h => h, nofun⟩

theorem startSafe_failed (hkeep : ∀ n, own n → own' n) : StartSafe dev own (-1, dev) own' :=
  ⟨rfl, rfl, hkeep, fun h => absurd rfl h⟩

/-- From an opened descriptor on a start opens and closes nothing, leaves the
descriptors in the record, and answers that descriptor or none. -/
theorem startSafe_of_quiet {p : Sys (Int × Device)} (h : Opens own fd own')
    (hp : p.AllCalls (Quiet own')) (hA : p.Answers fun r => r.2.tunFd = dev.tunFd ∧
      r.2.ctrlSock = dev.ctrlSock ∧ (r.1 = -1 ∨ r.1 = fd)) :
    p.Safe descriptors (StartSafe dev own) own' := by
  refine safe_of_allQuiet hp (hA.mono ?_)
  rintro r ⟨htun, hsock, hr⟩
  refine ⟨htun, hsock, h.1, fun hne => ?_⟩
  obtain rfl := hr.resolve_left hne
  exact h.2 hne

/-- A part of a start that opens nothing. -/
theorem safe_after_quiet {α β : Type} {p : Sys α} {f : α → Sys β} {Q : β → (Int → Prop) → Prop}
    (hp : p.AllCalls (Quiet own)) (hf : ∀ a, (f a).Safe descriptors Q own) :
    (p >>= f).Safe descriptors Q own := by
  have hsame : p.Safe descriptors (fun _ own' => own' = own) own :=
    safe_of_allQuiet hp (Prog.answers_of_forall (fun _ => rfl) p)
  refine hsame.bind fun a own' h => ?_
  obtain rfl := h
  exact hf a

theorem createLoop_quiet (hctrl : Held own dev.ctrlSock) (iftype : CString) (n : Nat) (unit : Int) :
    (FreeBsd.createLoop dev iftype n unit).AllCalls (Quiet own) := by
  induction n generalizing unit with
  | zero => trivial
  | succ n ih => simp [FreeBsd.createLoop, FreeBsd.tuntapSysCreateDev, hctrl, ih]

theorem freeBsd_start_safe (mode : Mode) (unit : Int) (hctrl : Held own dev.ctrlSock) :
    (FreeBsd.tuntapSysStart dev mode unit).Safe descriptors (StartSafe dev own) own := by
  have hfail : StartSafe dev own (-1, dev) own := startSafe_failed fun _ h => h
  dsimp only [FreeBsd.tuntapSysStart]
  generalize (if mode.isPersist then mode.clearPersist else mode) = m
  refine (Prog.safe_ite _ _ _ _).mpr
    ⟨fun _ => safe_of_quiet (quiet_log ..) fun _ => hfail, fun _ => ?_⟩
  refine safe_after_quiet ?_ fun o => ?_
  · simp [FreeBsd.createIfRequired, FreeBsd.tuntapSysCreateDev, hctrl, createLoop_quiet hctrl]
  · cases o with
    | none => exact hfail
    | some unit =>
        refine safe_open fun fd hfresh => ?_
        have hfd : Held (gain own fd) fd := fun h0 => Or.inl ⟨h0, rfl⟩
        have hsock : Held (gain own fd) dev.ctrlSock := fun h0 => Or.inr (hctrl h0)
        refine startSafe_of_quiet (Opens.gain hfresh) ?_ ?_
        · simp [hfd, hsock]
        · simp

/-- A start that ends with the search for the address. -/
theorem saveLladdr_quiet (d : Device) :
    (Bsd.saveLladdr d >>= fun d => (.ret (fd, d) : Sys (Int × Device))).AllCalls (Quiet own) := by
  refine Prog.AllCalls.bind ((Prog.allCalls_call_bind _ _).mpr ⟨quiet_getifaddrs, fun r => ?_⟩)
    fun _ => trivial
  cases r with
  | none => trivial
  | some ifa =>
      dsimp only
      cases ifa.find? _ with
      | none => exact ⟨quiet_log .., fun _ => trivial⟩
      | some pifa => trivial

theorem saveLladdr_answers {d : Device} (htun : d.tunFd = dev.tunFd)
    (hsock : d.ctrlSock = dev.ctrlSock) :
    (Bsd.saveLladdr d >>= fun d => (.ret (fd, d) : Sys (Int × Device))).Answers fun r =>
      r.2.tunFd = dev.tunFd ∧ r.2.ctrlSock = dev.ctrlSock ∧ (r.1 = -1 ∨ r.1 = fd) := by
  have hkeep : (Bsd.saveLladdr d).Answers fun d' =>
      d'.tunFd = dev.tunFd ∧ d'.ctrlSock = dev.ctrlSock := by
    refine (Prog.answers_call_bind _ _).mpr fun r => ?_
    cases r with
    | none => exact ⟨htun, hsock⟩
    | some ifa =>
        dsimp only
        cases ifa.find? _ with
        | none => exact fun _ => ⟨htun, hsock⟩
        | some pifa => exact ⟨htun, hsock⟩
  exact hkeep.bind fun d' h => ⟨h.1, h.2, Or.inr rfl⟩

theorem openBsd_start_safe (mode : Mode) (tun : Int) (hctrl : Held own dev.ctrlSock) :
    (OpenBsd.tuntapSysStart dev mode tun).Safe descriptors (StartSafe dev own) own := by
  have hfail : StartSafe dev own (-1, dev) own := startSafe_failed fun _ h => h
  dsimp only [OpenBsd.tuntapSysStart]
  generalize (if mode.isPersist then mode.clearPersist else mode) = m
  refine (Prog.safe_ite _ _ _ _).mpr
    ⟨fun _ => safe_of_quiet (quiet_log ..) fun _ => hfail, fun _ => ?_⟩
  refine safe_after_quiet ?_ fun goesOn => (Prog.safe_ite _ _ _ _).mpr ⟨fun _ => hfail, fun _ => ?_⟩
  · simp [OpenBsd.forceCreation, OpenBsd.tuntapSysCreateDev, hctrl]
  · refine (openUnit_safe _ tun).bind fun o own' ho => ?_
    cases o with
    | none => exact startSafe_failed ho.1
    | some r =>
        obtain ⟨fd, unit⟩ := r
        have hopens : Opens own fd own' := ho.2 _ rfl
        have hsock : Held own' dev.ctrlSock := fun h0 => hopens.1 _ (hctrl h0)
        refine startSafe_of_quiet hopens ?_ ?_
        · simp [Bsd.checkFd, OpenBsd.configure, hsock, hopens.held]
        · simp [Bsd.checkFd, OpenBsd.configure]

theorem darwin_start_safe (mode : Mode) (tun : Int) (hctrl : Held own dev.ctrlSock) :
    (Darwin.tuntapSysStart dev mode tun).Safe descriptors (StartSafe dev own) own := by
  have hfail : StartSafe dev own (-1, dev) own := startSafe_failed fun _ h => h
  refine safe_of_quiet (quiet_uninit 32) fun ifr => ?_
  refine (Prog.safe_ite _ _ _ _).mpr
    ⟨fun _ => safe_of_quiet (quiet_log ..) fun _ => hfail, fun _ => ?_⟩
  refine (Prog.safe_ite _ _ _ _).mpr
    ⟨fun _ => safe_of_quiet (quiet_log ..) fun _ => hfail, fun _ => ?_⟩
  refine (openUnit_safe _ tun).bind fun o own' ho => ?_
  cases o with
  | none => exact startSafe_failed ho.1
  | some r =>
      obtain ⟨fd, unit⟩ := r
      have hopens : Opens own fd own' := ho.2 _ rfl
      have hsock : Held own' dev.ctrlSock := fun h0 => hopens.1 _ (hctrl h0)
      refine startSafe_of_quiet hopens ?_ ?_
      · simp [Bsd.checkFd, Darwin.configure, hsock, saveLladdr_quiet]
      · simp [Bsd.checkFd, Darwin.configure, saveLladdr_answers]

theorem tap_start_safe (tun : Int) (hctrl : Held own dev.ctrlSock) :
    (NetBsd.tuntapSysStartTap dev tun).Safe descriptors (StartSafe dev own) own := by
  have hfail : StartSafe dev own (-1, dev) own := startSafe_failed fun _ h => h
  refine safe_after_quiet ?_ fun o => ?_
  · simp [NetBsd.tapNode, NetBsd.tuntapSysCreateDev, hctrl]
  · cases o with
    | none => exact hfail
    | some name =>
        refine safe_open fun fd hfresh => ?_
        have hopens : Opens own fd (gain own fd) := Opens.gain hfresh
        have hsock : Held (gain own fd) dev.ctrlSock := fun h0 => Or.inr (hctrl h0)
        refine startSafe_of_quiet hopens ?_ ?_
        · simp [hsock, hopens.held, saveLladdr_quiet]
        · simp [saveLladdr_answers]

theorem tun_start_safe (tun : Int) (hctrl : Held own dev.ctrlSock) :
    (NetBsd.tuntapSysStartTun dev tun).Safe descriptors (StartSafe dev own) own := by
  have hopen : (NetBsd.openTun tun).Safe descriptors (Chooses own) own := by
    unfold NetBsd.openTun
    refine (Prog.safe_ite _ _ _ _).mpr ⟨fun _ => safe_open fun fd hfresh => ?_, fun _ => ?_⟩
    · exact Opens.chooses (Opens.gain hfresh)
    · exact (Prog.safe_ite _ _ _ _).mpr
        ⟨fun _ => scanned_safe _, fun _ => ⟨fun _ h => h, nofun⟩⟩
  refine hopen.bind fun o own' ho => ?_
  cases o with
  | none => exact startSafe_failed ho.1
  | some r =>
      obtain ⟨fd, unit⟩ := r
      have hopens : Opens own fd own' := ho.2 _ rfl
      have hsock : Held own' dev.ctrlSock := fun h0 => hopens.1 _ (hctrl h0)
      refine startSafe_of_quiet hopens ?_ ?_
      · simp [Bsd.checkFd, hsock]
      · simp [Bsd.checkFd]

theorem netBsd_start_safe (mode : Mode) (tun : Int) (hctrl : Held own dev.ctrlSock) :
    (NetBsd.tuntapSysStart dev mode tun).Safe descriptors (StartSafe dev own) own := by
  have hfail : StartSafe dev own (-1, dev) own := startSafe_failed fun _ h => h
  refine safe_after_quiet ?_ fun goesOn => (Prog.safe_ite _ _ _ _).mpr ⟨fun _ => hfail, fun _ => ?_⟩
  · simp [NetBsd.forceCreation, NetBsd.tuntapSysCreateDev, hctrl]
  · dsimp only
    generalize (if mode.isPersist then mode.clearPersist else mode) = m
    refine (Prog.safe_ite _ _ _ _).mpr ⟨fun _ => tap_start_safe tun hctrl, fun _ => ?_⟩
    exact (Prog.safe_ite _ _ _ _).mpr ⟨fun _ => tun_start_safe tun hctrl, fun _ => hfail⟩

/-- What a start of the system leaves. -/
theorem sysStart_safe (os : Os) (mode : Mode) (tun : Int) (hctrl : Held own dev.ctrlSock) :
    (tuntapSysStart os dev mode tun).Safe descriptors (StartSafe dev own) own := by
  cases os with
  | linux => exact tuntapSysStart_safe mode tun hctrl
  | freeBsd => exact freeBsd_start_safe mode tun hctrl
  | openBsd => exact openBsd_start_safe mode tun hctrl
  | netBsd => exact netBsd_start_safe mode tun hctrl
  | darwin => exact darwin_start_safe mode tun hctrl

end Starts

/-! ## The four that deal in descriptors -/

section Deals

variable {own : Int → Prop} {dev : Device} {os : Os}

/-- What a device owns between calls, and what not: both its descriptors once it is
started, and no socket under the number in its record while it is not. -/
def Device.OwnsExactly (dev : Device) (own : Int → Prop) : Prop :=
  dev.Owns own ∧ (dev.tunFd = -1 → 0 ≤ dev.ctrlSock → ¬ own dev.ctrlSock)

/-- The way out of a start closes the socket whose number stays in the record. -/
theorem startClean_leaves {sock : Int} (hsock : Held own sock) (hdev : dev.tunFd = -1)
    (hctrl : 0 ≤ dev.ctrlSock → dev.ctrlSock = sock ∨ ¬ own dev.ctrlSock) :
    (startClean (-1) sock dev).Safe descriptors (fun r own' => r.2.OwnsExactly own') own := by
  have hfail : ∀ own', Device.Owns dev own' := fun own' h => absurd hdev h
  simp only [startClean, ne_eq, not_true_eq_false, if_false]
  by_cases h : sock = -1
  · simp only [h, not_true_eq_false, if_false]
    exact ⟨hfail own, fun _ (h0 : 0 ≤ dev.ctrlSock) => (hctrl h0).resolve_left (by omega)⟩
  · simp only [h, not_false_eq_true, if_true]
    refine safe_close hsock fun _ => ⟨hfail _, fun _ h0 hlost => ?_⟩
    obtain ⟨hown, hne⟩ := hlost
    rcases hctrl h0 with heq | hno
    · exact hne ⟨heq ▸ h0, heq⟩
    · exact hno hown

theorem start_safe (os : Os) (mode : Mode) (tun : Int) (hown : dev.OwnsExactly own) :
    (tuntapStart os dev mode tun).Safe descriptors (fun r own' => r.2.OwnsExactly own') own := by
  unfold tuntapStart
  refine (Prog.safe_ite _ _ _ _).mpr
    ⟨fun _ => safe_of_quiet (quiet_log ..) fun _ => hown, fun hdev => ?_⟩
  have htun : dev.tunFd = -1 := not_not.mp hdev
  refine safe_socket fun sock hfresh => ?_
  have hsock : Held (gain own sock) sock := fun h0 => Or.inl ⟨h0, rfl⟩
  refine (Prog.safe_ite _ _ _ _).mpr ⟨fun hno => startClean_leaves hsock htun fun h0 => ?_,
    fun _ => ?_⟩
  · -- no socket was opened, and the number is still the old one
    exact Or.inr fun hgain => hgain.elim (fun hnew => by omega) (hown.2 htun h0)
  refine (Prog.safe_ite _ _ _ _).mpr
    ⟨fun _ => startClean_leaves hsock htun fun _ => Or.inl rfl, fun _ => ?_⟩
  refine (sysStart_safe os mode tun hsock).bind fun r own' hr => ?_
  obtain ⟨fd, dev'⟩ := r
  obtain ⟨htun', hctrl', hkeep, hfd⟩ := hr
  dsimp only at htun' hctrl' hfd ⊢
  have hsock' : Held own' sock := fun h0 => hkeep _ (hsock h0)
  refine (Prog.safe_ite _ _ _ _).mpr ⟨fun hno => ?_, fun hne => ⟨fun _ =>
    ⟨fun h0 => (hfd hne h0).1, ?_⟩, fun h => absurd h hne⟩⟩
  · rw [hno]
    exact startClean_leaves hsock' (htun'.trans htun) fun _ => Or.inl hctrl'
  · intro h0
    obtain rfl : dev'.ctrlSock = sock := hctrl'
    refine ⟨hsock' h0, fun heq : dev'.ctrlSock = fd => ?_⟩
    exact (hfd hne (heq ▸ h0)).2 (heq ▸ hsock h0)

/-- What is left for the release that follows. -/
def Released (d : Device) (own : Int → Prop) : Prop :=
  d.Owns own ∧ (d.tunFd = -1 → Held own d.ctrlSock)

/-- FreeBSD closes `tun_fd` and says so in the record. The others ask for the
interface to be destroyed, or do nothing. -/
theorem sysDestroy_safe (os : Os) (hown : dev.Owns own)
    (hctrl : dev.tunFd = -1 → Held own dev.ctrlSock) :
    (tuntapSysDestroy os dev).Safe descriptors Released own := by
  have hsock : Held own dev.ctrlSock := by
    intro h0
    by_cases hdev : dev.tunFd = -1
    · exact hctrl hdev h0
    · exact ((hown hdev).2 h0).1
  cases os with
  | linux =>
      refine safe_of_allQuiet (tuntapSysDestroy_quiet hown) (tuntapSysDestroy_keeps.mono ?_)
      rintro _ rfl
      exact ⟨hown, hctrl⟩
  | openBsd =>
      refine safe_of_allQuiet ?_ ?_
      · simp [tuntapSysDestroy, OpenBsd.tuntapSysDestroy, hsock]
      · simpa [tuntapSysDestroy, OpenBsd.tuntapSysDestroy] using ⟨hown, hctrl⟩
  | netBsd =>
      refine safe_of_allQuiet ?_ ?_
      · simp [tuntapSysDestroy, NetBsd.tuntapSysDestroy, hsock]
      · simpa [tuntapSysDestroy, NetBsd.tuntapSysDestroy] using ⟨hown, hctrl⟩
  | darwin => exact ⟨hown, hctrl⟩
  | freeBsd =>
      refine safe_close (fun h0 => (hown (by omega)).1 h0) fun _ => ?_
      have hleft : Held (lose own dev.tunFd) dev.ctrlSock := by
        intro h0
        by_cases hdev : dev.tunFd = -1
        · exact ⟨hctrl hdev h0, fun h => by omega⟩
        · exact ⟨((hown hdev).2 h0).1, fun h => ((hown hdev).2 h0).2 h.2⟩
      have hdone : Released { dev with tunFd := -1 } (lose own dev.tunFd) :=
        ⟨fun h => absurd rfl h, fun _ => hleft⟩
      refine safe_of_quiet ((quiet_ioctl ..).mpr hleft) fun r => ?_
      exact (Prog.safe_ite _ _ _ _).mpr
        ⟨fun _ => safe_of_quiet (quiet_log ..) fun _ => hdone, fun _ => hdone⟩

theorem destroy_safe (os : Os) (hown : dev.Owns own)
    (hctrl : dev.tunFd = -1 → Held own dev.ctrlSock) :
    (tuntapDestroy os dev).Safe descriptors (fun _ _ => True) own :=
  (sysDestroy_safe os hown hctrl).bind fun _ _ h => tuntapRelease_safe h.1 h.2

/-- Only Linux opens a descriptor to set an address. -/
theorem setIp_quiet {keep : Int → Prop} (hos : os ≠ .linux) (libc : Libc)
    (addr : Option CString) (netmask : Int) (hctrl : dev.tunFd ≠ -1 → Held keep dev.ctrlSock) :
    (tuntapSetIp os libc dev addr netmask).AllCalls (Quiet keep) := by
  unfold tuntapSetIp
  refine (Prog.allCalls_ite _ _ _).mpr ⟨fun _ => ⟨quiet_log .., fun _ => trivial⟩, fun hdev => ?_⟩
  have hsock := hctrl hdev
  cases addr with
  | none => exact ⟨quiet_log .., fun _ => trivial⟩
  | some addr =>
      refine (Prog.allCalls_ite _ _ _).mpr ⟨fun _ => ⟨quiet_log .., fun _ => trivial⟩, fun _ => ?_⟩
      cases libc.inetPton4 addr with
      | some baddr4 =>
          refine (netmaskWord_quiet netmask).bind fun mask => ?_
          cases os with
          | linux => exact absurd rfl hos
          | freeBsd => simp [tuntapSysSetIpv4, FreeBsd.tuntapSysSetIpv4, hsock]
          | openBsd => simp [tuntapSysSetIpv4, OpenBsd.tuntapSysSetIpv4, hsock]
          | netBsd => simp [tuntapSysSetIpv4, NetBsd.tuntapSysSetIpv4, hsock]
          | darwin => simp [tuntapSysSetIpv4, Darwin.tuntapSysSetIpv4, hsock]
      | none =>
          cases libc.inetPton6 addr with
          | none => exact ⟨quiet_log .., fun _ => trivial⟩
          | some baddr6 =>
              cases os with
              | linux => exact absurd rfl hos
              | freeBsd | openBsd | netBsd | darwin => exact ⟨quiet_log .., fun _ => trivial⟩

theorem setIp_safe (os : Os) (libc : Libc) (addr : Option CString) (netmask : Int)
    (hown : dev.OwnsExactly own) :
    (tuntapSetIp os libc dev addr netmask).Safe descriptors (fun _ own' => dev.OwnsExactly own')
      own := by
  by_cases hdev : dev.tunFd = -1
  · unfold tuntapSetIp
    rw [if_pos hdev]
    exact safe_of_quiet (quiet_log ..) fun _ => hown
  by_cases hos : os = .linux
  · rw [hos]
    exact (tuntapSetIp_safe libc addr netmask hown.1).mono fun _ _ h =>
      ⟨h, fun hno => absurd hno hdev⟩
  · refine safe_of_allQuiet (setIp_quiet hos libc addr netmask fun hdev h0 => ?_)
      (Prog.answers_of_forall (fun _ => hown) _)
    exact ((hown.1 hdev).2 h0).1

end Deals

/-! ## Operations -/

/-- A call that looks at `ctrl_sock` is made on a started device, or while the
record holds no socket number. -/
def Op.AllowedOn (os : Os) (libc : Libc) (op : Op) (dev : Device) : Prop :=
  dev.tunFd = -1 → 0 ≤ dev.ctrlSock → ¬ op.PassesCtrlSock os libc

section Operations

variable {os : Os} {libc : Libc} {dev : Device} {own : Int → Prop}

/-- A record that comes with its descriptors unchanged owns what it owned. -/
theorem Device.OwnsExactly.of_comes {fields : List Field} {r : Ret × Option Device}
    (hown : dev.OwnsExactly own) (hr : Comes fields dev r) :
    ∀ d, r.2 = some d → d.OwnsExactly own := by
  intro d hd
  refine ⟨hown.1.of_comes hr d hd, ?_⟩
  obtain ⟨d', hd', hframe⟩ := hr
  obtain rfl := Option.some.inj (hd.symm.trans hd')
  rw [hframe.tunFd, hframe.ctrlSock]
  exact hown.2

theorem Op.safe_on (op : Op) (hown : dev.OwnsExactly own) (hop : op.AllowedOn os libc dev) :
    (op.prog os libc dev).Safe descriptors
      (fun r own' => ∀ d, r.2 = some d → d.OwnsExactly own') own := by
  have hctrl : op.PassesCtrlSock os libc → dev.tunFd = -1 → Held own dev.ctrlSock :=
    fun hu hdev h0 => absurd hu (hop hdev h0)
  by_cases hdeals : op.Deals
  · cases op with
    | start mode tun =>
        refine (start_safe os mode tun hown).bind fun r own' hr d hd => ?_
        obtain rfl := Option.some.inj hd
        exact hr
    | release => exact (tuntapRelease_safe hown.1 (hctrl trivial)).bind fun _ _ _ => nofun
    | destroy => exact (destroy_safe os hown.1 (hctrl trivial)).bind fun _ _ _ => nofun
    | setIp addr netmask =>
        refine (setIp_safe os libc addr netmask hown).bind fun _ own' hr d hd => ?_
        obtain rfl := Option.some.inj hd
        exact hr
    | _ => exact hdeals.elim
  · refine safe_of_allQuiet (op.quiet_on os hdeals ?_ ?_) ?_
    · intro h0
      exact (hown.1 (by omega)).1 h0
    · intro h h0
      by_cases hdev : dev.tunFd = -1
      · exact hctrl (h.resolve_left fun hne => hne hdev) hdev h0
      · exact ((hown.1 hdev).2 h0).1
    · exact (op.record fun h => hdeals (op.deals_of_startsOrEnds h)).mono
        fun _ hr => hown.of_comes hr

variable {Q : Ret × Option Device → (Int → Prop) → Prop}

theorem release_not_safe (hdev : dev.tunFd = -1) (h0 : 0 ≤ dev.ctrlSock)
    (hn : ¬ own dev.ctrlSock) {α : Type} {S : α → (Int → Prop) → Prop} {f : Unit → Sys α} :
    ¬ (tuntapRelease dev >>= f).Safe descriptors S own := by
  unfold tuntapRelease
  rw [if_neg (not_not.mpr hdev), Prog.bind_assoc]
  exact not_safe_of_uses ⟨h0, rfl⟩ hn

theorem setHwaddrTo_not_safe (h0 : 0 ≤ dev.ctrlSock) (hn : ¬ own dev.ctrlSock) (ethAddr : Buf 6)
    {f : Int × Device → Sys (Ret × Option Device)} :
    ¬ (setHwaddrTo os dev ethAddr >>= f).Safe descriptors Q own := by
  cases os with
  | linux | freeBsd | openBsd | netBsd | darwin =>
      exact not_safe_of_uses (n := dev.ctrlSock) ⟨h0, rfl⟩ hn

theorem safe_of_log {level : Level} {msg : CString} {f : Unit → Sys (Ret × Option Device)}
    (h : ((Prog.call (Call.log level msg) : Sys Unit) >>= f).Safe descriptors Q own) :
    (f ()).Safe descriptors Q own := by
  have hf := h.2 () nofun
  rw [HandleSig.next_eq rfl rfl] at hf
  exact hf

/-- Passing a control socket that is not owned is not safe, whichever function
does it. -/
theorem Op.not_safe_on (op : Op) (hdev : dev.tunFd = -1) (h0 : 0 ≤ dev.ctrlSock)
    (hn : ¬ own dev.ctrlSock) (hu : op.PassesCtrlSock os libc) :
    ¬ (op.prog os libc dev).Safe descriptors Q own := by
  have hpass : ∀ {c : Call} {f : Resp c → Sys (Ret × Option Device)}, c.fd = some dev.ctrlSock →
      ¬ ((Prog.call c : Sys (Resp c)) >>= f).Safe descriptors Q own :=
    fun hc => not_safe_of_uses (n := dev.ctrlSock) ⟨h0, hc⟩ hn
  cases op with
  | release => exact release_not_safe hdev h0 hn
  | destroy =>
      cases os with
      | linux =>
          have huses : Op.UsesCtrlSock libc .destroy := trivial
          exact Op.not_safe .destroy hdev h0 hn huses
      | openBsd | netBsd => exact hpass rfl
      | darwin => exact release_not_safe hdev h0 hn
      | freeBsd =>
          intro h
          -- the first close is of -1, and leaves what is owned
          rcases (h.2 (0 : Int) nofun).1 dev.ctrlSock ⟨h0, rfl⟩ with hgiven | ⟨hown, -⟩
          · cases hgiven
          · exact hn hown
  | up | down => exact hpass rfl
  | setIfname ifname =>
      cases ifname with
      | none => exact hu.elim
      | some ifname =>
          obtain ⟨hos, hlen⟩ := hu
          rcases hos with rfl | rfl
          · have huses : Op.UsesCtrlSock libc (.setIfname (some ifname)) := hlen
            exact Op.not_safe (.setIfname (some ifname)) hdev h0 hn huses
          · simp only [Op.prog, tuntapSetIfname, if_neg (Nat.not_lt.mpr hlen)]
            exact hpass rfl
  | setHwaddr hwaddr =>
      simp only [Op.prog, tuntapSetHwaddr]
      by_cases hr : hwaddr = CString.lit "random"
      · simp only [if_pos hr, Prog.bind_assoc]
        intro h
        have hquiet : randomHwaddr.AllCalls (Quiet own) := randomHwaddr_quiet
        obtain ⟨ethAddr, -, h⟩ := h.after (hquiet.mono fun _ hc => hc.2)
          (Prog.answers_of_forall (fun _ => trivial) _)
        exact setHwaddrTo_not_safe h0 hn ethAddr h
      · obtain ⟨ethAddr, haton⟩ := Option.isSome_iff_exists.mp (hu.resolve_left hr)
        simp only [if_neg hr, haton]
        exact setHwaddrTo_not_safe h0 hn ethAddr
  | setDescr descr =>
      cases descr with
      | none => exact hu.elim
      | some descr =>
          -- a text that is too long is only said to be
          rcases hu with rfl | rfl
          · by_cases hlen : descr.strlen > FreeBsd.ifDescrsize
            · simp only [Op.prog, tuntapSetDescr, tuntapSysSetDescr, FreeBsd.tuntapSysSetDescr,
                if_pos hlen]
              exact fun h => hpass rfl (safe_of_log h)
            · simp only [Op.prog, tuntapSetDescr, tuntapSysSetDescr, FreeBsd.tuntapSysSetDescr,
                if_neg hlen]
              exact hpass rfl
          · by_cases hlen : descr.strlen > OpenBsd.ifdescrsize
            · simp only [Op.prog, tuntapSetDescr, tuntapSysSetDescr, OpenBsd.tuntapSysSetDescr,
                if_pos hlen]
              exact fun h => hpass rfl (safe_of_log h)
            · simp only [Op.prog, tuntapSetDescr, tuntapSysSetDescr, OpenBsd.tuntapSysSetDescr,
                if_neg hlen]
              exact hpass rfl
  | getDescr =>
      rcases hu with rfl | rfl
      · exact hpass rfl
      · exact hpass rfl
  | _ => exact hu.elim

/-- On every system an operation is safe, and leaves a device that owns its
descriptors while it is started and no socket while it is not, exactly where it is
allowed on such a device. -/
theorem Op.safe_on_iff_allowed (os : Os) (libc : Libc) (op : Op) (dev : Device)
    (own : Int → Prop) (hown : dev.OwnsExactly own) :
    (op.prog os libc dev).Safe descriptors
      (fun r own' => ∀ d, r.2 = some d → d.OwnsExactly own') own ↔ op.AllowedOn os libc dev := by
  constructor
  · intro hsafe hdev h0 hu
    exact op.not_safe_on hdev h0 (hown.2 hdev h0) hu hsafe
  · exact op.safe_on hown

end Operations

/-- After a start that failed, `tuntap_get_descr` passes the socket number that is
left on OpenBSD, and passes nothing on NetBSD. -/
theorem getDescr_safe_on_netBsd :
    (¬ (Op.getDescr.prog .openBsd Libc.refusing { Device.init with ctrlSock := 3 }).Safe descriptors
        (fun r own' => ∀ d, r.2 = some d → d.OwnsExactly own') fun _ => False) ∧
      (Op.getDescr.prog .netBsd Libc.refusing { Device.init with ctrlSock := 3 }).Safe descriptors
        (fun r own' => ∀ d, r.2 = some d → d.OwnsExactly own') fun _ => False := by
  have hown : Device.OwnsExactly { Device.init with ctrlSock := 3 } fun _ => False :=
    ⟨fun h => absurd rfl h, fun _ _ => id⟩
  constructor
  · rw [Op.safe_on_iff_allowed _ _ _ _ _ hown]
    exact fun h => h rfl (by decide) (Or.inr rfl)
  · rw [Op.safe_on_iff_allowed _ _ _ _ _ hown]
    intro _ _ hpasses
    rcases hpasses with hos | hos
    · cases hos
    · cases hos

/-! ## Runs of the library -/

/-- A device as a client of the kernel. -/
def unixClient (os : Os) (libc : Libc) : Client Call Resp Device Op where
  boot := tuntapInit
  op op dev := do
    let r ← op.prog os libc dev
    return r.2

theorem unix_discipline (os : Os) (libc : Libc) :
    World.Discipline descriptors (unixClient os libc) Device.OwnsExactly
      (Op.AllowedOn os libc) where
  boot own := by
    refine safe_of_quiet quiet_malloc fun found => ?_
    cases found with
    | false =>
        intro d hd
        cases hd
    | true =>
        intro d hd
        obtain rfl := Option.some.inj hd
        exact ⟨fun h => absurd rfl h, fun _ h0 => absurd h0 (by decide)⟩
  op op _ _ hown hop := (op.safe_on hown hop).bind fun _ _ hr d hd => hr d hd

/-- On every Unix system and in every run of any number of devices, with the host
and the kernel free to do what they like, each descriptor the library passes is
the device's own and open. -/
theorem unix_descriptors_owned {ι : Type} [DecidableEq ι] (os : Os) (libc : Libc)
    {w w' : World ι Call Resp Int Device}
    {tr : List (World ι Call Resp Int Device × Label ι Call Resp Int Op ×
      World ι Call Resp Int Device)}
    (hr : Run (World.Step descriptors (unixClient os libc)) w tr w')
    (h0 : ∀ i, w.slot i = .fresh)
    (hallowed : ∀ x ∈ tr, ∀ i op dev,
      x.2.1 = .begin i op → x.1.slot i = .idle dev → op.AllowedOn os libc dev) :
    ∀ x ∈ tr, OwnsWhatItPasses x := by
  have hdisc : World.Disciplined descriptors Device.OwnsExactly w := by
    intro i
    rw [h0 i]
    trivial
  have hsafe := World.safe_run (unix_discipline os libc) descriptors_uses_of_drops hr hdisc
    hallowed
  intro x hx i e hl n hn hfd
  exact hsafe x hx i e hl n ⟨hn, hfd⟩

/-- On FreeBSD a device is started on a tap node and destroyed, which closes the
node before the interface goes. -/
theorem unix_descriptors_owned_destroyed :
    ∃ tr w', Run (World.Step (ι := Unit) descriptors (unixClient .freeBsd Libc.refusing))
        ⟨fun _ => none, fun _ => .fresh⟩ tr w' ∧
      tr.length = 17 ∧ ∀ x ∈ tr, OwnsWhatItPasses x := by
  obtain ⟨tr, w', hr, hlen, hallowed⟩ :
      ∃ tr w', Run (World.Step (ι := Unit) descriptors (unixClient .freeBsd Libc.refusing))
          ⟨fun _ => none, fun _ => .fresh⟩ tr w' ∧
        tr.length = 17 ∧ ∀ x ∈ tr, ∀ i op dev, x.2.1 = .begin i op →
          x.1.slot i = .idle dev → op.AllowedOn .freeBsd Libc.refusing dev := by
    refine ⟨_, _,
      .cons (.create (i := ()) rfl) <|
      .cons (.event (i := ()) (r := true) rfl nofun) <|
      .cons (.finish (i := ()) rfl) <|
      .cons (.begin (i := ()) (o := .start tuntapModeEthernet 0) rfl) <|
      .cons (.event (i := ()) (r := (3 : Int)) rfl fun _ _ => rfl) <|
      .cons (.event (i := ()) (r := (4 : Int)) rfl (by intro n hn; cases hn; rfl)) <|
      .cons (.event (i := ()) (c := .ioctlGet (n := 32) 4 .tapgifname _) (r := ⟨0, Buf.zero⟩)
        rfl nofun) <|
      .cons (.event (i := ()) (c := .ioctlGet (n := 32) 3 .siocgifflags _) (r := ⟨0, Buf.zero⟩)
        rfl nofun) <|
      .cons (.event (i := ()) (c := Call.uninit 6) (r := (Buf.zero : Buf 6)) rfl nofun) <|
      .cons (.event (i := ()) (c := .ioctlGet (n := 6) 4 .siocgifaddr _) (r := ⟨0, Buf.zero⟩)
        rfl nofun) <|
      .cons (.finish (i := ()) rfl) <|
      .cons (.begin (i := ()) (o := .destroy) rfl) <|
      .cons (.event (i := ()) (c := .close 4) (r := (0 : Int)) rfl nofun) <|
      .cons (.event (i := ()) (c := .ioctl (n := 32) 3 .siocifdestroy _) (r := ⟨0, .other⟩)
        rfl nofun) <|
      .cons (.event (i := ()) (c := .close 3) (r := (0 : Int)) rfl nofun) <|
      .cons (.event (i := ()) (c := .free) (r := ()) rfl nofun) <|
      .cons (.finish (i := ()) rfl) <| .nil _, rfl, ?_⟩
    simp only [List.mem_cons, List.not_mem_nil, or_false, forall_eq_or_imp, forall_eq]
    refine ⟨?_, ?_, ?_, ?_, ?_, ?_, ?_, ?_, ?_, ?_, ?_, ?_, ?_, ?_, ?_, ?_, ?_⟩
    -- only two of the steps begin an operation
    all_goals
      intro i op dev hl hs hdev
      cases hl
    · exact fun _ => id
    · cases hs
      exact absurd hdev (by decide)
  exact ⟨tr, w', hr, hlen, unix_descriptors_owned .freeBsd Libc.refusing hr (fun _ => rfl)
    hallowed⟩

end Libtuntap
