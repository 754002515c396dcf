import Libtuntap.Proofs.Started

/-!
# How long an interface lives

On Linux an interface lives as long as a descriptor is attached to it, unless it
carries the persistent mark. So its life is told by three things: the mark, the
descriptor in the record, and the order in which a teardown sets the one and
closes the other. The mark is there after a start if the mode asks for it or if
the interface had it before, and no call between the start and the teardown
sets or clears it. `tuntap_release` closes the descriptor with the mark as it
is; `tuntap_destroy` clears the mark first.

The failed starts before the one that succeeded need no word of their own. What
they left behind is a record that is not started and some state of the kernel,
and nothing is assumed of either.
-/

namespace Libtuntap

open Effect CMem

/-- The device holds an interface: `tun_fd` is attached to it, and it exists
and is marked or not. The control socket is told apart from `tun_fd` by being a
socket. -/
structure Holding (dev : Device) (k : Kern) (i : Nat) (mark : Bool) : Prop where
  started : dev.tunFd ≠ -1
  attached : k.fds dev.tunFd = some (.tun (some i))
  sock : k.fds dev.ctrlSock = some (.socket .inet)
  iface : ∃ f, k.ifs i = some f ∧ f.persist = mark

/-! ## The start -/

section Start

variable {R : Rules} {k k' : Kern} {dev : Device} {mode : Mode} {tun fd : Int} {i : Nat}
  {f : Iface}

/-- `TUNSETPERSIST` on an attached descriptor sets or clears the mark, and
leaves the descriptors. -/
theorem Kern.Step.tunsetpersist (h : k.Attached fd i f) {v : BitVec 32} {r : IoctlRet}
    (hr : r.ret ≠ -1) (hs : Kern.Step R k (.ioctlVal fd .tunsetpersist v) r k') :
    k'.fds = k.fds ∧ ∃ f', k'.ifs i = some f' ∧ f'.persist = decide (v ≠ 0) := by
  rcases hs with ⟨hno, -⟩ | ⟨-, j, g, hg, hfds, hifs⟩
  · exact absurd hno hr
  · obtain ⟨rfl, rfl⟩ := h.unique hg
    refine ⟨hfds, { f with persist := decide (v ≠ 0) }, ?_, rfl⟩
    rw [hifs, Function.update_self]

/-- The mark is there afterwards if it was asked for or there before. -/
theorem Linux.setPersistent_wp {persist : Prop} [Decidable persist] (h : k.Attached fd i f) :
    (setPersistent fd persist).Wp (kernel R) (fun n k' => n ≠ -1 →
      ∃ f', k'.Attached fd i f' ∧ (f'.persist = true ↔ persist ∨ f.persist = true)) k := by
  unfold setPersistent
  by_cases hp : persist
  · rw [if_pos hp]
    intro r k' hs hr
    obtain ⟨hfds, f', hf', hmark⟩ := hs.tunsetpersist h hr
    refine ⟨f', ⟨?_, hf'⟩, iff_of_true ?_ (Or.inl hp)⟩
    · rw [hfds]
      exact h.1
    · rw [hmark]
      decide
  · rw [if_neg hp]
    intro _
    refine ⟨f, h, ?_⟩
    rw [or_iff_right hp]

/-- The mark of the interface a start attached. -/
def Marked (mode : Mode) (k : Kern) (r : Int × Device) (k' : Kern) : Prop :=
  r.1 ≠ -1 → ∃ i f, k'.Attached r.1 i f ∧
    (f.persist = true ↔ mode.isPersist ∨ ∃ g, k.ifs i = some g ∧ g.persist = true)

/-- `TUNSETIFF` gives a new interface no mark, and leaves an old one its own. -/
theorem Kern.Step.tunsetiff_persist {arg : Ifreq} {r : IoctlGetRet 40} (hr : r.ret ≠ -1)
    (hs : Kern.Step R k (.ioctlGet fd .tunsetiff arg) r k') :
    ∃ i f, k'.Attached fd i f ∧
      (f.persist = true ↔ ∃ g, k.ifs i = some g ∧ g.persist = true) := by
  rcases hs with ⟨hno, -⟩ | ⟨-, -, -, i, f, -, hold, -, -, hfds, hifs⟩
  · exact absurd hno hr
  · refine ⟨i, f, ⟨?_, ?_⟩, ?_⟩
    · rw [hfds, Function.update_self]
    · rw [hifs, Function.update_self]
    · rcases hold with ⟨hnone, hpersist⟩ | ⟨g, hg, -, rfl⟩
      · rw [hnone, hpersist]
        simp
      · rw [hg]
        simp

theorem Linux.tuntapSysStart_marked (hos : R.os = .linux) :
    (tuntapSysStart dev mode tun).Wp (kernel R) (Marked mode k) k := by
  have hfail : ∀ {d : Device} {t}, Marked mode k (-1, d) t := fun h => absurd rfl h
  dsimp only [tuntapSysStart]
  generalize (if mode.isPersist then mode.clearPersist else mode) = m
  refine (Prog.wp_ite _ _ _).mpr ⟨fun _ _ _ _ => hfail, fun _ => ?_⟩
  refine (Prog.wp_ite _ _ _).mpr ⟨fun _ _ _ _ => hfail, fun _ => ?_⟩
  refine (Prog.wp_call_bind _ _).mpr fun fd k₁ hopen => ?_
  refine (Prog.wp_ite _ _ _).mpr ⟨fun _ _ _ _ => hfail, fun hfd => ?_⟩
  refine (Prog.wp_ite _ _ _).mpr ⟨fun _ => hfail, fun _ => ?_⟩
  refine (Prog.wp_call_bind _ _).mpr fun r k₂ hattach => ?_
  refine (Prog.wp_ite _ _ _).mpr ⟨fun _ _ _ _ => hfail, fun hr => ?_⟩
  have hifs : k₁.ifs = k.ifs := by
    rcases hopen with ⟨hno, -⟩ | ⟨-, -, hopens⟩
    · exact absurd hno hfd
    · unfold Kern.Opens at hopens
      rw [hos] at hopens
      exact hopens.1
  obtain ⟨i, f, hatt, hmark⟩ := Kern.Step.tunsetiff_persist hr hattach
  rw [hifs] at hmark
  refine (setPersistent_wp hatt).bind fun persisted k₃ hpersist => ?_
  refine (Prog.wp_ite _ _ _).mpr ⟨fun _ _ _ _ => hfail, fun hno => ?_⟩
  obtain ⟨f', hatt', hmark'⟩ := hpersist hno
  rw [hmark] at hmark'
  -- the rest asks questions only
  have hok : ∀ d t, t = k₃ → Marked mode k (fd, d) t := by
    rintro d t rfl _
    exact ⟨i, f', hatt', hmark'⟩
  refine (Prog.wp_call_bind _ _).mpr fun rf k₄ hflags => ?_
  refine (Prog.wp_ite _ _ _).mpr ⟨fun _ _ _ _ => hfail, fun hrf => ?_⟩
  obtain ⟨rfl, -⟩ := hflags.siocgifflags hrf
  refine (Prog.wp_ite _ _ _).mpr ⟨fun _ => ?_, fun _ => hok _ _ rfl⟩
  refine (Prog.wp_call_bind _ _).mpr fun ifrHw k₅ hun => ?_
  obtain rfl : k₅ = k₄ := hun
  refine (Prog.wp_call_bind _ _).mpr fun ra k₆ haddr => ?_
  have hsame : k₆ = k₅ := by
    rcases haddr with ⟨-, h⟩ | ⟨-, h, -⟩
    · exact h
    · exact h
  refine (Prog.wp_ite _ _ _).mpr ⟨fun _ _ k₇ hlog => ?_, fun _ => hok _ _ hsame⟩
  have hquiet : k₇ = k₆ := hlog
  exact hok _ _ (hquiet.trans hsame)

/-- A start that succeeds holds an interface that is marked if the mode asks for
it or if it was marked before. -/
theorem Session.Step.start_holding {libc : Libc} {rely : Rely} {s s' : Session}
    {tr : List (Event Call Resp)} (hos : R.os = .linux)
    (hs : Session.Step R libc rely s (.call (.start mode tun) tr (.int 0)) s') :
    ∃ i mark, Holding s'.dev s'.kern i mark ∧
      (mark = true ↔ mode.isPersist ∨ ∃ g, s.kern.ifs i = some g ∧ g.persist = true) := by
  have hdev : s.dev.tunFd = -1 := by
    by_contra hne
    exact absurd (hs.restart hne) (by simp)
  obtain ⟨n, hn, hstarted⟩ := hs.start hos hdev (A := fun _ => True) fun _ _ => trivial
  obtain rfl := Ret.int.inj hn
  rcases hstarted with ⟨hno, -⟩ | ⟨-, htun, j, f, hlink, -⟩
  · exact absurd (show (0 : Int) = -1 from hno) (by decide)
  have hwp : ((Op.start mode tun).prog R.os libc s.dev).Wp (kernel R) (fun r k' =>
      ∃ n d, r = back (n, d) ∧ (n = 0 → Marked mode s.kern (d.tunFd, d) k')) s.kern := by
    rw [hos]
    refine Prog.Wp.bind (Q := fun r k' => r.1 = 0 → Marked mode s.kern (r.2.tunFd, r.2) k') ?_
      fun r k' hr => ⟨r.1, r.2, rfl, hr⟩
    have hno : (-1 : Int) ≠ 0 := by decide
    refine tuntapStart_wp hdev (fun d t _ h => absurd h hno) fun sock k₁ hsock hne => ?_
    have hifs : k₁.ifs = s.kern.ifs := by
      rcases hsock with ⟨hno, -⟩ | ⟨-, -, hifs, -⟩
      · exact absurd hno hne
      · exact hifs
    have hsys : (Linux.tuntapSysStart { s.dev with ctrlSock := sock } mode tun).Wp (kernel R)
        (Marked mode k₁) k₁ := Linux.tuntapSysStart_marked hos
    refine hsys.mono fun r k₂ hr => ⟨fun _ _ h => absurd h hno, fun _ _ => ?_⟩
    unfold Marked at hr ⊢
    rw [hifs] at hr
    exact hr
  obtain ⟨m, d, hback, hmarked⟩ := hs.of_wp hwp
  obtain ⟨hm, hd⟩ := Prod.mk.inj hback
  obtain rfl := Option.some.inj hd
  obtain ⟨i, f', hatt, hmark⟩ := hmarked (Ret.int.inj hm).symm htun
  exact ⟨i, f'.persist, ⟨htun, hatt.1, hlink.reaches.sock, f', hatt.2, rfl⟩, hmark⟩

end Start

/-! ## The calls in between -/

section Between

variable {R : Rules} {libc : Libc} {s s' : Session} {i : Nat} {mark : Bool}

theorem Op.persist_not_mem_writes (op : Op) : .persist ∉ op.writes := by
  cases op <;> simp [Op.writes]

theorem Holding.call {op : Op} {tr : List (Event Call Resp)} {ret : Ret} {rely : Rely}
    (h : Holding s.dev s.kern i mark)
    (hs : Session.Step R libc rely s (.call op tr ret) s') : Holding s'.dev s'.kern i mark := by
  obtain ⟨hd, hk⟩ := hs.frame_of_started h.started
  obtain ⟨f, hf, hmark⟩ := h.iface
  obtain ⟨f', hf', hframe⟩ := hk.ifs i f hf
  have hsame : f'.persist = f.persist := hframe .persist op.persist_not_mem_writes
  refine ⟨?_, ?_, ?_, f', hf', hsame.trans hmark⟩
  · rw [hd.tunFd]
    exact h.started
  · rw [hd.tunFd]
    exact hk.fds _ _ h.attached
  · rw [hd.ctrlSock]
    exact hk.fds _ _ h.sock

theorem Holding.others {dev : Device} {k k' : Kern} (h : Holding dev k i mark)
    (ho : OthersKeep [.persist] dev k k') : Holding dev k' i mark := by
  obtain ⟨htun, hsock, hifs⟩ := ho
  obtain ⟨f, hf, hmark⟩ := h.iface
  obtain ⟨f', hf', hsame⟩ := hifs i f ⟨h.attached, hf⟩
  have hpersist : f'.persist = f.persist := hsame .persist (List.mem_singleton_self _)
  exact ⟨h.started, htun.trans h.attached, hsock.trans h.sock, f', hf', hpersist.trans hmark⟩

theorem Holding.step {a : Act} (hs : Session.Step R libc (OthersKeep [.persist]) s a s')
    (h : Holding s.dev s.kern i mark) : Holding s'.dev s'.kern i mark := by
  cases a with
  | call op tr ret => exact h.call hs
  | others =>
      cases hs with
      | others ho => exact h.others ho

end Between

/-! ## The teardown -/

section Teardown

variable {R : Rules} {dev : Device} {k k' : Kern} {i : Nat} {mark : Bool}

/-- The mark is set or cleared wherever that is asked for. -/
def MarkGranted : Event Call Resp → Prop
  | ⟨.ioctlVal _ .tunsetpersist _, r⟩ => r.ret ≠ -1
  | _ => True

/-- Once `tun_fd` is closed the interface is there exactly if it was marked. The
control socket goes after it and takes nothing along. -/
theorem tuntapRelease_wp (hos : R.os = .linux) {A : Event Call Resp → Prop}
    (h : Holding dev k i mark) :
    (tuntapRelease dev).Wp ((kernel R).Only A)
      (fun _ k' => (k'.ifs i).isSome = mark) k := by
  unfold tuntapRelease
  rw [if_pos h.started]
  rintro r k₁ ⟨-, hfds, hleaves⟩ r' k₂ ⟨-, hfds', hleaves'⟩ _ k₃ ⟨-, hfree⟩
  obtain ⟨f, hf, hmark⟩ := h.iface
  have hne : dev.ctrlSock ≠ dev.tunFd := by
    intro heq
    have hsock := h.sock
    rw [heq, h.attached] at hsock
    cases hsock
  have hsame : k₂.ifs = k₁.ifs := by
    have hsock : k₁.fds dev.ctrlSock = some (.socket .inet) := by
      rw [hfds, Function.update_of_ne hne]
      exact h.sock
    unfold Kern.Leaves at hleaves'
    rw [hsock] at hleaves'
    exact hleaves'
  obtain rfl : k₃ = k₂ := hfree
  show (k₃.ifs i).isSome = mark
  rw [hsame]
  unfold Kern.Leaves at hleaves
  rw [h.attached] at hleaves
  rcases hleaves with ⟨⟨g, hg, hpersist⟩, hifs⟩ | ⟨hno, hifs⟩
  · obtain rfl := Option.some.inj (hf.symm.trans hg)
    rw [hifs, hf, ← hmark, hpersist]
    rfl
  · have hclear : mark = false := by
      cases mark with
      | false => rfl
      | true => exact absurd ⟨f, hf, hmark⟩ hno
    rcases hifs with hifs | ⟨hother, -⟩
    · rw [hifs, Function.update_self, hclear]
      rfl
    · exact absurd hos hother

theorem tuntapDestroy_wp (hos : R.os = .linux) (h : Holding dev k i mark) :
    (tuntapDestroy .linux dev).Wp ((kernel R).Only MarkGranted)
      (fun _ k' => (k'.ifs i).isSome = false) k := by
  have hclear : (Linux.tuntapSysDestroy dev).Wp ((kernel R).Only MarkGranted)
      (fun _ k' => Holding dev k' i false) k := by
    obtain ⟨f, hf, -⟩ := h.iface
    refine (Prog.wp_call_bind _ _).mpr fun r k₁ hs => ?_
    have hr : r.ret ≠ -1 := hs.1
    rw [if_neg hr]
    obtain ⟨hfds, f', hf', hmark⟩ := hs.2.tunsetpersist ⟨h.attached, hf⟩ hr
    refine ⟨h.started, ?_, ?_, f', hf', hmark⟩
    · rw [hfds]
      exact h.attached
    · rw [hfds]
      exact h.sock
  unfold tuntapDestroy tuntapSysDestroy
  simp only [Prog.bind_assoc, Prog.pure_eq, Prog.ret_bind]
  exact hclear.bind fun _ k₁ h₁ => tuntapRelease_wp hos h₁

end Teardown

/-- The two ways a device is given up. -/
inductive Teardown where
  | destroy
  | release

def Teardown.op : Teardown → Op
  | .destroy => .destroy
  | .release => .release

/-- The interface a start attached is there until the teardown. After
`tuntap_destroy` it is gone, and after `tuntap_release` it is there exactly if
the mode asked for persistence or it was persistent before the start. -/
theorem lifetime_follows_mark (R : Rules) (libc : Libc) (s s₁ s₂ : Session) (mode : Mode)
    (tun : Int) (trs td : List (Event Call Resp)) (tr : List (Session × Act × Session))
    (t : Teardown) (k' : Kern) (hos : R.os = .linux)
    (hs : Session.Step R libc (OthersKeep [.persist]) s (.call (.start mode tun) trs (.int 0)) s₁)
    (hr : Run (Session.Step R libc (OthersKeep [.persist])) s₁ tr s₂)
    (htd : (t.op.prog .linux libc s₂.dev).Runs td (.void, none))
    (hk : (kernel R).Steps s₂.kern td k') (hg : ∀ e ∈ td, MarkGranted e) :
    ∃ i, s₁.kern.fds s₁.dev.tunFd = some (.tun (some i)) ∧ (s₁.kern.ifs i).isSome ∧
      (∀ x ∈ tr, (x.2.2.kern.ifs i).isSome) ∧
        match t with
        | .destroy => k'.ifs i = none
        | .release => (k'.ifs i).isSome ↔
            mode.isPersist ∨ ∃ g, s.kern.ifs i = some g ∧ g.persist = true := by
  obtain ⟨i, mark, h₁, hmark⟩ := hs.start_holding hos
  obtain ⟨h₂, hall⟩ := hr.invariant (I := fun s => Holding s.dev s.kern i mark) h₁
    fun x _ hx h => Holding.step hx h
  have hexists : ∀ {dev k}, Holding dev k i mark → (k.ifs i).isSome := by
    intro dev k h
    obtain ⟨f, hf, -⟩ := h.iface
    rw [hf]
    rfl
  refine ⟨i, h₁.attached, hexists h₁, fun x hx => hexists (hall x hx).2, ?_⟩
  cases t with
  | destroy =>
      have hwp : (Op.destroy.prog .linux libc s₂.dev).Wp ((kernel R).Only MarkGranted)
          (fun _ k' => (k'.ifs i).isSome = false) s₂.kern :=
        (tuntapDestroy_wp hos h₂).bind fun _ _ h => h
      have hgone := hwp.of_runs htd (hk.only hg)
      exact Option.not_isSome_iff_eq_none.mp (Bool.eq_false_iff.mp hgone)
  | release =>
      have hwp : (Op.release.prog .linux libc s₂.dev).Wp ((kernel R).Only MarkGranted)
          (fun _ k' => (k'.ifs i).isSome = mark) s₂.kern :=
        (tuntapRelease_wp hos h₂).bind fun _ _ h => h
      have hleft := hwp.of_runs htd (hk.only hg)
      show (k'.ifs i).isSome = true ↔ _
      rw [hleft]
      exact hmark

/-- The machine after `tap0` and its two descriptors are gone. -/
def Kern.released : Kern :=
  { Kern.blank with
    fds := Function.update
      (Function.update (Kern.attached Iface.tap0 (by decide)).fds 4 none) 3 none }

/-- A release of `tap0`. -/
def releaseTap0 : List (Event Call Resp) :=
  [⟨.close 4, (0 : Int)⟩, ⟨.close 3, (0 : Int)⟩, ⟨.free, ()⟩]

theorem releaseTap0_runs (libc : Libc) :
    (Op.release.prog .linux libc Device.tap0).Runs releaseTap0 (.void, none) :=
  ⟨(0 : Int), _, rfl, (0 : Int), _, rfl, (), _, rfl, rfl, rfl⟩

theorem releaseTap0_steps {f : Iface} {hf : f.name.strlen ≤ 15} (hmark : f.persist = false) :
    (kernel (Rules.plain .linux)).Steps (Kern.attached f hf) releaseTap0 Kern.released := by
  refine ⟨{ Kern.blank with fds := Function.update (Kern.attached f hf).fds 4 none },
    ⟨rfl, Or.inr ⟨?_, Or.inl ?_⟩⟩, Kern.released, ⟨rfl, rfl⟩, _, rfl, rfl⟩
  · rintro ⟨g, hg, hpersist⟩
    obtain rfl := Option.some.inj hg
    rw [hmark] at hpersist
    cases hpersist
  · funext i
    by_cases hi : i = 0
    · rw [hi, Function.update_self]
      rfl
    · rw [Function.update_of_ne hi]
      exact (Function.update_of_ne hi _ _).symm

/-- `tap0`, started without persistence, then given another MTU and released. -/
theorem lifetime_of_tap0 : ∃ tr s₂ k',
    Run (Session.Step (Rules.plain .linux) Libc.refusing (OthersKeep [.persist]))
      ⟨Device.tap0, Kern.attached Iface.tap0 (by decide)⟩ tr s₂ ∧
    s₂.kern = Kern.attached { Iface.tap0 with mtu := 1400 } Iface.tap0_short ∧
    (Op.release.prog .linux Libc.refusing s₂.dev).Runs releaseTap0 (.void, none) ∧
    (kernel (Rules.plain .linux)).Steps s₂.kern releaseTap0 k' ∧
    ∃ i, (Kern.attached Iface.tap0 (by decide)).fds 4 = some (.tun (some i)) ∧
      ((Kern.attached Iface.tap0 (by decide)).ifs i).isSome ∧
      (∀ x ∈ tr, (x.2.2.kern.ifs i).isSome) ∧
      ((k'.ifs i).isSome ↔
        tuntapModeEthernet.isPersist ∨ ∃ g, Kern.blank.ifs i = some g ∧ g.persist = true) := by
  have hrun := Run.cons (setMtuTap0_step Libc.refusing (OthersKeep [.persist]) Iface.tap0
    Iface.tap0_short rfl 1400) (.nil _)
  have h := lifetime_follows_mark (Rules.plain .linux) Libc.refusing ⟨Device.init, Kern.blank⟩ _ _
    tuntapModeEthernet 0 startTap0 _ _ .release Kern.released rfl
    (startTap0_step Libc.refusing (OthersKeep [.persist])) hrun (releaseTap0_runs Libc.refusing)
    (releaseTap0_steps rfl) (by
      intro e he
      simp only [releaseTap0, List.mem_cons, List.not_mem_nil, or_false] at he
      rcases he with rfl | rfl | rfl <;> trivial)
  exact ⟨_, _, _, hrun, rfl, releaseTap0_runs Libc.refusing, releaseTap0_steps rfl, h⟩

end Libtuntap
