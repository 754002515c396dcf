import Libtuntap.Proofs.Lifetime
import Libtuntap.Proofs.Taken

/-!
# A whole life

From a start to its teardown, on every system. The start takes two descriptors
and one interface; the calls in between change that interface and nothing else;
the teardown gives both descriptors back. So a process that is alone on its
machine finds every descriptor and every other interface as they were, whatever
it asked for in between and whatever the kernel refused. Others may change what
they like, as long as the device keeps its descriptors and the interface its
name.

What becomes of the interface is up to the teardown. `tuntap_destroy` asks for
its end on all systems but Darwin. FreeBSD closes the descriptor before it asks,
and then the name can only be that of the same interface or of none.
-/

namespace Libtuntap

open Effect CMem

/-- What a teardown has done: both descriptors are free again. -/
structure Ended (s s' : Kern) (dev : Device) (i : Nat) : Prop where
  fds : s'.fds = Function.update (Function.update s.fds dev.tunFd none) dev.ctrlSock none
  ifs : ∀ j, j ≠ i → s'.ifs j = s.ifs j

/-- The interface is gone, or goes with its descriptor. -/
def Doomed (R : Rules) (k : Kern) (i : Nat) : Prop :=
  k.ifs i = none ∨ R.os = .linux ∧ ∃ f, k.ifs i = some f ∧ f.persist = false

/-- The request that ends an interface, or its persistence, is granted. -/
def DestroyGranted : Event Call Resp → Prop
  | ⟨.ioctlVal _ .tunsetpersist _, r⟩ => r.ret ≠ -1
  | ⟨.ioctl _ .siocifdestroy _, r⟩ => r.ret ≠ -1
  | _ => True

/-! ## The teardown -/

section Teardown

variable {R : Rules} {A : Event Call Resp → Prop} {k k₁ k₂ : Kern} {dev : Device} {fd : Int}
  {i : Nat} {f : Iface}

theorem Kern.Step.close_tun (hfd : k.fds fd = some (.tun (some i))) {r : Int}
    (hs : Kern.Step R k (.close fd) r k₁) :
    k₁.fds = Function.update k.fds fd none ∧ (∀ j, j ≠ i → k₁.ifs j = k.ifs j) ∧
      (Doomed R k i → k₁.ifs i = none) := by
  obtain ⟨hfds, hleaves⟩ := hs
  unfold Kern.Leaves at hleaves
  rw [hfd] at hleaves
  rcases hleaves with ⟨⟨g, hg, hmark⟩, hifs⟩ | ⟨-, hifs | ⟨hos, hifs⟩⟩
  · refine ⟨hfds, fun j _ => by rw [hifs], fun hdoom => ?_⟩
    rcases hdoom with hnone | ⟨-, g', hg', hclear⟩
    · rw [hifs]
      exact hnone
    · obtain rfl := Option.some.inj (hg.symm.trans hg')
      rw [hmark] at hclear
      cases hclear
  · refine ⟨hfds, fun j hj => ?_, fun _ => ?_⟩
    · rw [hifs, Function.update_of_ne hj]
    · rw [hifs, Function.update_self]
  · refine ⟨hfds, fun j _ => by rw [hifs], fun hdoom => ?_⟩
    rcases hdoom with hnone | ⟨hlinux, -⟩
    · rw [hifs]
      exact hnone
    · exact absurd hlinux hos

/-- `tun_fd` is attached and the control socket is a socket. -/
theorem Linked.sock_ne (h : Linked dev k i f) : dev.ctrlSock ≠ dev.tunFd := by
  intro heq
  have hsock := h.reaches.sock
  rw [heq, h.attached] at hsock
  cases hsock

theorem tuntapRelease_ended (hdev : dev.tunFd ≠ -1) (hne : dev.ctrlSock ≠ dev.tunFd)
    (htun : k.fds dev.tunFd = some (.tun (some i)))
    (hsock : k.fds dev.ctrlSock = some (.socket .inet)) :
    (tuntapRelease dev).Wp ((kernel R).Only A)
      (fun _ k' => Ended k k' dev i ∧ (Doomed R k i → k'.ifs i = none)) k := by
  unfold tuntapRelease
  rw [if_pos hdev]
  rintro r k₁ ⟨-, hclose⟩ r' k₂ ⟨-, hclose'⟩ _ k₃ ⟨-, hfree⟩
  obtain rfl : k₃ = k₂ := hfree
  obtain ⟨hfds, hifs, hdoom⟩ := Kern.Step.close_tun htun hclose
  have hsock₁ : k₁.fds dev.ctrlSock = some (.socket .inet) := by
    rw [hfds, Function.update_of_ne hne]
    exact hsock
  obtain ⟨hfds', hifs'⟩ := Kern.Step.close_socket hsock₁ hclose'
  refine ⟨⟨?_, fun j hj => ?_⟩, fun hd => ?_⟩
  · rw [hfds', hfds]
  · rw [hifs']
    exact hifs j hj
  · rw [hifs']
    exact hdoom hd

/-- The name of the record is that of the interface or of none, also where the
interface has gone meanwhile. -/
theorem Kern.Reaches.siocifdestroy (h : k.Reaches dev i f)
    (hifs : ∀ j, j ≠ i → k₁.ifs j = k.ifs j) {n : Nat} {arg : Buf n} (hn : Names dev n arg)
    {r : IoctlRet} (hs : Kern.Step R k₁ (.ioctl fd .siocifdestroy arg) r k₂) :
    k₂.fds = k₁.fds ∧ (∀ j, j ≠ i → k₂.ifs j = k.ifs j) ∧ (r.ret ≠ -1 → k₂.ifs i = none) := by
  rcases hs with ⟨hno, rfl⟩ | ⟨-, -, j, g, ⟨hg, hname⟩, hfds, hifs'⟩
  · exact ⟨rfl, hifs, fun hr => absurd hno hr⟩
  have hsame : j = i := by
    by_contra hj
    rw [hifs j hj] at hg
    exact hj (k.distinct j i g f hg h.iface ((hname.trans hn).trans h.name.symm))
  subst hsame
  refine ⟨hfds, fun l hl => ?_, fun _ => ?_⟩
  · rw [hifs', Function.update_of_ne hl]
    exact hifs l hl
  · rw [hifs', Function.update_self]

/-- Only the interface can have changed, and it is doomed if that was granted. -/
structure Cleared (R : Rules) (A : Event Call Resp → Prop) (i : Nat) (s s' : Kern) : Prop where
  fds : s'.fds = s.fds
  ifs : ∀ j, j ≠ i → s'.ifs j = s.ifs j
  doomed : (∀ e, A e → DestroyGranted e) → R.os ≠ .darwin → Doomed R s' i

theorem NetBsd.tuntapSysDestroy_cleared (h : Linked dev k i f) :
    (NetBsd.tuntapSysDestroy dev).Wp ((kernel R).Only A) (fun _ k' => Cleared R A i k k') k := by
  refine (Prog.wp_call_bind _ _).mpr fun r k₁ hs => ?_
  obtain ⟨hfds, hifs, hgone⟩ :=
    h.reaches.siocifdestroy (fun _ _ => rfl) (names_reqNamed (by decide)) hs.2
  have hclear : Cleared R A i k k₁ :=
    ⟨hfds, hifs, fun hA _ => Or.inl (hgone (hA _ hs.1))⟩
  refine (Prog.wp_ite _ _ _).mpr ⟨fun _ _ k₂ hlog => ?_, fun _ => hclear⟩
  obtain rfl : k₂ = k₁ := hlog.2
  exact hclear

theorem Linux.tuntapSysDestroy_cleared (hos : R.os = .linux) (h : Linked dev k i f) :
    (Linux.tuntapSysDestroy dev).Wp ((kernel R).Only A) (fun _ k' => Cleared R A i k k') k := by
  refine (Prog.wp_call_bind _ _).mpr fun r k₁ hs => ?_
  have hclear : Cleared R A i k k₁ := by
    rcases hs.2 with ⟨hno, rfl⟩ | ⟨-, j, g, hg, hput⟩
    · exact ⟨rfl, fun _ _ => rfl, fun hA _ => absurd hno (hA _ hs.1)⟩
    · obtain ⟨rfl, rfl⟩ := h.unique hg
      refine ⟨hput.1, hput.within.ifs, fun _ _ =>
        Or.inr ⟨hos, { f with persist := false }, ?_, rfl⟩⟩
      rw [hput.2, Function.update_self]
      rfl
  refine (Prog.wp_ite _ _ _).mpr ⟨fun _ _ k₂ hlog => ?_, fun _ => hclear⟩
  obtain rfl : k₂ = k₁ := hlog.2
  exact hclear

/-- The systems that ask with the descriptor still open. -/
theorem tuntapSysDestroy_cleared (hos : R.os ≠ .freeBsd) (h : Linked dev k i f) :
    (tuntapSysDestroy R.os dev).Wp ((kernel R).Only A)
      (fun d k' => d = dev ∧ Cleared R A i k k') k := by
  cases hcase : R.os with
  | linux => exact (Linux.tuntapSysDestroy_cleared hcase h).bind fun _ _ hclear => ⟨rfl, hclear⟩
  | freeBsd => exact absurd hcase hos
  | openBsd | netBsd =>
      exact (NetBsd.tuntapSysDestroy_cleared h).bind fun _ _ hclear => ⟨rfl, hclear⟩
  | darwin => exact ⟨rfl, rfl, fun _ _ => rfl, fun _ hno => absurd hcase hno⟩

/-- FreeBSD closes first and asks then. -/
theorem FreeBsd.tuntapSysDestroy_wp (h : Linked dev k i f) :
    (FreeBsd.tuntapSysDestroy dev).Wp ((kernel R).Only A) (fun d k' =>
      d = { dev with tunFd := -1 } ∧ k'.fds = Function.update k.fds dev.tunFd none ∧
        (∀ j, j ≠ i → k'.ifs j = k.ifs j) ∧
        ((∀ e, A e → DestroyGranted e) → k'.ifs i = none)) k := by
  rintro r k₁ ⟨-, hclose⟩
  obtain ⟨hfds, hifs, -⟩ := Kern.Step.close_tun h.attached hclose
  rintro r' k₂ ⟨hA, hdestroy⟩
  have hn : Names dev 32 (FreeBsd.ifreqNamed dev) := names_strlcpy (by decide)
  obtain ⟨hfds', hifs', hgone⟩ := h.reaches.siocifdestroy hifs hn hdestroy
  refine (Prog.wp_ite _ _ _).mpr ⟨fun _ _ k₃ hlog => ?_, fun _ => ?_⟩
  · obtain rfl : k₃ = k₂ := hlog.2
    exact ⟨rfl, hfds'.trans hfds, hifs', fun hgranted => hgone (hgranted _ hA)⟩
  · exact ⟨rfl, hfds'.trans hfds, hifs', fun hgranted => hgone (hgranted _ hA)⟩

theorem FreeBsd.tuntapDestroy_ended (h : Linked dev k i f) :
    (tuntapDestroy .freeBsd dev).Wp ((kernel R).Only A) (fun _ k' => Ended k k' dev i ∧
      ((∀ e, A e → DestroyGranted e) → k'.ifs i = none)) k := by
  refine (FreeBsd.tuntapSysDestroy_wp h).bind fun d k₁ hk => ?_
  obtain ⟨rfl, hfds, hifs, hgone⟩ := hk
  have hsock : k₁.fds dev.ctrlSock = some (.socket .inet) := by
    rw [hfds, Function.update_of_ne h.sock_ne]
    exact h.reaches.sock
  unfold tuntapRelease
  rw [if_neg (not_not.mpr rfl)]
  rintro r k₂ ⟨-, hclose⟩ _ k₃ ⟨-, hfree⟩
  obtain rfl : k₃ = k₂ := hfree
  obtain ⟨hfds', hifs'⟩ := Kern.Step.close_socket hsock hclose
  refine ⟨⟨?_, fun j hj => ?_⟩, fun hgranted => ?_⟩
  · rw [hfds', hfds]
  · rw [hifs']
    exact hifs j hj
  · rw [hifs']
    exact hgone hgranted

theorem tuntapDestroy_ended (hdev : dev.tunFd ≠ -1) (h : Linked dev k i f) :
    (tuntapDestroy R.os dev).Wp ((kernel R).Only A) (fun _ k' => Ended k k' dev i ∧
      ((∀ e, A e → DestroyGranted e) → R.os ≠ .darwin → k'.ifs i = none)) k := by
  by_cases hos : R.os = .freeBsd
  · rw [hos]
    exact (FreeBsd.tuntapDestroy_ended h).mono fun _ _ hk => ⟨hk.1, fun hA _ => hk.2 hA⟩
  refine (tuntapSysDestroy_cleared hos h).bind fun d k₁ hclear => ?_
  obtain ⟨rfl, hfds, hifs, hdoomed⟩ := hclear
  have htun : k₁.fds d.tunFd = some (.tun (some i)) := hfds ▸ h.attached
  have hsock : k₁.fds d.ctrlSock = some (.socket .inet) := hfds ▸ h.reaches.sock
  refine (tuntapRelease_ended hdev h.sock_ne htun hsock).mono fun _ k₂ hk => ?_
  obtain ⟨⟨hfds', hifs'⟩, hgone⟩ := hk
  refine ⟨⟨?_, fun j hj => (hifs' j hj).trans (hifs j hj)⟩, fun hA hno => hgone (hdoomed hA hno)⟩
  rw [hfds', hfds]

/-- Either way, in one statement about the operation. -/
theorem Teardown.ended {libc : Libc} (t : Teardown) (hdev : dev.tunFd ≠ -1)
    (h : Linked dev k i f) {td : List (Event Call Resp)}
    (htd : (t.op.prog R.os libc dev).Runs td (.void, none))
    (hk : (kernel R).Steps k td k₁) :
    Ended k k₁ dev i ∧ (t = .destroy → R.os ≠ .darwin → (∀ e ∈ td, DestroyGranted e) →
      k₁.ifs i = none) := by
  have hwp : (t.op.prog R.os libc dev).Wp ((kernel R).Only (· ∈ td)) (fun _ k' => Ended k k' dev i ∧
      (t = .destroy → R.os ≠ .darwin → (∀ e ∈ td, DestroyGranted e) → k'.ifs i = none)) k := by
    cases t with
    | destroy =>
        exact (tuntapDestroy_ended hdev h).bind fun _ _ hk =>
          ⟨hk.1, fun _ hno hgranted => hk.2 hgranted hno⟩
    | release =>
        exact (tuntapRelease_ended hdev h.sock_ne h.attached h.reaches.sock).bind fun _ _ hk =>
          ⟨hk.1, fun hno => by cases hno⟩
  exact hwp.of_runs htd (hk.only fun _ he => he)

end Teardown

/-! ## In between -/

/-- The device has the descriptors of this record and is linked to this interface. -/
structure Tied (d : Device) (i : Nat) (s : Session) : Prop where
  tunFd : s.dev.tunFd = d.tunFd
  ctrlSock : s.dev.ctrlSock = d.ctrlSock
  linked : ∃ f, Linked s.dev s.kern i f

section Between

variable {R : Rules} {libc : Libc} {s s' : Session} {d : Device} {i : Nat} {f : Iface}

/-- A step of such a device, which others took or which changed its interface
alone. -/
theorem Tied.step (h : Tied d i s) (hi : R.os = .linux → i < 2 ^ 31) (hd : d.tunFd ≠ -1)
    {a : Act} (hs : Session.Step R libc (OthersKeep [.name]) s a s') :
    Tied d i s' ∧ (a = .others ∨ s.kern.Within i s'.kern) := by
  obtain ⟨f, hlink⟩ := h.linked
  cases a with
  | call op tr ret =>
      have hdev : s.dev.tunFd ≠ -1 := by
        rw [h.tunFd]
        exact hd
      obtain ⟨hframe, -⟩ := hs.frame_of_started hdev
      obtain ⟨hwithin, hlink'⟩ := hs.keepsTo hi hdev hlink
      exact ⟨⟨hframe.tunFd.trans h.tunFd, hframe.ctrlSock.trans h.ctrlSock, hlink'⟩, Or.inr hwithin⟩
  | others =>
      cases hs with
      | others ho =>
          obtain ⟨f', hlink', -⟩ := hlink.others ho (List.mem_singleton_self _)
          exact ⟨⟨h.tunFd, h.ctrlSock, f', hlink'⟩, Or.inl rfl⟩

/-- Both descriptors were free, and are again. -/
theorem Began.ended {k t u k' : Kern} (hb : Began k t d i f) (hw : t.Within i u)
    (he : Ended u k' d i) : k'.fds = k.fds ∧ ∀ j, j ≠ i → k'.ifs j = k.ifs j := by
  refine ⟨?_, fun j hj => ?_⟩
  · rw [he.fds, hw.fds, hb.fds]
    funext fd
    by_cases hsock : fd = d.ctrlSock
    · rw [hsock, Function.update_self]
      exact hb.sockFree.symm
    · rw [Function.update_of_ne hsock]
      by_cases htun : fd = d.tunFd
      · rw [htun, Function.update_self]
        exact hb.tunFree.symm
      · rw [Function.update_of_ne htun, Function.update_of_ne htun, Function.update_of_ne hsock]
  · rw [he.ifs j hj, hw.ifs j hj, hb.ifs j hj]

end Between

/-- A start that succeeds takes two free descriptors and links the device to one
interface. Every call from then on changes that interface alone, whatever others
do, and a teardown frees both descriptors. If no others act, all descriptors and
all other interfaces are in the end what they were before the start. A
`tuntap_destroy` whose requests are granted leaves no interface, except on
Darwin. -/
theorem life_on_one_interface (R : Rules) (libc : Libc) (s s₁ s₂ : Session) (mode : Mode)
    (tun : Int) (trs td : List (Event Call Resp)) (tr : List (Session × Act × Session))
    (t : Teardown) (k' : Kern) (hzero : R.os ≠ .linux → s.kern.fds 0 ≠ none)
    (hs : Session.Step R libc (OthersKeep [.name]) s (.call (.start mode tun) trs (.int 0)) s₁)
    (hr : Run (Session.Step R libc (OthersKeep [.name])) s₁ tr s₂)
    (htd : (t.op.prog R.os libc s₂.dev).Runs td (.void, none))
    (hk : (kernel R).Steps s₂.kern td k') :
    ∃ i f, Began s.kern s₁.kern s₁.dev i f ∧ ((R.os = .linux → i < 2 ^ 31) →
      (∀ x ∈ tr, x.2.1 = .others ∨ x.1.kern.Within i x.2.2.kern) ∧
      Ended s₂.kern k' s₁.dev i ∧
      ((∀ x ∈ tr, x.2.1 ≠ .others) →
        k'.fds = s.kern.fds ∧ ∀ j, j ≠ i → k'.ifs j = s.kern.ifs j) ∧
      (t = .destroy → R.os ≠ .darwin → (∀ e ∈ td, DestroyGranted e) → k'.ifs i = none)) := by
  obtain ⟨i, f, hbegan⟩ := hs.start_began hzero
  refine ⟨i, f, hbegan, fun hi => ?_⟩
  have hstep : ∀ x : Session × Act × Session, Session.Step R libc (OthersKeep [.name]) x.1 x.2.1
      x.2.2 → Tied s₁.dev i x.1 → Tied s₁.dev i x.2.2 ∧
        (x.2.1 = .others ∨ x.1.kern.Within i x.2.2.kern) :=
    fun x hx h => h.step hi hbegan.started hx
  obtain ⟨htied, hall⟩ := hr.invariant (I := Tied s₁.dev i) ⟨rfl, rfl, f, hbegan.linked⟩
    fun x _ hx h => (hstep x hx h).1
  have hwithin : ∀ x ∈ tr, x.2.1 = .others ∨ x.1.kern.Within i x.2.2.kern := fun x hx =>
    (hstep x (hr.step_of_mem x hx) (hall x hx).1).2
  obtain ⟨f₂, hlink₂⟩ := htied.linked
  have hdev₂ : s₂.dev.tunFd ≠ -1 := by
    rw [htied.tunFd]
    exact hbegan.started
  obtain ⟨⟨hfds, hifs⟩, hgone⟩ := t.ended hdev₂ hlink₂ htd hk
  rw [htied.tunFd, htied.ctrlSock] at hfds
  have hended : Ended s₂.kern k' s₁.dev i := ⟨hfds, hifs⟩
  refine ⟨hwithin, hended, fun halone => hbegan.ended ?_ hended, hgone⟩
  exact (hr.invariant (I := fun s => s₁.kern.Within i s.kern) (.refl _) fun x hx _ h =>
    h.trans ((hwithin x hx).resolve_left (halone x hx))).1

/-- `tap0`, started, given another MTU and released. -/
theorem life_of_tap0 : ∃ tr s₂,
    Run (Session.Step (Rules.plain .linux) Libc.refusing (OthersKeep [.name]))
      ⟨Device.tap0, Kern.attached Iface.tap0 (by decide)⟩ tr s₂ ∧
    s₂.kern = Kern.attached { Iface.tap0 with mtu := 1400 } Iface.tap0_short ∧
    (Op.release.prog .linux Libc.refusing s₂.dev).Runs releaseTap0 (.void, none) ∧
    (kernel (Rules.plain .linux)).Steps s₂.kern releaseTap0 Kern.released ∧
    Kern.released.fds = Kern.blank.fds ∧
      ∀ j, j ≠ 0 → Kern.released.ifs j = Kern.blank.ifs j := by
  have hrun := Run.cons (setMtuTap0_step Libc.refusing (OthersKeep [.name]) Iface.tap0
    Iface.tap0_short rfl 1400) (.nil _)
  obtain ⟨i, f, hbegan, hlife⟩ := life_on_one_interface (Rules.plain .linux) Libc.refusing
    ⟨Device.init, Kern.blank⟩ _ _ tuntapModeEthernet 0 startTap0 _ _ .release Kern.released
    (fun hno => absurd rfl hno) (startTap0_step Libc.refusing (OthersKeep [.name])) hrun
    (releaseTap0_runs Libc.refusing) (releaseTap0_steps rfl)
  have hattached : some (Desc.tun (some 0)) = some (.tun (some i)) := hbegan.linked.attached
  cases hattached
  obtain ⟨-, -, halone, -⟩ := hlife fun _ => by decide
  refine ⟨_, _, hrun, rfl, releaseTap0_runs Libc.refusing, releaseTap0_steps rfl, halone ?_⟩
  intro x hx
  obtain rfl := List.mem_singleton.mp hx
  exact fun hno => by cases hno

end Libtuntap
