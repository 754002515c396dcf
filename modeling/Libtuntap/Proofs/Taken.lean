import Libtuntap.CMem.Format
import Libtuntap.Proofs.Confined

/-!
# What a start takes

A start that succeeds takes a socket, a descriptor and an interface, and leaves
everything else of the machine as it was. On Linux the interface is made by the
request that attaches the descriptor. Elsewhere it goes with the path that was
opened, and may have been created under its name before. That it is the same
interface in both cases, and the one whose name the record ends up with, follows
from names: no two interfaces have the same.

The scan for a free unit takes `open` for refused when it answers 0, and goes on.
A process whose descriptor 0 is in use never sees that answer.
-/

namespace Libtuntap

open Effect CMem

/-- A descriptor was opened on an interface, and nothing else has changed. -/
structure Kern.Took (s s' : Kern) (fd : Int) (i : Nat) (f : Iface) : Prop where
  free : s.fds fd = none
  fds : s'.fds = Function.update s.fds fd (some (.tun (some i)))
  ifs : ∀ j, j ≠ i → s'.ifs j = s.ifs j
  iface : s'.ifs i = some f

/-- Nothing has changed, unless an interface was made under this name. -/
def Kern.Made (s s' : Kern) (name : CString) : Prop :=
  s' = s ∨ ∃ i f, s.ifs i = none ∧ f.name = name.take 15 ∧ s.Put s' i f

section Takes

variable {R : Rules} {s t u : Kern} {fd tun : Int} {i : Nat} {f g : Iface} {name : CString}

theorem Kern.Took.put (h : s.Took t fd i f) (hput : t.Put u i g) : s.Took u fd i g where
  free := h.free
  fds := hput.1.trans h.fds
  ifs j hj := (hput.within.ifs j hj).trans (h.ifs j hj)
  iface := by
    rw [hput.2, Function.update_self]

theorem Kern.Took.attached (h : s.Took t fd i f) : t.Attached fd i f := by
  refine ⟨?_, h.iface⟩
  rw [h.fds, Function.update_self]

theorem Kern.Took.sock (h : s.Took t fd i f) {sock : Int} {d : Desc}
    (hsock : s.fds sock = some d) : t.fds sock = some d := by
  have hne : sock ≠ fd := by
    rintro rfl
    rw [h.free] at hsock
    cases hsock
  rw [h.fds, Function.update_of_ne hne]
  exact hsock

/-- A request to create is refused or makes an interface. -/
theorem Kern.Made.of_create {fd : Int} {req : Request} {r : IoctlRet}
    (hreq : req = .siocifcreate ∨ req = .siocifcreate2)
    (hs : Kern.Step R s (.ioctl fd req ((Buf.zero : BsdIfreq).strlcpy 0 name 16)) r t) :
    (r.ret = -1 ∧ t = s) ∨ r.ret = 0 ∧ s.Made t name := by
  have hname : (ifrName ((Buf.zero : BsdIfreq).strlcpy 0 name 16)).cstr.take 15 = name.take 15 := by
    unfold ifrName
    rw [Buf.cstr_slice_strlcpy _ (by decide) (by decide) (by decide), CString.take_take]
    rfl
  rcases hs with hno | ⟨hr, hs⟩
  · exact Or.inl hno
  · refine Or.inr ⟨hr, Or.inr ?_⟩
    rcases hreq with rfl | rfl
    · obtain ⟨-, i, f, hfree, hf, hput⟩ := hs
      exact ⟨i, f, hfree, hf.trans hname, hput⟩
    · obtain ⟨-, i, f, hfree, hf, hput⟩ := hs
      exact ⟨i, f, hfree, hf.trans hname, hput⟩

theorem Kern.Made.fds (h : s.Made t name) : t.fds = s.fds := by
  rcases h with rfl | ⟨i, f, -, -, hput⟩
  · rfl
  · exact hput.1

/-- It cannot be made twice. -/
theorem Kern.Made.again (h : s.Made t name) (h' : t.Made u name) : s.Made u name := by
  rcases h with rfl | ⟨i, f, hfree, hf, hput⟩
  · exact h'
  · rcases h' with rfl | ⟨j, g, hfree', hg, hput'⟩
    · exact Or.inr ⟨i, f, hfree, hf, hput⟩
    · have hi : t.ifs i = some f := by
        rw [hput.2, Function.update_self]
      have hne : i ≠ j := by
        rintro rfl
        rw [hi] at hfree'
        cases hfree'
      have hui : u.ifs i = some f := by
        rw [hput'.2, Function.update_of_ne hne]
        exact hi
      have huj : u.ifs j = some g := by
        rw [hput'.2, Function.update_self]
      exact absurd (u.distinct i j f g hui huj (hf.trans hg.symm)) hne

/-- The path of a unit leads to the interface of that name. -/
theorem Kern.Opens.of_unit {type : CString} (htype : type = CString.lit "tap" ∨
    type = CString.lit "tun") (hos : R.os ≠ .linux)
    (h : s.Opens R (Bsd.devNode type tun) fd t) :
    ∃ i f, f.name = type ++ CString.int tun ∧ t.ifs = Function.update s.ifs i (some f) ∧
      t.fds = Function.update s.fds fd (some (.tun (some i))) := by
  have hpath : Bsd.devNode type tun = CString.lit "/dev/" ++ (type ++ CString.int tun) :=
    CString.append_assoc _ _ _
  have hlong : Bsd.devNode type tun ≠ CString.lit "/dev/tap" := by
    intro heq
    have hlen := congrArg CString.strlen heq
    rw [hpath, CString.strlen_append, CString.strlen_append] at hlen
    have htype3 : type.strlen = 3 := by
      rcases htype with rfl | rfl <;> rfl
    have hpos := CString.strlen_int_pos tun
    have h5 : (CString.lit "/dev/").strlen = 5 := rfl
    have h8 : (CString.lit "/dev/tap").strlen = 8 := rfl
    omega
  unfold Kern.Opens at h
  split at h
  next hlinux => exact absurd hlinux hos
  next =>
    obtain ⟨i, f, hname, -, hifs, hfds⟩ := h
    refine ⟨i, f, ?_, hifs, hfds⟩
    rcases hname with hname | htap
    · rw [hpath] at hname
      exact (CString.append_left_cancel hname).symm
    · exact absurd htap hlong

/-- Whatever was opened, only its interface can have changed. -/
theorem Kern.Opens.took {path : CString} (hos : R.os ≠ .linux) (hfree : s.fds fd = none)
    (h : s.Opens R path fd t) : ∃ i f, s.Took t fd i f := by
  unfold Kern.Opens at h
  split at h
  next hlinux => exact absurd hlinux hos
  next =>
    obtain ⟨i, f, -, -, hifs, hfds⟩ := h
    refine ⟨i, f, hfree, hfds, fun j hj => ?_, ?_⟩
    · rw [hifs, Function.update_of_ne hj]
    · rw [hifs, Function.update_self]

/-- What is opened under a name is what was made under it. -/
theorem Kern.Made.took (hm : s.Made t name) (hfree : t.fds fd = none)
    (hifs : u.ifs = Function.update t.ifs i (some f))
    (hfds : u.fds = Function.update t.fds fd (some (.tun (some i)))) (hname : f.name = name) :
    s.Took u fd i f := by
  have hui : u.ifs i = some f := by
    rw [hifs, Function.update_self]
  have hshort : name.strlen ≤ 15 := hname ▸ u.short i f hui
  refine ⟨?_, ?_, fun j hj => ?_, hui⟩
  · rw [← hm.fds]
    exact hfree
  · rw [hfds, hm.fds]
  · rw [hifs, Function.update_of_ne hj]
    rcases hm with rfl | ⟨l, g, -, hg, hput⟩
    · rfl
    · rw [hput.2]
      refine Function.update_of_ne ?_ ..
      rintro rfl
      have huj : u.ifs j = some g := by
        rw [hifs, Function.update_of_ne hj, hput.2, Function.update_self]
      rw [CString.take_of_strlen_le hshort] at hg
      exact hj (u.distinct j i g f huj hui (hg.trans hname.symm))

end Takes

/-! ## The pieces of a start -/

/-- A descriptor came back, opened on the interface the record has the name of. -/
def SysTook (dev : Device) (k : Kern) (r : Int × Device) (k' : Kern) : Prop :=
  r.1 ≠ -1 → ∃ i f, k.Took k' r.1 i f ∧ k'.Reaches r.2 i f ∧ r.2.ctrlSock = dev.ctrlSock

/-- The path of a unit was opened, or nothing was. -/
def OpenedUnit (R : Rules) (type : CString) (k : Kern) (p : Int × Int) (k' : Kern) : Prop :=
  p.1 = -1 ∨ k.fds p.1 = none ∧ k.Opens R (Bsd.devNode type p.2) p.1 k'

section Pieces

variable {R : Rules} {k k₁ : Kern} {dev d : Device} {mode : Mode} {tun : Int} {type : CString}
  {fd : Int} {i : Nat} {f : Iface}

theorem SysTook.refused {k' : Kern} : SysTook dev k (-1, d) k' := fun h => absurd rfl h

/-- A check that ends the start with a message. -/
theorem took_check {p : Prop} [Decidable p] {level : Level} {msg : CString}
    {q : Sys (Int × Device)} (h : ¬ p → q.Wp (kernel R) (SysTook dev k) k₁) :
    (if p then Prog.call (Call.log level msg) >>= fun _ => Prog.ret (-1, d) else q).Wp
      (kernel R) (SysTook dev k) k₁ :=
  (Prog.wp_ite _ _ _).mpr ⟨fun _ _ _ _ => .refused, h⟩

/-- What is asked at the end leaves the descriptor and the name. -/
theorem took_of_idles (ht : k.Took k₁ fd i f) (hr : k₁.Reaches d i f)
    (hctrl : d.ctrlSock = dev.ctrlSock) {p : Sys (Int × Device)} (hp : p.AllCalls (Idles R))
    (hA : p.Answers fun r => r.1 ≠ -1 →
      r.1 = fd ∧ r.2.ctrlSock = d.ctrlSock ∧ r.2.ifName = d.ifName) :
    p.Wp (kernel R) (SysTook dev k) k₁ := by
  refine (idle_wp hp hA).mono fun r k' hrk hne => ?_
  obtain ⟨hanswer, rfl⟩ := hrk
  obtain ⟨hfd, hsock, hname⟩ := hanswer hne
  refine ⟨i, f, hfd ▸ ht, ⟨?_, hr.iface, ?_⟩, hsock.trans hctrl⟩
  · rw [hsock]
    exact hr.sock
  · rw [hname]
    exact hr.name

/-- The record takes the name of the interface. -/
theorem Kern.Took.named (ht : k.Took k₁ fd i f)
    (hsock : k.fds dev.ctrlSock = some (.socket .inet)) (hctrl : d.ctrlSock = dev.ctrlSock)
    (hname : d.ifName.cstr.take 15 = f.name) : k₁.Reaches d i f := by
  refine ⟨?_, ht.iface, hname.symm⟩
  rw [hctrl]
  exact ht.sock hsock

theorem take_cstr_copied (ifName : Buf 17) {s : CString} (hs : s.strlen ≤ 15) :
    (ifName.strlcpy 0 s 17).cstr.take 15 = s := by
  rw [cstr_copied, CString.take_take]
  exact CString.take_of_strlen_le hs

@[simp] theorem idles_getifaddrs : Idles R .getifaddrs := fun _ _ _ h => h

theorem Bsd.saveLladdr_idles : (Bsd.saveLladdr dev).AllCalls (Idles R) := by
  refine (Prog.allCalls_call_bind _ _).mpr ⟨idles_getifaddrs, fun ifa => ?_⟩
  cases ifa with
  | none => trivial
  | some ifa =>
      dsimp only
      split
      · trivial
      · simp

theorem Bsd.saveLladdr_answers : (Bsd.saveLladdr dev).Answers fun d =>
    d.ctrlSock = dev.ctrlSock ∧ d.ifName = dev.ifName := by
  refine (Prog.answers_call_bind _ _).mpr fun ifa => ?_
  cases ifa with
  | none => exact ⟨rfl, rfl⟩
  | some ifa =>
      dsimp only
      split
      · exact ⟨rfl, rfl⟩
      · simp

theorem Bsd.saveLladdr_took (ht : k.Took k₁ fd i f) (hr : k₁.Reaches d i f)
    (hctrl : d.ctrlSock = dev.ctrlSock) :
    (Bsd.saveLladdr d >>= fun d => Prog.ret (fd, d)).Wp (kernel R) (SysTook dev k) k₁ :=
  took_of_idles ht hr hctrl (Bsd.saveLladdr_idles.bind fun _ => trivial)
    (Bsd.saveLladdr_answers.bind fun _ hd _ => ⟨rfl, hd⟩)

/-- The scan opens the first unit it can. -/
theorem Bsd.scanUnits_opens (hzero : k.fds 0 ≠ none) (n : Nat) :
    (Bsd.scanUnits type n tun (-1)).Wp (kernel R) (OpenedUnit R type k) k := by
  induction n generalizing tun with
  | zero => exact Or.inl rfl
  | succ n ih =>
      refine (Prog.wp_call_bind _ _).mpr fun fd k₁ hopen => ?_
      rcases hopen with ⟨rfl, rfl⟩ | ⟨h0, hfree, hopens⟩
      · rw [if_neg (show ¬ (-1 : Int) > 0 by decide)]
        exact ih
      · have hne : fd ≠ 0 := by
          rintro rfl
          exact hzero hfree
        rw [if_pos (lt_of_le_of_ne h0 (Ne.symm hne))]
        exact Or.inr ⟨hfree, hopens⟩

theorem Bsd.open_opens {β : Type} {g : Int × Int → β} {Q : β → Kern → Prop}
    (hQ : ∀ fd k', OpenedUnit R type k (fd, tun) k' → Q (g (fd, tun)) k') :
    (openRdwr (Bsd.devNode type tun) >>= fun fd => Prog.ret (g (fd, tun))).Wp (kernel R) Q k := by
  refine (Prog.wp_call_bind _ _).mpr fun fd k₁ hopen => hQ fd k₁ ?_
  rcases hopen with ⟨hno, -⟩ | ⟨-, hfree, hopens⟩
  · exact Or.inl hno
  · exact Or.inr ⟨hfree, hopens⟩

/-- The unit that was opened; the one asked for, if one was. -/
theorem Bsd.openUnit_opens (hzero : k.fds 0 ≠ none) :
    (Bsd.openUnit type tun).Wp (kernel R) (fun r k' => ∀ p, r = some p →
      OpenedUnit R type k p k' ∧ (tun ≠ tuntapIdAny → p.2 = tun)) k := by
  unfold Bsd.openUnit
  refine (Prog.wp_ite _ _ _).mpr ⟨fun _ => ?_, fun _ => (Prog.wp_ite _ _ _).mpr
    ⟨fun hany => ?_, fun _ _ _ _ p hp => absurd hp (by simp)⟩⟩
  · refine Bsd.open_opens fun fd k' h p hp => ?_
    obtain rfl := Option.some.inj hp
    exact ⟨h, fun _ => rfl⟩
  · refine (Bsd.scanUnits_opens hzero _).bind fun found k' h p hp => ?_
    obtain rfl := Option.some.inj hp
    exact ⟨h, fun hne => absurd hany hne⟩

theorem NetBsd.openTun_opens (hzero : k.fds 0 ≠ none) :
    (NetBsd.openTun tun).Wp (kernel R) (fun r k' => ∀ p, r = some p →
      OpenedUnit R (CString.lit "tun") k p k' ∧ (tun ≠ tuntapIdAny → p.2 = tun)) k := by
  unfold NetBsd.openTun
  refine (Prog.wp_ite _ _ _).mpr ⟨fun _ => ?_, fun _ => (Prog.wp_ite _ _ _).mpr
    ⟨fun hany => ?_, fun _ p hp => absurd hp (by simp)⟩⟩
  · refine Bsd.open_opens fun fd k' h p hp => ?_
    obtain rfl := Option.some.inj hp
    exact ⟨h, fun _ => rfl⟩
  · refine (Bsd.scanUnits_opens hzero _).bind fun found k' h p hp => ?_
    obtain rfl := Option.some.inj hp
    exact ⟨h, fun hne => absurd hany hne⟩

/-- What was opened under the path of a unit, after its interface may have been
made. -/
theorem Kern.Made.opened {k₂ : Kern} {p : Int × Int} (hos : R.os ≠ .linux)
    (htype : type = CString.lit "tap" ∨ type = CString.lit "tun")
    (hm : k.Made k₁ (type ++ CString.int p.2)) (ho : OpenedUnit R type k₁ p k₂)
    (hne : p.1 ≠ -1) : ∃ i f, f.name = type ++ CString.int p.2 ∧ k.Took k₂ p.1 i f := by
  obtain ⟨hfree, hopens⟩ := ho.resolve_left hne
  obtain ⟨i, f, hname, hifs, hfds⟩ := hopens.of_unit htype hos
  exact ⟨i, f, hname, hm.took hfree hifs hfds hname⟩

/-- The flags set back go to the interface whose flags were asked for. -/
theorem Kern.Took.flagged {k₂ : Kern} {n : Nat} {arg : Buf n} {r : IoctlRet}
    (ht : k.Took k₁ fd i f) (hr : k₁.Reaches d i f) (hn : Names d n arg)
    (hs : Kern.Step R k₁ (.ioctl d.ctrlSock .siocsifflags arg) r k₂) :
    ∃ g, k.Took k₂ fd i g ∧ k₂.Reaches d i g := by
  rcases hs with ⟨-, rfl⟩ | ⟨-, hs⟩
  · exact ⟨f, ht, hr⟩
  · have hput := hr.alters hn hs
    exact ⟨_, ht.put hput, hr.put hput rfl⟩

end Pieces

/-! ## The back ends -/

section BackEnds

variable {R : Rules} {k k₁ : Kern} {dev : Device} {mode : Mode} {tun : Int} {fd : Int} {i : Nat}
  {f : Iface} {type : CString}

theorem FreeBsd.createDev_made (unit : Int) :
    (FreeBsd.tuntapSysCreateDev dev type unit).Wp (kernel R) (fun n k' =>
      (n ≠ 1 → k' = k) ∧ k.Made k' (type ++ CString.int unit)) k := by
  refine (Prog.wp_call_bind _ _).mpr fun r k' hs => ?_
  rcases Kern.Made.of_create (Or.inr rfl) hs with ⟨hr, rfl⟩ | ⟨hr, hm⟩
  · rw [if_pos (by rw [hr]; decide)]
    exact (Prog.wp_ite _ _ _).mpr ⟨fun _ => ⟨fun _ => rfl, Or.inl rfl⟩,
      fun _ => ⟨fun _ => rfl, Or.inl rfl⟩⟩
  · rw [if_neg (by rw [hr]; decide)]
    exact ⟨fun hne => absurd rfl hne, hm⟩

theorem FreeBsd.createLoop_made (n : Nat) (unit : Int) :
    (FreeBsd.createLoop dev type n unit).Wp (kernel R) (fun r k' =>
      ∀ u, r = some u → k.Made k' (type ++ CString.int u)) k := by
  induction n generalizing unit with
  | zero => exact fun u _ => Or.inl rfl
  | succ n ih =>
      refine (FreeBsd.createDev_made unit).bind fun result k' hresult => ?_
      obtain ⟨hsame, hm⟩ := hresult
      refine (Prog.wp_ite _ _ _).mpr ⟨fun _ _ _ _ u hu => absurd hu (by simp), fun _ => ?_⟩
      refine (Prog.wp_ite _ _ _).mpr ⟨fun hzero => ?_, fun _ u hu => ?_⟩
      · obtain rfl := hsame (by omega)
        exact ih (unit + 1)
      · obtain rfl := Option.some.inj hu
        exact hm

theorem FreeBsd.createIfRequired_made {persist : Prop} [Decidable persist] :
    (FreeBsd.createIfRequired dev type persist tun).Wp (kernel R) (fun r k' =>
      ∀ u, r = some u → k.Made k' (type ++ CString.int u)) k := by
  have hno : ∀ {k'} u, none = some u → k.Made k' (type ++ CString.int u) :=
    fun u hu => absurd hu (by simp)
  unfold FreeBsd.createIfRequired
  refine (Prog.wp_ite _ _ _).mpr ⟨fun _ => (Prog.wp_ite _ _ _).mpr ⟨fun _ => ?_, fun _ => ?_⟩,
    fun _ => (Prog.wp_ite _ _ _).mpr ⟨fun _ => ?_, fun _ _ _ _ => hno⟩⟩
  · refine (FreeBsd.createDev_made tun).bind fun result k' hresult => ?_
    refine (Prog.wp_ite _ _ _).mpr ⟨fun _ _ _ _ => hno, fun _ => ?_⟩
    refine (Prog.wp_ite _ _ _).mpr ⟨fun _ _ _ _ => hno, fun _ u hu => ?_⟩
    obtain rfl := Option.some.inj hu
    exact hresult.2
  · exact fun u _ => Or.inl rfl
  · exact FreeBsd.createLoop_made _ 0

theorem ifname_cases (m : Mode) :
    CString.lit (if m = tuntapModeEthernet then "tap" else "tun") = CString.lit "tap" ∨
      CString.lit (if m = tuntapModeEthernet then "tap" else "tun") = CString.lit "tun" := by
  split
  · exact Or.inl rfl
  · exact Or.inr rfl

/-- The name the kernel answers is that of the interface the descriptor is on. -/
theorem gifname_named {req : Request} (hreq : req = .tapgifname ∨ req = .tungifname)
    {arg : BsdIfreq} {r : IoctlGetRet 32} {k₂ : Kern} (ht : k.Took k₁ fd i f) (hr : r.ret ≠ -1)
    (hs : Kern.Step R k₁ (.ioctlGet fd req arg) r k₂) :
    k₂ = k₁ ∧ (ifrName r.arg).cstr = f.name := by
  rcases hs with ⟨hno, -⟩ | ⟨-, hs⟩
  · exact absurd hno hr
  · rcases hreq with rfl | rfl
    · obtain ⟨hk, j, g, hg, hname⟩ := hs
      obtain ⟨-, rfl⟩ := ht.attached.unique hg
      exact ⟨hk, hname⟩
    · obtain ⟨hk, j, g, hg, hname⟩ := hs
      obtain ⟨-, rfl⟩ := ht.attached.unique hg
      exact ⟨hk, hname⟩

theorem FreeBsd.tuntapSysStart_took (hos : R.os ≠ .linux)
    (hsock : k.fds dev.ctrlSock = some (.socket .inet)) :
    (FreeBsd.tuntapSysStart dev mode tun).Wp (kernel R) (SysTook dev k) k := by
  dsimp only [FreeBsd.tuntapSysStart]
  generalize (if mode.isPersist then mode.clearPersist else mode) = m
  refine took_check fun _ => ?_
  have htype := ifname_cases m
  refine FreeBsd.createIfRequired_made.bind fun unit k₁ hmade => ?_
  cases unit with
  | none => exact .refused
  | some unit =>
      refine (Prog.wp_call_bind _ _).mpr fun fd k₂ hopen => ?_
      refine took_check fun hfd => ?_
      have hopened : OpenedUnit R (CString.lit (if m = tuntapModeEthernet then "tap" else "tun")) k₁
          (fd, unit) k₂ := by
        rcases hopen with ⟨hno, -⟩ | ⟨-, hfree, hopens⟩
        · exact absurd hno hfd
        · exact Or.inr ⟨hfree, hopens⟩
      obtain ⟨i, f, -, ht⟩ := (hmade unit rfl).opened (p := (fd, unit)) hos htype hopened hfd
      refine (Prog.wp_call_bind _ _).mpr fun r k₃ hname => ?_
      refine took_check fun hr => ?_
      have hreq : (if m = tuntapModeEthernet then Request.tapgifname else .tungifname) =
          .tapgifname ∨ (if m = tuntapModeEthernet then Request.tapgifname else .tungifname) =
          .tungifname := by
        split
        · exact Or.inl rfl
        · exact Or.inr rfl
      obtain ⟨rfl, hcstr⟩ := gifname_named hreq ht hr hname
      have hshort : (ifrName r.arg).cstr.strlen ≤ 15 := hcstr ▸ k₃.short i f ht.iface
      have hreach := ht.named (d := { dev with
          ifName := dev.ifName.strlcpy 0 (ifrName r.arg).cstr 17 }) hsock rfl
        ((take_cstr_copied _ hshort).trans hcstr)
      exact took_of_idles ht hreach rfl (by simp) (by simp)

/-- The record with the name of a request. -/
def Device.named {n : Nat} (dev : Device) (arg : Buf n) : Device :=
  { dev with ifName := dev.ifName.strlcpy 0 (ifrName arg).cstr 17 }

theorem Device.named_ctrlSock {n : Nat} (dev : Device) (arg : Buf n) :
    (dev.named arg).ctrlSock = dev.ctrlSock := rfl

theorem Device.named_ifName {n : Nat} (dev : Device) (arg : Buf n) :
    (dev.named arg).ifName = dev.ifName.strlcpy 0 (ifrName arg).cstr 17 := rfl

/-- The copy of a name is the name, as far as a kernel reads. -/
theorem Device.names_named {n : Nat} (dev : Device) (arg : Buf n) :
    Names (dev.named arg) n arg := by
  show _ = (dev.ifName.strlcpy 0 (ifrName arg).cstr 17).cstr.take 15
  rw [cstr_copied, CString.take_take]
  rfl

theorem Kern.Reaches.withFlags {s : Kern} {d : Device} {j : Nat} {g : Iface}
    (h : s.Reaches d j g) (flags : BitVec 32) : s.Reaches { d with flags := flags } j g :=
  ⟨h.sock, h.iface, h.name⟩

/-- The record takes the name of the unit that was opened. -/
theorem Kern.Took.of_unit {n : Nat} (hn : 16 ≤ n) (b : Buf n)
    (hsock : k.fds dev.ctrlSock = some (.socket .inet)) (ht : k.Took k₁ fd i f)
    (hname : f.name = type ++ CString.int tun) :
    k₁.Reaches (dev.named (b.strlcpy 0 (type ++ CString.int tun) 16)) i f := by
  have hshort : (type ++ CString.int tun).strlen ≤ 15 := hname ▸ k₁.short i f ht.iface
  refine ht.named hsock (Device.named_ctrlSock ..) ?_
  rw [Device.named_ifName, cstr_named dev.ifName b hn hshort, hname]
  exact CString.take_of_strlen_le hshort

/-- From the opened node on, OpenBSD. -/
theorem OpenBsd.configure_took (hsock : k.fds dev.ctrlSock = some (.socket .inet))
    (ht : k.Took k₁ fd i f) (hname : f.name = type ++ CString.int tun) :
    (OpenBsd.configure dev mode type fd tun).Wp (kernel R) (SysTook dev k) k₁ := by
  refine (Prog.wp_call_bind _ _).mpr fun r k₂ hflags => ?_
  refine took_check fun hr => ?_
  obtain ⟨rfl, hsame⟩ := hflags.siocgifflags hr
  have hreach := ht.of_unit (by decide) (Buf.zero : BsdIfreq) hsock hname
  dsimp only [Device.named] at hreach
  refine (Prog.wp_call_bind _ _).mpr fun rs k₃ hset => ?_
  refine took_check fun _ => ?_
  obtain ⟨g, ht', hreach'⟩ := ht.flagged hreach ((dev.names_named _).of_eq hsame) hset
  -- what the name is does not matter to the questions at the end
  generalize dev.ifName.strlcpy 0 _ 17 = ifName at hreach' ⊢
  exact took_of_idles ht' hreach' rfl (by simp) (by simp)

theorem OpenBsd.createDev_made :
    (OpenBsd.tuntapSysCreateDev dev type tun).Wp (kernel R)
      (fun _ k' => k.Made k' (type ++ CString.int tun)) k := by
  refine (Prog.wp_call_bind _ _).mpr fun r k' hs => ?_
  rcases Kern.Made.of_create (Or.inl rfl) hs with ⟨hr, rfl⟩ | ⟨hr, hm⟩
  · rw [if_pos hr]
    exact fun _ k₂ hlog => Or.inl hlog
  · rw [if_neg (by rw [hr]; decide)]
    exact hm

theorem OpenBsd.forceCreation_made {persist : Prop} [Decidable persist] :
    (OpenBsd.forceCreation dev type persist tun).Wp (kernel R) (fun _ k' =>
      (¬ persist → k' = k) ∧ k.Made k' (type ++ CString.int tun)) k := by
  unfold OpenBsd.forceCreation
  refine (Prog.wp_ite _ _ _).mpr ⟨fun hpersist => ?_, fun _ => ⟨fun _ => rfl, Or.inl rfl⟩⟩
  exact OpenBsd.createDev_made.bind fun _ k' hm => ⟨fun hno => absurd hpersist hno, hm⟩

/-- What was made under the unit asked for was made under the unit opened. -/
theorem Kern.Made.of_asked {persist : Prop} {unit : Int} (hany : ¬ (persist ∧ tun = tuntapIdAny))
    (hm : (¬ persist → k₁ = k) ∧ k.Made k₁ (type ++ CString.int tun))
    (hunit : tun ≠ tuntapIdAny → unit = tun) : k.Made k₁ (type ++ CString.int unit) := by
  by_cases hpersist : persist
  · rw [hunit fun h => hany ⟨hpersist, h⟩]
    exact hm.2
  · exact Or.inl (hm.1 hpersist)

theorem Kern.Made.inUse (hm : k.Made k₁ type) {fd : Int} (h : k.fds fd ≠ none) :
    k₁.fds fd ≠ none := by
  rw [hm.fds]
  exact h

theorem Bsd.checkFd_idles (fd : Int) : (Bsd.checkFd fd).Wp (kernel R) (fun goesOn k' =>
    k' = k ∧ (goesOn ≠ false → fd ≠ -1)) k := by
  refine (idle_wp (A := fun goesOn => goesOn ≠ false → fd ≠ -1) ?_ ?_).mono fun goesOn k' h => ?_
  · simp [Bsd.checkFd]
  · simp only [Bsd.checkFd, Prog.pure_eq, Prog.answers_ite, Prog.answers_call_bind,
      Prog.answers_ret]
    exact ⟨fun _ _ h => absurd rfl h, fun hne => ⟨fun _ _ h => absurd rfl h, fun _ _ => hne⟩⟩
  · exact ⟨h.2, h.1⟩

theorem OpenBsd.tuntapSysStart_took (hos : R.os ≠ .linux)
    (hsock : k.fds dev.ctrlSock = some (.socket .inet)) (hzero : k.fds 0 ≠ none)
    (hany : ¬ (mode.isPersist ∧ tun = tuntapIdAny)) :
    (OpenBsd.tuntapSysStart dev mode tun).Wp (kernel R) (SysTook dev k) k := by
  dsimp only [OpenBsd.tuntapSysStart]
  generalize (if mode.isPersist then mode.clearPersist else mode) = m
  refine took_check fun _ => ?_
  have htype := ifname_cases m
  generalize CString.lit (if m = tuntapModeEthernet then "tap" else "tun") = type at htype
  refine OpenBsd.forceCreation_made.bind fun goesOn k₁ hmade => ?_
  refine (Prog.wp_ite _ _ _).mpr ⟨fun _ => .refused, fun _ => ?_⟩
  refine (Bsd.openUnit_opens (hmade.2.inUse hzero)).bind fun r k₂ hopen => ?_
  cases r with
  | none => exact .refused
  | some p =>
      obtain ⟨hopened, hunit⟩ := hopen p rfl
      refine (Bsd.checkFd_idles p.1).bind fun goesOn k₃ hcheck => ?_
      obtain ⟨rfl, hfd⟩ := hcheck
      refine (Prog.wp_ite _ _ _).mpr ⟨fun _ => .refused, fun hgoes => ?_⟩
      obtain ⟨i, f, hname, ht⟩ := (Kern.Made.of_asked hany hmade hunit).opened hos htype hopened
        (hfd hgoes)
      exact OpenBsd.configure_took hsock ht hname

/-- From the opened node on, Darwin. -/
theorem Darwin.configure_took {ifr : BsdIfreq} (hsock : k.fds dev.ctrlSock = some (.socket .inet))
    (ht : k.Took k₁ fd i f) (hname : f.name = type ++ CString.int tun) :
    (Darwin.configure dev mode type fd tun ifr).Wp (kernel R) (SysTook dev k) k₁ := by
  refine (Prog.wp_call_bind _ _).mpr fun r k₂ hflags => ?_
  refine took_check fun hr => ?_
  obtain ⟨rfl, hsame⟩ := hflags.siocgifflags hr
  have hreach := ht.of_unit (by decide) (ifr.memset 0 0 32) hsock hname
  dsimp only [Device.named] at hreach
  refine (Prog.wp_call_bind _ _).mpr fun rs k₃ hset => ?_
  refine took_check fun _ => ?_
  obtain ⟨g, ht', hreach'⟩ := ht.flagged hreach ((dev.names_named _).of_eq hsame) hset
  have hreach'' := hreach'.withFlags ((ifrFlags r.arg).signExtend 32)
  exact (Prog.wp_ite _ _ _).mpr
    ⟨fun _ => Bsd.saveLladdr_took ht' hreach'' rfl, fun _ _ => ⟨i, g, ht', hreach'', rfl⟩⟩

theorem Darwin.tuntapSysStart_took (hos : R.os ≠ .linux)
    (hsock : k.fds dev.ctrlSock = some (.socket .inet)) (hzero : k.fds 0 ≠ none) :
    (Darwin.tuntapSysStart dev mode tun).Wp (kernel R) (SysTook dev k) k := by
  refine (Prog.wp_call_bind _ _).mpr fun ifr k₀ hun => ?_
  obtain rfl : k₀ = k := hun
  refine took_check fun _ => ?_
  refine took_check fun _ => ?_
  refine (Bsd.openUnit_opens hzero).bind fun r k₂ hopen => ?_
  cases r with
  | none => exact .refused
  | some p =>
      obtain ⟨hopened, -⟩ := hopen p rfl
      refine (Bsd.checkFd_idles p.1).bind fun goesOn k₃ hcheck => ?_
      obtain ⟨rfl, hfd⟩ := hcheck
      refine (Prog.wp_ite _ _ _).mpr ⟨fun _ => .refused, fun hgoes => ?_⟩
      obtain ⟨i, f, hname, ht⟩ :=
        Kern.Made.opened hos (ifname_cases mode) (Or.inl rfl) hopened (hfd hgoes)
      exact Darwin.configure_took hsock ht hname

/-- NetBSD looks up the type itself and creates as OpenBSD does. -/
theorem NetBsd.createDev_made :
    (NetBsd.tuntapSysCreateDev dev mode tun).Wp (kernel R) (fun _ k' => k.Made k'
      (CString.lit (if mode = tuntapModeEthernet then "tap" else "tun") ++ CString.int tun)) k :=
  OpenBsd.createDev_made

theorem NetBsd.forceCreation_made :
    (NetBsd.forceCreation dev mode tun).Wp (kernel R) (fun _ k' =>
      (¬ mode.isPersist → k' = k) ∧ k.Made k'
        (CString.lit (if mode.clearPersist = tuntapModeEthernet then "tap" else "tun") ++
          CString.int tun)) k := by
  unfold NetBsd.forceCreation
  refine (Prog.wp_ite _ _ _).mpr ⟨fun hpersist => ?_, fun _ => ⟨fun _ => rfl, Or.inl rfl⟩⟩
  exact NetBsd.createDev_made.bind fun _ k' hm => ⟨fun hno => absurd hpersist hno, hm⟩

/-- The node of a unit, which was made now or before, or the cloning node. -/
theorem NetBsd.tapNode_made (hm : k.Made k₁ (CString.lit "tap" ++ CString.int tun))
    (hsame : tun = tuntapIdAny → k₁ = k) :
    (NetBsd.tapNode dev tun).Wp (kernel R) (fun r k' => ∀ name, r = some name →
      name = Bsd.devNode (CString.lit "tap") tun ∧
          k.Made k' (CString.lit "tap" ++ CString.int tun) ∨ k' = k) k₁ := by
  unfold NetBsd.tapNode
  refine (Prog.wp_ite _ _ _).mpr ⟨fun _ => ?_, fun _ => (Prog.wp_ite _ _ _).mpr
    ⟨fun hany _ _ => Or.inr (hsame hany), fun _ name hname => absurd hname (by simp)⟩⟩
  refine NetBsd.createDev_made.bind fun _ k₂ hm' name hname => Or.inl ⟨?_, hm.again hm'⟩
  exact (Option.some.inj hname).symm

theorem NetBsd.tuntapSysStartTap_took (hos : R.os ≠ .linux)
    (hsock : k.fds dev.ctrlSock = some (.socket .inet))
    (hm : k.Made k₁ (CString.lit "tap" ++ CString.int tun))
    (hsame : tun = tuntapIdAny → k₁ = k) :
    (NetBsd.tuntapSysStartTap dev tun).Wp (kernel R) (SysTook dev k) k₁ := by
  refine (NetBsd.tapNode_made hm hsame).bind fun name k₂ hnode => ?_
  cases name with
  | none => exact .refused
  | some name =>
      refine (Prog.wp_call_bind _ _).mpr fun fd k₃ hopen => ?_
      refine took_check fun hfd => ?_
      obtain ⟨i, f, ht⟩ : ∃ i f, k.Took k₃ fd i f := by
        rcases hopen with ⟨hno, -⟩ | ⟨-, hfree, hopens⟩
        · exact absurd hno hfd
        · rcases hnode name rfl with ⟨rfl, hm'⟩ | rfl
          · obtain ⟨i, f, -, ht⟩ := hm'.opened (p := (fd, tun)) hos (Or.inl rfl)
              (Or.inr ⟨hfree, hopens⟩) hfd
            exact ⟨i, f, ht⟩
          · exact hopens.took hos hfree
      refine (Prog.wp_call_bind _ _).mpr fun r k₄ hname => ?_
      refine took_check fun hr => ?_
      obtain ⟨rfl, hcstr⟩ := gifname_named (Or.inl rfl) ht hr hname
      have hshort : (ifrName r.arg).cstr.strlen ≤ 15 := hcstr ▸ k₄.short i f ht.iface
      have hreach := ht.named (d := { dev with
          ifName := dev.ifName.strlcpy 0 (ifrName r.arg).cstr 17 }) hsock rfl
        ((take_cstr_copied _ hshort).trans hcstr)
      refine (Prog.wp_call_bind _ _).mpr fun rf k₅ hflags => ?_
      refine took_check fun hrf => ?_
      obtain ⟨rfl, -⟩ := hflags.siocgifflags hrf
      exact Bsd.saveLladdr_took ht (hreach.withFlags ((ifrFlags rf.arg).signExtend 32)) rfl

theorem NetBsd.tuntapSysStartTun_took (hos : R.os ≠ .linux)
    (hsock : k.fds dev.ctrlSock = some (.socket .inet)) (hzero : k.fds 0 ≠ none)
    (hm : k.Made k₁ (CString.lit "tun" ++ CString.int tun))
    (hsame : tun = tuntapIdAny → k₁ = k) :
    (NetBsd.tuntapSysStartTun dev tun).Wp (kernel R) (SysTook dev k) k₁ := by
  refine (NetBsd.openTun_opens (hm.inUse hzero)).bind fun r k₂ hopen => ?_
  cases r with
  | none => exact .refused
  | some p =>
      obtain ⟨fd, unit⟩ := p
      obtain ⟨hopened, hunit⟩ := hopen _ rfl
      refine (Bsd.checkFd_idles fd).bind fun goesOn k₃ hcheck => ?_
      obtain ⟨rfl, hfd⟩ := hcheck
      refine (Prog.wp_ite _ _ _).mpr ⟨fun _ => .refused, fun hgoes => ?_⟩
      have hm' : k.Made k₁ (CString.lit "tun" ++ CString.int unit) := by
        by_cases hany : tun = tuntapIdAny
        · exact Or.inl (hsame hany)
        · rw [show unit = tun from hunit hany]
          exact hm
      obtain ⟨i, f, hname, ht⟩ := hm'.opened (p := (fd, unit)) hos (Or.inr rfl) hopened
        (hfd hgoes)
      have hreach := ht.of_unit (by decide) (Buf.zero : BsdIfreq) hsock hname
      dsimp only [Device.named] at hreach
      refine (Prog.wp_call_bind _ _).mpr fun rf k₄ hflags => ?_
      refine took_check fun hrf => ?_
      obtain ⟨rfl, -⟩ := hflags.siocgifflags hrf
      exact fun _ => ⟨i, f, ht, hreach.withFlags ((ifrFlags rf.arg).signExtend 32), rfl⟩

theorem NetBsd.tuntapSysStart_took (hos : R.os ≠ .linux)
    (hsock : k.fds dev.ctrlSock = some (.socket .inet)) (hzero : k.fds 0 ≠ none)
    (hany : ¬ (mode.isPersist ∧ tun = tuntapIdAny)) :
    (NetBsd.tuntapSysStart dev mode tun).Wp (kernel R) (SysTook dev k) k := by
  refine NetBsd.forceCreation_made.bind fun goesOn k₁ hmade => ?_
  refine (Prog.wp_ite _ _ _).mpr ⟨fun _ => .refused, fun _ => ?_⟩
  have hsame : tun = tuntapIdAny → k₁ = k := fun h => hmade.1 fun hpersist => hany ⟨hpersist, h⟩
  -- the creation looks at the mode without its persistence, as the branches do
  have hm : k.Made k₁ (CString.lit (if (if mode.isPersist then mode.clearPersist else mode) =
      tuntapModeEthernet then "tap" else "tun") ++ CString.int tun) := by
    by_cases hpersist : mode.isPersist
    · rw [if_pos hpersist]
      exact hmade.2
    · exact Or.inl (hmade.1 hpersist)
  dsimp only
  generalize (if mode.isPersist then mode.clearPersist else mode) = m at hm
  refine (Prog.wp_ite _ _ _).mpr ⟨fun heth => ?_, fun heth => (Prog.wp_ite _ _ _).mpr
    ⟨fun _ => ?_, fun _ => .refused⟩⟩
  · rw [if_pos heth] at hm
    exact NetBsd.tuntapSysStartTap_took hos hsock hm hsame
  · rw [if_neg heth] at hm
    exact NetBsd.tuntapSysStartTun_took hos hsock hzero hm hsame

/-- The mark is set on the interface that was taken. -/
theorem Linux.setPersistent_took (ht : k.Took k₁ fd i f) {persist : Prop} [Decidable persist] :
    (Linux.setPersistent fd persist).Wp (kernel R) (fun _ k' =>
      ∃ g, g.name = f.name ∧ k.Took k' fd i g) k₁ := by
  unfold Linux.setPersistent
  refine (Prog.wp_ite _ _ _).mpr ⟨fun _ r k' hs => ?_, fun _ => ⟨f, rfl, ht⟩⟩
  rcases hs with ⟨-, rfl⟩ | ⟨-, j, g, hg, hfds, hifs⟩
  · exact ⟨f, rfl, ht⟩
  · obtain ⟨rfl, rfl⟩ := ht.attached.unique hg
    refine ⟨_, ?_, ht.put ⟨hfds, hifs⟩⟩
    rfl

/-- The interface is that of the attaching request. -/
theorem Linux.attach_took (hos : R.os = .linux) {path : CString} {arg : Ifreq}
    {r : IoctlGetRet 40} {k₂ : Kern} (hfd : fd ≠ -1)
    (hopen : Kern.Step R k (.open path) fd k₁) (hr : r.ret ≠ -1)
    (hs : Kern.Step R k₁ (.ioctlGet fd .tunsetiff arg) r k₂) :
    ∃ i f, (ifrName r.arg).cstr = f.name ∧ k.Took k₂ fd i f := by
  rcases hopen with ⟨hno, -⟩ | ⟨-, hfree, hopens⟩
  · exact absurd hno hfd
  unfold Kern.Opens at hopens
  rw [hos] at hopens
  obtain ⟨hifs, hfds⟩ := hopens
  rcases hs with ⟨hno, -⟩ | ⟨-, -, -, i, f, -, -, -, hname, hfds', hifs'⟩
  · exact absurd hno hr
  · refine ⟨i, f, hname, hfree, ?_, fun j hj => ?_, ?_⟩
    · rw [hfds', hfds, Function.update_idem]
    · rw [hifs', Function.update_of_ne hj, hifs]
    · rw [hifs', Function.update_self]

theorem Linux.tuntapSysStart_took (hos : R.os = .linux)
    (hsock : k.fds dev.ctrlSock = some (.socket .inet)) :
    (Linux.tuntapSysStart dev mode tun).Wp (kernel R) (SysTook dev k) k := by
  dsimp only [Linux.tuntapSysStart]
  generalize (if mode.isPersist then mode.clearPersist else mode) = m
  refine took_check fun _ => ?_
  refine took_check fun _ => ?_
  refine (Prog.wp_call_bind _ _).mpr fun fd k₁ hopen => ?_
  refine took_check fun hfd => ?_
  refine (Prog.wp_ite _ _ _).mpr ⟨fun _ => .refused, fun _ => ?_⟩
  refine (Prog.wp_call_bind _ _).mpr fun r k₂ hattach => ?_
  refine took_check fun hr => ?_
  obtain ⟨i, f, hname, ht⟩ := Linux.attach_took hos hfd hopen hr hattach
  refine (Linux.setPersistent_took ht).bind fun persisted k₃ hpersist => ?_
  obtain ⟨g, hg, ht'⟩ := hpersist
  refine took_check fun _ => ?_
  refine (Prog.wp_call_bind _ _).mpr fun rf k₄ hflags => ?_
  refine took_check fun hrf => ?_
  obtain ⟨rfl, hsame⟩ := hflags.siocgifflags hrf
  have hshort : g.name.strlen ≤ 15 := k₄.short i g ht'.iface
  have hcstr : (ifrName rf.arg).cstr = g.name := by
    rw [hsame, hname, hg]
  have hreach := ht'.named (d := { dev with
      flags := (ifrFlags rf.arg).signExtend 32
      ifName := dev.ifName.memcpy 0 (ifrName rf.arg) 16 }) hsock rfl (by
    rw [Buf.cstr_memcpy_zero _ _ (by decide) (by rw [hcstr]; omega), hcstr]
    exact CString.take_of_strlen_le hshort)
  exact took_of_idles ht' hreach rfl (by simp) (by simp)

/-- On any system, where descriptor 0 is in use if there is a scan. -/
theorem tuntapSysStart_took (hsock : k.fds dev.ctrlSock = some (.socket .inet))
    (hzero : R.os ≠ .linux → k.fds 0 ≠ none)
    (hany : ¬ (mode.isPersist ∧ tun = tuntapIdAny)) :
    (tuntapSysStart R.os dev mode tun).Wp (kernel R) (SysTook dev k) k := by
  have hother : ∀ {os}, R.os = os → os ≠ .linux → R.os ≠ .linux := fun hos hne => hos ▸ hne
  cases hos : R.os with
  | linux => exact Linux.tuntapSysStart_took hos hsock
  | freeBsd => exact FreeBsd.tuntapSysStart_took (hother hos (by decide)) hsock
  | openBsd =>
      have hne := hother hos (by decide)
      exact OpenBsd.tuntapSysStart_took hne hsock (hzero hne) hany
  | netBsd =>
      have hne := hother hos (by decide)
      exact NetBsd.tuntapSysStart_took hne hsock (hzero hne) hany
  | darwin =>
      have hne := hother hos (by decide)
      exact Darwin.tuntapSysStart_took hne hsock (hzero hne)

end BackEnds

/-- What a start that succeeds has done: two descriptors that were free are in use,
and the device is linked to an interface. -/
structure Began (s s' : Kern) (dev : Device) (i : Nat) (f : Iface) : Prop where
  started : dev.tunFd ≠ -1
  tunFree : s.fds dev.tunFd = none
  sockFree : s.fds dev.ctrlSock = none
  fds : s'.fds = Function.update (Function.update s.fds dev.ctrlSock (some (.socket .inet)))
    dev.tunFd (some (.tun (some i)))
  ifs : ∀ j, j ≠ i → s'.ifs j = s.ifs j
  linked : Linked dev s' i f

section Start

variable {R : Rules} {k k₁ k₂ : Kern} {dev d : Device} {mode : Mode} {tun fd sock : Int}
  {i : Nat} {f : Iface}

/-- The socket was there before the descriptor. -/
theorem Kern.Took.began (hstarted : fd ≠ -1) (hfree : k.fds sock = none) (hifs : k₁.ifs = k.ifs)
    (hfds : k₁.fds = Function.update k.fds sock (some (.socket .inet)))
    (ht : k₁.Took k₂ fd i f) (hr : k₂.Reaches d i f) (hctrl : d.ctrlSock = sock) :
    Began k k₂ { d with tunFd := fd } i f := by
  have hsock : k₁.fds sock = some (.socket .inet) := by
    rw [hfds, Function.update_self]
  have hne : fd ≠ sock := by
    rintro rfl
    rw [ht.free] at hsock
    cases hsock
  have hfd : k.fds fd = none := by
    rw [← ht.free, hfds, Function.update_of_ne hne]
  refine ⟨hstarted, hfd, ?_, ?_, fun j hj => ?_, ht.attached.1, hr.sock, hr.iface, hr.name⟩
  · show k.fds d.ctrlSock = none
    rw [hctrl]
    exact hfree
  · show k₂.fds = Function.update (Function.update k.fds d.ctrlSock _) fd _
    rw [hctrl, ht.fds, hfds]
  · rw [ht.ifs j hj, hifs]

theorem tuntapStart_took (hdev : dev.tunFd = -1) (hzero : R.os ≠ .linux → k.fds 0 ≠ none) :
    (tuntapStart R.os dev mode tun).Wp (kernel R)
      (fun r k' => r.1 = 0 → ∃ i f, Began k k' r.2 i f) k := by
  have hclean : ∀ {sock d t}, (startClean (-1) sock d).Wp (kernel R)
      (fun r k' => r.1 = 0 → ∃ i f, Began k k' r.2 i f) t := by
    intro sock d t
    simp [startClean]
  unfold tuntapStart
  rw [if_neg (not_not.mpr hdev)]
  refine (Prog.wp_call_bind _ _).mpr fun sock k₁ hsock => ?_
  refine (Prog.wp_ite _ _ _).mpr ⟨fun _ => hclean, fun hne => ?_⟩
  refine (Prog.wp_ite _ _ _).mpr ⟨fun _ => hclean, fun hany => ?_⟩
  have hopen := Kern.Step.socket_opens hsock hne
  rcases hsock with ⟨hno, -⟩ | ⟨-, hfree, hifs, hfds⟩
  · exact absurd hno hne
  have hzero₁ : R.os ≠ .linux → k₁.fds 0 ≠ none := by
    intro hos
    rw [hfds]
    by_cases h0 : (0 : Int) = sock
    · rw [← h0, Function.update_self]
      simp
    · rw [Function.update_of_ne h0]
      exact hzero hos
  have hsys : (tuntapSysStart R.os { dev with ctrlSock := sock } mode tun).Wp (kernel R)
      (SysTook { dev with ctrlSock := sock } k₁) k₁ := tuntapSysStart_took hopen.2 hzero₁ hany
  refine hsys.bind fun r k₂ hr => ?_
  obtain ⟨fd, d⟩ := r
  refine (Prog.wp_ite _ _ _).mpr ⟨fun hfd => ?_, fun hfd _ => ?_⟩
  · subst hfd
    exact hclean
  · obtain ⟨i, f, ht, hreach, hctrl⟩ := hr hfd
    exact ⟨i, f, ht.began hfd hfree hifs hfds hreach hctrl⟩

/-- In a session on any system. -/
theorem Session.Step.start_began {libc : Libc} {rely : Rely} {s s' : Session}
    {tr : List (Event Call Resp)}
    (hs : Session.Step R libc rely s (.call (.start mode tun) tr (.int 0)) s')
    (hzero : R.os ≠ .linux → s.kern.fds 0 ≠ none) : ∃ i f, Began s.kern s'.kern s'.dev i f := by
  have hdev : s.dev.tunFd = -1 := by
    by_contra hne
    exact absurd (hs.restart hne) (by simp)
  have hwp : ((Op.start mode tun).prog R.os libc s.dev).Wp (kernel R) (fun r k' =>
      ∃ n d, r = back (n, d) ∧ (n = 0 → ∃ i f, Began s.kern k' d i f)) s.kern :=
    (tuntapStart_took hdev hzero).bind fun r k' hr => ⟨r.1, r.2, rfl, hr⟩
  obtain ⟨n, d, hback, hbegan⟩ := hs.of_wp hwp
  obtain ⟨hn, hd⟩ := Prod.mk.inj hback
  obtain rfl := Option.some.inj hd
  exact hbegan (Ret.int.inj hn).symm

end Start

end Libtuntap
