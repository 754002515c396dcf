import Libtuntap.Proofs.Started

/-!
# The name in the record and the name in the kernel

The kernel keeps 15 bytes of a name. `tuntap_set_ifname` lets a name of 16
through, its check being `len > IF_NAMESIZE`, and copies all 16 into the record.
The request carries all 16 as well, and the kernel cuts the last one off. From
then on `tuntap_get_ifname` reports a name no interface has, until a shorter
rename puts the copy right.

Everything else keeps the two equal: a start takes the name from the kernel's
reply, a shorter rename gives both the same bytes, a refused one touches
neither, and no other call touches either.
-/

namespace Libtuntap

open Effect CMem

/-- On a started device `tuntap_get_ifname` gives the name of the interface
`tun_fd` is attached to. -/
def NameAgrees (s : Session) : Prop :=
  s.dev.tunFd ≠ -1 → ∃ i f, s.kern.Attached s.dev.tunFd i f ∧ tuntapGetIfname s.dev = f.name

/-- The kernel grants a started device a rename to a name of 16 bytes. -/
def LongRename (x : Session × Act × Session) : Prop :=
  x.1.dev.tunFd ≠ -1 ∧ ∃ ifname tr ret, x.2.1 = .call (.setIfname (some ifname)) tr ret ∧
    ifname.strlen = 16 ∧ ∀ e ∈ tr, Granted e

section Rename

variable {dev : Device}

/-- A rename that is let through answers 0 when it is granted. -/
theorem tuntapSetIfname_granted_iff {ifname : CString} (hle : ifname.strlen ≤ ifNamesize) :
    (tuntapSetIfname .linux dev (some ifname)).Ensures fun tr r =>
      (∀ e ∈ tr, Granted e) ↔ r.1 = 0 := by
  simp only [tuntapSetIfname, tuntapSysSetIfname, Linux.tuntapSysSetIfname]
  rw [if_neg (by omega)]
  simp only [Prog.bind_assoc, Prog.pure_eq, Prog.ret_bind, Prog.ite_bind,
    Prog.ensures_call_bind, Prog.ensures_ite, Prog.ensures_ret]
  intro r
  constructor
  · intro hr
    simp [hr]
  · intro hr
    simp [hr]

end Rename

section Step

variable {R : Rules} {libc : Libc} {rely : Rely} {s s' : Session} {tr : List (Event Call Resp)}
  {ret : Ret}

theorem Session.Step.rename_granted_iff (hos : R.os = .linux) {ifname : CString}
    (hs : Session.Step R libc rely s (.call (.setIfname (some ifname)) tr ret) s')
    (hle : ifname.strlen ≤ 16) : (∀ e ∈ tr, Granted e) ↔ ret = .int 0 := by
  cases hs with
  | call hr hk =>
      rw [hos] at hr
      obtain ⟨⟨n, d⟩, tr₁, tr₂, rfl, hset, rfl, hback⟩ := (Prog.runs_bind _ _ _ _).mp hr
      obtain rfl : ret = .int n := (Prod.mk.inj hback).1
      rw [List.append_nil, (Prog.ensures_iff _).mp (tuntapSetIfname_granted_iff hle) _ _ hset]
      constructor
      · intro h
        rw [show n = 0 from h]
      · intro h
        cases h
        rfl

/-- Linked devices agree with the kernel when the copy is the name. -/
theorem Linked.nameAgrees_iff {i : Nat} {f : Iface} (h : Linked s.dev s.kern i f)
    (hdev : s.dev.tunFd ≠ -1) : NameAgrees s ↔ s.dev.ifName.cstr = f.name := by
  constructor
  · intro hag
    obtain ⟨j, g, hatt, hname⟩ := hag hdev
    obtain ⟨-, rfl⟩ := h.unique hatt
    exact hname
  · intro hname _
    exact ⟨i, f, ⟨h.attached, h.reaches.iface⟩, hname⟩

/-- A step that leaves the name on both sides leaves the agreement. -/
theorem NameAgrees.of_same {i : Nat} {f f' : Iface} (hag : NameAgrees s)
    (hdev : s.dev.tunFd ≠ -1) (h : Linked s.dev s.kern i f) (h' : Linked s'.dev s'.kern i f')
    (hcopy : s'.dev.ifName = s.dev.ifName) (hname : f'.name = f.name) : NameAgrees s' := by
  intro hdev'
  refine ((h'.nameAgrees_iff hdev').mpr ?_) hdev'
  rw [hcopy, hname]
  exact (h.nameAgrees_iff hdev).mp hag

/-- A rename on a started device that agrees leaves one that agrees, unless it
is a long one and granted. -/
theorem Session.Step.nameAgrees_rename (hos : R.os = .linux) {ifname : CString}
    (hs : Session.Step R libc rely s (.call (.setIfname (some ifname)) tr ret) s')
    (hdev : s.dev.tunFd ≠ -1) (hk : Kept s) (hag : NameAgrees s) :
    NameAgrees s' ↔ ¬ (ifname.strlen = 16 ∧ ∀ e ∈ tr, Granted e) := by
  obtain ⟨i, f, hlink⟩ := hk hdev
  obtain ⟨n, rfl, hren⟩ := hs.renamed hos hlink.reaches
  rcases hren with ⟨hr, hsame⟩ | ⟨hr, hle, hput⟩
  · obtain ⟨rfl, hdev'⟩ := Prod.mk.inj hr
    have hs' : s' = s := by
      cases s
      cases s'
      dsimp only at hdev' hsame
      rw [hdev', hsame]
    rw [hs']
    refine iff_of_true hag fun hlong => ?_
    have hzero := (hs.rename_granted_iff hos (Nat.le_of_eq hlong.1)).mp hlong.2
    exact absurd (Ret.int.inj hzero) (by decide)
  · obtain ⟨rfl, hdev'⟩ := Prod.mk.inj hr
    have hlink' := hlink.renamed hle hput
    have hgranted := (hs.rename_granted_iff hos hle).mpr rfl
    rw [← hdev'] at hlink'
    have htun : s'.dev.tunFd ≠ -1 := by
      rw [hdev']
      exact hdev
    rw [hlink'.nameAgrees_iff htun, hdev']
    show (Libtuntap.renamed s.dev.ifName ifname).cstr = ifname.take 15 ↔ _
    rw [cstr_renamed_eq_iff _ hle]
    constructor
    · exact fun hne hlong => hne hlong.1
    · exact fun hnot hlen => hnot ⟨hlen, hgranted⟩

theorem Session.Step.nameAgrees_iff (hos : R.os = .linux) {a : Act}
    (hs : Session.Step R libc (OthersKeep [.name]) s a s') (hk : Kept s) (hag : NameAgrees s) :
    NameAgrees s' ↔ ¬ LongRename (s, a, s') := by
  cases a with
  | others =>
      refine iff_of_true ?_ fun hlong => ?_
      · cases hs with
        | others hrely =>
            intro hdev
            obtain ⟨i, f, hlink⟩ := hk hdev
            obtain ⟨f', hlink', hsame⟩ := hlink.others hrely (List.mem_singleton_self _)
            exact NameAgrees.of_same hag hdev hlink hlink' rfl
              (hsame .name (List.mem_singleton_self _)) hdev
      · obtain ⟨-, ifname, tr, ret, h, -⟩ := hlong
        cases h
  | call op tr ret =>
      by_cases hdev : s.dev.tunFd = -1
      · refine iff_of_true ?_ fun hlong => hlong.1 hdev
        by_cases hop : ∃ mode tun, op = .start mode tun
        · obtain ⟨mode, tun, rfl⟩ := hop
          obtain ⟨n, -, hstarted⟩ := hs.start hos hdev (A := fun _ => True) fun _ _ => trivial
          rcases hstarted with ⟨-, htun⟩ | ⟨-, htun, i, f, hlink, hfresh⟩
          · exact fun hdev' => absurd htun hdev'
          · exact (hlink.nameAgrees_iff htun).mpr hfresh.name
        · exact fun hdev' => absurd
            (hs.not_started hdev fun mode tun heq => hop ⟨mode, tun, heq⟩) hdev'
      · by_cases hname : .name ∈ op.writes
        · obtain ⟨ifname, rfl⟩ := Op.name_mem_writes hname
          cases ifname with
          | none =>
              obtain rfl := hs.renamed_none
              refine iff_of_true hag fun hlong => ?_
              obtain ⟨-, ifname, tr, ret, h, -⟩ := hlong
              cases h
          | some ifname =>
              rw [hs.nameAgrees_rename hos hdev hk hag]
              refine not_congr ⟨fun h => ⟨hdev, ifname, tr, ret, rfl, h⟩, fun hlong => ?_⟩
              obtain ⟨-, ifname', tr', ret', h, hlong⟩ := hlong
              cases h
              exact hlong
        · refine iff_of_true ?_ fun hlong => ?_
          · obtain ⟨i, f, hlink⟩ := hk hdev
            obtain ⟨f', hlink', hframe⟩ := hs.linked hos hdev hlink
            exact NameAgrees.of_same hag hdev hlink hlink'
              ((hs.frame_of_started hdev).1.name hname) (hframe .name hname)
          · obtain ⟨-, ifname, tr, ret, h, -⟩ := hlong
            cases h
            exact hname (List.mem_singleton_self _)

end Step

/-- From a device that is not started, through any calls and anything others do
but rename the interface: the name in the record is that of the kernel in every
started state reached exactly when no name of 16 bytes was granted. -/
theorem ifname_agrees_iff (R : Rules) (libc : Libc) (s s' : Session)
    (tr : List (Session × Act × Session)) (hos : R.os = .linux) (hdev : s.dev.tunFd = -1)
    (hr : Run (Session.Step R libc (OthersKeep [.name])) s tr s') :
    (∀ x ∈ tr, NameAgrees x.2.2) ↔ ∀ x ∈ tr, ¬ LongRename x := by
  have hkept := (hr.invariant (I := Kept) (fun h => absurd hdev h)
    fun x _ hstep hk => hstep.kept hos (List.mem_singleton_self _) hk).2
  have hiff := hr.inv_iff (I := fun s => Kept s ∧ NameAgrees s)
    (G := fun s a s' => ¬ LongRename (s, a, s'))
    ⟨fun h => absurd hdev h, fun h => absurd hdev h⟩ fun {s a m} hstep hinv => by
      rw [← hstep.nameAgrees_iff hos hinv.1 hinv.2]
      exact and_iff_right (hstep.kept hos (List.mem_singleton_self _) hinv.1)
  rw [← hiff]
  exact forall₂_congr fun x hx => (and_iff_right (hkept x hx).2).symm

/-- `tap0` is started and renamed, the kernel granting everything. -/
theorem renamed_run (ifname : CString) (hle : ifname.strlen ≤ 16) :
    ∃ tr, (∀ e ∈ tr, Granted e) ∧
      Run (Session.Step (Rules.plain .linux) Libc.refusing (OthersKeep [.name]))
        ⟨Device.init, Kern.blank⟩
        [(⟨Device.init, Kern.blank⟩, .call (.start tuntapModeEthernet 0) startTap0 (.int 0),
            ⟨Device.tap0, Kern.attached Iface.tap0 (by decide)⟩),
          (⟨Device.tap0, Kern.attached Iface.tap0 (by decide)⟩,
            .call (.setIfname (some ifname)) tr (.int 0),
            ⟨{ Device.tap0 with ifName := renamed Device.tap0.ifName ifname },
              Kern.attached { Iface.tap0 with name := ifname.take 15 }
                (CString.strlen_take_le ..)⟩)]
        ⟨{ Device.tap0 with ifName := renamed Device.tap0.ifName ifname },
          Kern.attached { Iface.tap0 with name := ifname.take 15 }
            (CString.strlen_take_le ..)⟩ := by
  have hr : ∃ arg : Ifreq, Names Device.tap0 40 arg ∧ (ifrNewname arg).cstr = ifname ∧
      (tuntapSetIfname .linux Device.tap0 (some ifname)).Runs
        [⟨.ioctl 3 .siocsifname arg, ⟨0, .other⟩⟩]
        (0, { Device.tap0 with ifName := renamed Device.tap0.ifName ifname }) := by
    refine ⟨_, names_renaming ifname ifname.strlen, ifrNewname_renaming hle, ?_⟩
    unfold tuntapSetIfname
    dsimp only
    rw [if_neg (show ¬ ifname.strlen > ifNamesize from Nat.not_lt.mpr hle)]
    exact ⟨⟨0, .other⟩, _, rfl, rfl, rfl⟩
  obtain ⟨arg, hn, hnew, hr⟩ := hr
  refine ⟨_, ?_, .cons (startTap0_step _ _) (.cons (.call ((Prog.runs_bind _ _ _ _).mpr
    ⟨_, _, [], (List.append_nil _).symm, hr, rfl, rfl⟩) ⟨_, Or.inr ⟨rfl, ?_⟩, rfl⟩) (.nil _))⟩
  · intro e he
    obtain rfl := List.mem_singleton.mp he
    exact (granted_ioctl ..).mpr (by decide)
  · subst hnew
    exact Kern.attached_alters (Device.tap0_names hn)
      (fun f => { f with name := (ifrNewname arg).cstr.take 15 }) (CString.strlen_take_le ..)

/-- Renamed to `vpn0` the two agree. -/
theorem renamed_vpn0_agrees : ∃ tr s',
    Run (Session.Step (Rules.plain .linux) Libc.refusing (OthersKeep [.name]))
      ⟨Device.init, Kern.blank⟩ tr s' ∧ tr.length = 2 ∧ ∀ x ∈ tr, NameAgrees x.2.2 := by
  obtain ⟨tr, -, hr⟩ := renamed_run (CString.lit "vpn0") (by decide)
  refine ⟨_, _, hr, rfl, (ifname_agrees_iff _ _ _ _ _ rfl rfl hr).mpr fun x hx hlong => ?_⟩
  simp only [List.mem_cons, List.not_mem_nil, or_false] at hx
  obtain ⟨-, ifname, tr', ret, hcall, hlen, -⟩ := hlong
  rcases hx with rfl | rfl
  · cases hcall
  · cases hcall
    exact absurd hlen (by decide)

/-- A name of 16 bytes: the record has all of them, the kernel 15. -/
theorem renamed_sixteen_disagrees :
    ¬ ∀ (R : Rules) (libc : Libc) (s s' : Session) (tr : List (Session × Act × Session)),
      R.os = .linux → s.dev.tunFd = -1 →
        Run (Session.Step R libc (OthersKeep [.name])) s tr s' → ∀ x ∈ tr, NameAgrees x.2.2 := by
  intro hclaim
  obtain ⟨tr, -, hr⟩ := renamed_run (CString.lit "abcdefghijklmnop") (by decide)
  have hstarted : (4 : Int) ≠ -1 := by decide
  have hlong : ¬ (renamed Device.tap0.ifName
      (CString.lit "abcdefghijklmnop")).cstr.strlen ≤ 15 := by decide
  obtain ⟨i, f, hatt, hname⟩ := hclaim _ _ _ _ _ rfl rfl hr _
    (List.mem_cons_of_mem _ (List.mem_cons_self ..)) hstarted
  have hshort : f.name.strlen ≤ 15 := Kern.short _ i f hatt.2
  rw [← hname] at hshort
  exact hlong hshort

end Libtuntap
