import Libtuntap.Effect.Wp
import Libtuntap.Unix.Core
import Mathlib.Logic.Function.Basic

/-!
# What the back ends admit

Each back end checks the mode and the unit for itself, and no two of them in
the same way. Linux compares the descriptor with `TUNTAP_ID_MAX` where it means
the unit. The BSDs take every negative unit for one below the maximum. Those
that scan the device nodes take 256, as a descriptor, for the end of the scan.
OpenBSD and NetBSD create the interface of a persistent start before they have
looked at the unit, NetBSD also before it has looked at the mode.

To tell a check from a refusal, the kernel here grants everything, so a start
that fails was refused by the library. The descriptors it gives are any
distinct numbers: the first is the control socket, the second the device, and
the third is only seen by a scan whose first descriptor was 0.
-/

namespace Libtuntap

open Effect CMem

/-- A kernel that grants everything: how many descriptors it gave, and whether
it has created or opened an interface. -/
structure Grants where
  given : Nat
  made : Prop

/-- On Linux `/dev/net/tun` is no interface before `TUNSETIFF`; elsewhere the
node that is opened is one. -/
def Grants.Step (os : Os) (nums : Nat → Int) (s : Grants) : (c : Call) → Resp c → Grants → Prop
  | .socket _, fd, s' => fd = nums s.given ∧ s' = { s with given := s.given + 1 }
  | .open _, fd, s' => fd = nums s.given ∧ s' = ⟨s.given + 1, s.made ∨ os ≠ .linux⟩
  | .ioctl _ req _, r, s' => r.ret = 0 ∧
      s' = { s with made := s.made ∨ req = .siocifcreate ∨ req = .siocifcreate2 }
  | .ioctlVal .., r, s' => r.ret = 0 ∧ s' = s
  | .ioctlGet _ req _, r, s' => r.ret = 0 ∧ s' = { s with made := s.made ∨ req = .tunsetiff }
  | _, _, s' => s' = s

def granting (os : Os) (nums : Nat → Int) : Kernel Call Resp Grants := Grants.Step os nums

/-- The descriptor a scan stops at. -/
def scanned (nums : Nat → Int) : Int := if nums 1 = 0 then nums 2 else nums 1

theorem scanned_nonneg {nums : Nat → Int} (hpos : ∀ i, 0 ≤ nums i) : 0 ≤ scanned nums := by
  unfold scanned
  split
  · exact hpos 2
  · exact hpos 1

section Granting

variable {os : Os} {nums : Nat → Int} {α : Type} {Q : α → Grants → Prop} {s : Grants}

theorem granting_total (s : Grants) (c : Call) : ∃ r s', granting os nums s c r s' := by
  cases c with
  | socket domain => exact ⟨nums s.given, _, rfl, rfl⟩
  | «open» path => exact ⟨nums s.given, _, rfl, rfl⟩
  | ioctl fd req arg => exact ⟨⟨0, .other⟩, _, rfl, rfl⟩
  | ioctlVal fd req val => exact ⟨⟨0, .other⟩, _, rfl, rfl⟩
  | ioctlGet fd req arg => exact ⟨⟨0, arg⟩, _, rfl, rfl⟩
  | _ => exact ⟨Classical.choice inferInstance, s, rfl⟩

theorem granting_log {level : Level} {msg : CString} {f : Unit → Sys α}
    (hf : (f ()).Wp (granting os nums) Q s) :
    (Prog.call (.log level msg) >>= f).Wp (granting os nums) Q s := by
  intro _ s' hs
  obtain rfl : s' = s := hs
  exact hf

theorem granting_uninit {n : Nat} {f : Buf n → Sys α}
    (hf : ∀ b, (f b).Wp (granting os nums) Q s) :
    (uninit n >>= f).Wp (granting os nums) Q s := by
  intro b s' hs
  obtain rfl : s' = s := hs
  exact hf b

theorem granting_open {path : CString} {f : Int → Sys α}
    (hf : (f (nums s.given)).Wp (granting os nums) Q ⟨s.given + 1, s.made ∨ os ≠ .linux⟩) :
    (openRdwr path >>= f).Wp (granting os nums) Q s := by
  intro fd s' hs
  obtain ⟨rfl, rfl⟩ := hs
  exact hf

theorem granting_ioctl {fd : Int} {req : Request} {n : Nat} {arg : Buf n} {f : IoctlRet → Sys α}
    (hf : ∀ r, r.ret = 0 → (f r).Wp (granting os nums) Q
      { s with made := s.made ∨ req = .siocifcreate ∨ req = .siocifcreate2 }) :
    (ioctl fd req arg >>= f).Wp (granting os nums) Q s := by
  intro r s' hs
  obtain ⟨hr, rfl⟩ := hs
  exact hf r hr

theorem granting_ioctlGet {fd : Int} {req : Request} {n : Nat} {arg : Buf n}
    {f : IoctlGetRet n → Sys α}
    (hf : ∀ r, r.ret = 0 → (f r).Wp (granting os nums) Q
      { s with made := s.made ∨ req = .tunsetiff }) :
    (ioctlGet fd req arg >>= f).Wp (granting os nums) Q s := by
  intro r s' hs
  obtain ⟨hr, rfl⟩ := hs
  exact hf r hr

end Granting

/-! ## What each back end accepts, and when it has made an interface -/

/-- The mode is one of the two, the bit aside. -/
def Mode.Known (mode : Mode) : Prop :=
  mode.clearPersist = tuntapModeEthernet ∨ mode.clearPersist = tuntapModeTunnel

theorem Mode.known_of_not {mode : Mode} (h : ¬ (mode.clearPersist ≠ tuntapModeEthernet ∧
    mode.clearPersist ≠ tuntapModeTunnel)) : mode.Known := by
  by_contra hne
  exact h (not_or.mp hne)

/-- The device nodes are opened, and the descriptor is not the one taken for
the end of the scan. -/
def NodeFound (nums : Nat → Int) (unit : Int) : Prop :=
  unit < tuntapIdMax ∧ nums 1 ≠ 256 ∨ unit = tuntapIdAny ∧ scanned nums ≠ 256

/-- A back end answers with a descriptor. -/
def Os.Accepts (nums : Nat → Int) (mode : Mode) (unit : Int) : Os → Prop
  | .linux => mode.Known ∧ 0 ≤ unit ∧ (unit = tuntapIdAny ∨ nums 1 ≤ tuntapIdMax)
  | .freeBsd => mode.Known ∧ (unit < tuntapIdMax ∨ unit = tuntapIdAny)
  | .openBsd => mode.Known ∧ NodeFound nums unit
  | .netBsd => mode.clearPersist = tuntapModeEthernet ∧
      (unit < tuntapIdMax ∨ unit = tuntapIdAny) ∨
        mode.clearPersist = tuntapModeTunnel ∧ NodeFound nums unit
  | .darwin => ¬ mode.isPersist ∧ mode.Known ∧ NodeFound nums unit

/-- A back end has made an interface at its end. -/
def Os.Makes (nums : Nat → Int) (mode : Mode) (unit : Int) (os : Os) : Prop :=
  match os with
  | .linux | .freeBsd => os.Accepts nums mode unit
  | .openBsd => mode.Known ∧ (mode.isPersist ∨ unit < tuntapIdMax ∨ unit = tuntapIdAny)
  | .netBsd => mode.isPersist ∨ mode.Known ∧ (unit < tuntapIdMax ∨ unit = tuntapIdAny)
  | .darwin => ¬ mode.isPersist ∧ mode.Known ∧ (unit < tuntapIdMax ∨ unit = tuntapIdAny)

/-- What a back end answers on a kernel that grants everything. -/
def Outcome (os : Os) (nums : Nat → Int) (mode : Mode) (unit : Int) (r : Int × Device)
    (s : Grants) : Prop :=
  (r.1 ≠ -1 ↔ os.Accepts nums mode unit) ∧ (s.made ↔ os.Makes nums mode unit)

section BackEnds

variable {nums : Nat → Int} {dev : Device} {mode : Mode} {unit : Int}

theorem Outcome.refused {os : Os} {dev : Device} {s : Grants}
    (ha : ¬ os.Accepts nums mode unit) (hm : s.made ↔ os.Makes nums mode unit) :
    Outcome os nums mode unit (-1, dev) s :=
  ⟨iff_of_false (fun h => h rfl) ha, hm⟩

theorem Outcome.accepted {os : Os} {fd : Int} {dev : Device} {s : Grants} (hfd : 0 ≤ fd)
    (ha : os.Accepts nums mode unit) (hm : s.made) (hmakes : os.Makes nums mode unit) :
    Outcome os nums mode unit (fd, dev) s :=
  ⟨iff_of_true (by show fd ≠ -1; omega) ha, iff_of_true hm hmakes⟩

theorem Linux.setPersistent_granted {os : Os} {fd : Int} {persist : Prop} [Decidable persist]
    {s : Grants} : (setPersistent fd persist).Wp (granting os nums)
      (fun r s' => r = 0 ∧ (s'.made ↔ s.made)) s := by
  unfold setPersistent
  split
  · intro r s' hs
    obtain ⟨hr, rfl⟩ := hs
    exact ⟨hr, Iff.rfl⟩
  · exact ⟨rfl, Iff.rfl⟩

theorem Linux.tuntapSysStart_outcome (hpos : ∀ i, 0 ≤ nums i) :
    (tuntapSysStart dev mode unit).Wp (granting .linux nums) (Outcome .linux nums mode unit)
      ⟨1, False⟩ := by
  dsimp only [tuntapSysStart]
  rw [Mode.clearPersist_eq]
  refine (Prog.wp_ite _ _ _).mpr ⟨fun hbad => ?_, fun hmode => ?_⟩
  · have hna : ¬ Os.linux.Accepts nums mode unit := fun h => h.1.elim hbad.1 hbad.2
    exact granting_log (.refused hna (iff_of_false id hna))
  have hknown := Mode.known_of_not hmode
  refine (Prog.wp_ite _ _ _).mpr ⟨fun hneg => ?_, fun hunit => ?_⟩
  · have hna : ¬ Os.linux.Accepts nums mode unit := fun h => absurd h.2.1 (by omega)
    exact granting_log (.refused hna (iff_of_false id hna))
  refine granting_open ?_
  have hfd : nums 1 ≠ -1 := by
    have h := hpos 1
    omega
  rw [if_neg hfd]
  refine (Prog.wp_ite _ _ _).mpr ⟨fun hbig => ?_, fun hsmall => ?_⟩
  · have hna : ¬ Os.linux.Accepts nums mode unit :=
      fun h => h.2.2.elim hbig.1 fun hle => absurd hle (Int.not_le.mpr hbig.2)
    exact .refused hna (iff_of_false (by simp) hna)
  have ha : Os.linux.Accepts nums mode unit := by
    refine ⟨hknown, by omega, ?_⟩
    by_contra hne
    obtain ⟨hany, hle⟩ := not_or.mp hne
    exact hsmall ⟨hany, Int.not_le.mp hle⟩
  refine granting_ioctlGet fun r hr => ?_
  rw [if_neg (by omega)]
  refine setPersistent_granted.bind fun persisted s' h => ?_
  obtain ⟨rfl, hmade⟩ := h
  rw [if_neg (by decide)]
  have hs : s'.made := hmade.mpr (Or.inr rfl)
  refine granting_ioctlGet fun rf hrf => ?_
  rw [if_neg (by omega)]
  refine (Prog.wp_ite _ _ _).mpr ⟨fun _ => ?_, fun _ => ?_⟩
  · refine granting_uninit fun ifrHw => granting_ioctlGet fun ra hra => ?_
    rw [if_neg (by omega)]
    exact .accepted (hpos 1) ha (Or.inl (Or.inl hs)) ha
  · exact .accepted (hpos 1) ha (Or.inl hs) ha

theorem FreeBsd.tuntapSysCreateDev_granted {os : Os} {iftype : CString} {s : Grants} :
    (tuntapSysCreateDev dev iftype unit).Wp (granting os nums)
      (fun r s' => r = 1 ∧ s'.given = s.given) s := by
  refine granting_ioctl fun r hr => ?_
  rw [if_neg (by omega)]
  exact ⟨rfl, rfl⟩

/-- The unit to open, or a refusal that has asked for nothing. -/
theorem FreeBsd.createIfRequired_granted {os : Os} {iftype : CString} {persist : Prop}
    [Decidable persist] {s : Grants} :
    (createIfRequired dev iftype persist unit).Wp (granting os nums) (fun r s' =>
      (∃ u, r = some u ∧ s'.given = s.given ∧ (unit < tuntapIdMax ∨ unit = tuntapIdAny)) ∨
        r = none ∧ s' = s ∧ ¬ (unit < tuntapIdMax ∨ unit = tuntapIdAny)) s := by
  unfold createIfRequired
  refine (Prog.wp_ite _ _ _).mpr ⟨fun hunit => ?_, fun hunit => ?_⟩
  · refine (Prog.wp_ite _ _ _).mpr ⟨fun _ => ?_, fun _ => ?_⟩
    · refine tuntapSysCreateDev_granted.bind fun r s' h => ?_
      obtain ⟨rfl, hgiven⟩ := h
      exact Or.inl ⟨unit, rfl, hgiven, Or.inl hunit⟩
    · exact Or.inl ⟨unit, rfl, rfl, Or.inl hunit⟩
  · refine (Prog.wp_ite _ _ _).mpr ⟨fun hany => ?_, fun hany => ?_⟩
    · refine tuntapSysCreateDev_granted.bind fun r s' h => ?_
      obtain ⟨rfl, hgiven⟩ := h
      exact Or.inl ⟨0, rfl, hgiven, Or.inr hany⟩
    · exact granting_log (Or.inr ⟨rfl, rfl, not_or.mpr ⟨hunit, hany⟩⟩)

theorem FreeBsd.tuntapSysStart_outcome (hpos : ∀ i, 0 ≤ nums i) :
    (tuntapSysStart dev mode unit).Wp (granting .freeBsd nums)
      (Outcome .freeBsd nums mode unit) ⟨1, False⟩ := by
  dsimp only [tuntapSysStart]
  rw [Mode.clearPersist_eq]
  refine (Prog.wp_ite _ _ _).mpr ⟨fun hbad => ?_, fun hmode => ?_⟩
  · have hna : ¬ Os.freeBsd.Accepts nums mode unit := fun h => h.1.elim hbad.1 hbad.2
    exact granting_log (.refused hna (iff_of_false id hna))
  refine createIfRequired_granted.bind fun r s' h => ?_
  rcases h with ⟨u, rfl, hgiven, hunit⟩ | ⟨rfl, rfl, hunit⟩
  · have ha : Os.freeBsd.Accepts nums mode unit := ⟨Mode.known_of_not hmode, hunit⟩
    refine granting_open ?_
    rw [hgiven]
    have hfd := hpos 1
    rw [if_neg (by show nums 1 ≠ -1; omega)]
    have hs : s'.made ∨ Os.freeBsd ≠ .linux := Or.inr (by decide)
    refine granting_ioctlGet fun r hr => ?_
    rw [if_neg (by omega)]
    refine granting_ioctlGet fun rf hrf => ?_
    rw [if_neg (by omega)]
    refine (Prog.wp_ite _ _ _).mpr ⟨fun _ => ?_, fun _ => ?_⟩
    · refine granting_uninit fun addr => granting_ioctlGet fun ra hra => ?_
      rw [if_neg (by omega)]
      exact .accepted hfd ha (Or.inl (Or.inl (Or.inl hs))) ha
    · exact .accepted hfd ha (Or.inl (Or.inl hs)) ha
  · have hna : ¬ Os.freeBsd.Accepts nums mode unit := fun h => hunit h.2
    exact .refused hna (iff_of_false id hna)

/-! The passages the other BSDs share: the node, the check of the descriptor. -/

/-- The node the unit asks for is open, or the unit is refused. -/
def NodeOpened (nums : Nat → Int) (unit : Int) (s : Grants) (r : Option (Int × Int))
    (s' : Grants) : Prop :=
  (∃ fd u, r = some (fd, u) ∧ 0 ≤ fd ∧ s'.made ∧ (unit < tuntapIdMax ∨ unit = tuntapIdAny) ∧
    (fd ≠ 256 ↔ NodeFound nums unit)) ∨
    r = none ∧ s' = s ∧ ¬ (unit < tuntapIdMax ∨ unit = tuntapIdAny)

theorem NodeFound.of_lt (h : unit < tuntapIdMax) : nums 1 ≠ 256 ↔ NodeFound nums unit := by
  unfold NodeFound tuntapIdAny
  unfold tuntapIdMax at h ⊢
  omega

theorem NodeFound.of_any (h : unit = tuntapIdAny) : scanned nums ≠ 256 ↔ NodeFound nums unit := by
  unfold NodeFound tuntapIdMax
  unfold tuntapIdAny at h ⊢
  omega

/-- A second descriptor is not 0 when the first one is. -/
theorem Bsd.scanUnits_granted {os : Os} (hos : os ≠ .linux) (hpos : ∀ i, 0 ≤ nums i)
    (hinj : Function.Injective nums) {type : CString} {n : Nat} {tun fd : Int} {b : Prop} :
    (scanUnits type (n + 2) tun fd).Wp (granting os nums)
      (fun r s' => r.1 = scanned nums ∧ s'.made) ⟨1, b⟩ := by
  have h₁ := hpos 1
  refine granting_open ?_
  unfold scanned
  refine (Prog.wp_ite _ _ _).mpr ⟨fun hfd => ?_, fun hfd => ?_⟩
  · have hne : nums 1 ≠ 0 := Int.ne_of_gt hfd
    rw [if_neg hne]
    exact ⟨rfl, Or.inr hos⟩
  · have hzero : nums 1 = 0 := Int.le_antisymm (Int.not_lt.mp hfd) h₁
    have hne : nums 2 ≠ 0 := by
      intro h
      exact absurd (hinj (h.trans hzero.symm)) (by decide)
    have h₂ := hpos 2
    rw [if_pos hzero]
    refine granting_open ?_
    rw [if_pos (show nums 2 > 0 by omega)]
    exact ⟨rfl, Or.inr hos⟩

theorem Bsd.node_granted {os : Os} (hos : os ≠ .linux) (hpos : ∀ i, 0 ≤ nums i)
    (hunit : unit < tuntapIdMax) {path : CString} {b : Prop} :
    (openRdwr path >>= fun fd => Prog.ret (some (fd, unit))).Wp (granting os nums)
      (NodeOpened nums unit ⟨1, b⟩) ⟨1, b⟩ :=
  granting_open (Or.inl ⟨nums 1, unit, rfl, hpos 1, Or.inr hos, Or.inl hunit,
    NodeFound.of_lt hunit⟩)

theorem Bsd.scan_granted {os : Os} (hos : os ≠ .linux) (hpos : ∀ i, 0 ≤ nums i)
    (hinj : Function.Injective nums) (hany : unit = tuntapIdAny) {type : CString} {b : Prop} :
    (scanUnits type tuntapIdMax.toNat 0 (-1) >>= fun found => Prog.ret (some found)).Wp
      (granting os nums) (NodeOpened nums unit ⟨1, b⟩) ⟨1, b⟩ := by
  refine (scanUnits_granted hos hpos hinj).bind fun r s' h => ?_
  obtain ⟨hfd, hmade⟩ := h
  refine Or.inl ⟨r.1, r.2, rfl, ?_, hmade, Or.inr hany, ?_⟩
  · rw [hfd]
    exact scanned_nonneg hpos
  · rw [hfd]
    exact NodeFound.of_any hany

theorem Bsd.openUnit_granted {os : Os} (hos : os ≠ .linux) (hpos : ∀ i, 0 ≤ nums i)
    (hinj : Function.Injective nums) {type : CString} {b : Prop} :
    (openUnit type unit).Wp (granting os nums) (NodeOpened nums unit ⟨1, b⟩) ⟨1, b⟩ := by
  unfold openUnit
  refine (Prog.wp_ite _ _ _).mpr ⟨fun hunit => node_granted hos hpos hunit, fun hunit => ?_⟩
  refine (Prog.wp_ite _ _ _).mpr ⟨fun hany => scan_granted hos hpos hinj hany, fun hany => ?_⟩
  exact granting_log (Or.inr ⟨rfl, rfl, not_or.mpr ⟨hunit, hany⟩⟩)

theorem NetBsd.openTun_granted (hpos : ∀ i, 0 ≤ nums i) (hinj : Function.Injective nums)
    {b : Prop} :
    (openTun unit).Wp (granting .netBsd nums) (NodeOpened nums unit ⟨1, b⟩) ⟨1, b⟩ := by
  have hos : Os.netBsd ≠ .linux := by decide
  unfold openTun
  refine (Prog.wp_ite _ _ _).mpr ⟨fun hunit => Bsd.node_granted hos hpos hunit, fun hunit => ?_⟩
  refine (Prog.wp_ite _ _ _).mpr
    ⟨fun hany => Bsd.scan_granted hos hpos hinj hany, fun hany => ?_⟩
  exact Or.inr ⟨rfl, rfl, not_or.mpr ⟨hunit, hany⟩⟩

theorem Bsd.checkFd_granted {os : Os} {fd : Int} (hfd : 0 ≤ fd) {s : Grants} :
    (checkFd fd).Wp (granting os nums) (fun goesOn s' => (goesOn = false ↔ fd = 256) ∧ s' = s)
      s := by
  unfold checkFd
  rw [if_neg (by omega)]
  refine (Prog.wp_ite _ _ _).mpr ⟨fun h => ?_, fun h => ?_⟩
  · exact granting_log ⟨iff_of_true rfl h, rfl⟩
  · exact ⟨iff_of_false (by decide) h, rfl⟩

theorem Bsd.saveLladdr_granted {os : Os} {s : Grants} :
    (saveLladdr dev).Wp (granting os nums) (fun _ s' => s' = s) s := by
  refine (Prog.wp_call_bind _ _).mpr fun ifa s' hs => ?_
  obtain rfl : s' = s := hs
  cases ifa with
  | none => exact rfl
  | some ifa =>
      dsimp only
      split
      next => exact rfl
      next => exact granting_log rfl

/-- From the check on: the descriptor comes back unless it is 256. -/
theorem Bsd.checkFd_outcome {os : Os} {fd : Int} (hfd : 0 ≤ fd) {s : Grants} (hs : s.made)
    (hiff : fd ≠ 256 ↔ os.Accepts nums mode unit) (hmakes : os.Makes nums mode unit)
    {f : Sys (Int × Device)}
    (hf : f.Wp (granting os nums) (fun r s' => r.1 = fd ∧ s'.made) s) :
    (checkFd fd >>= fun goesOn => if goesOn = false then Prog.ret (-1, dev) else f).Wp
      (granting os nums) (Outcome os nums mode unit) s := by
  refine (checkFd_granted hfd).bind fun goesOn s' h => ?_
  obtain ⟨hgoes, rfl⟩ := h
  refine (Prog.wp_ite _ _ _).mpr ⟨fun hno => ?_, fun hyes => ?_⟩
  · refine .refused (fun ha => ?_) (iff_of_true hs hmakes)
    exact hiff.mpr ha (hgoes.mp hno)
  · refine hf.mono fun r s'' h => ?_
    obtain ⟨hr, hmade⟩ := h
    have ha := hiff.mp fun h => hyes (hgoes.mpr h)
    have hne : r.1 ≠ -1 := by omega
    exact ⟨iff_of_true hne ha, iff_of_true hmade hmakes⟩

theorem OpenBsd.configure_granted {os : Os} {mode : Mode} {ifname : CString} {fd tun : Int}
    {s : Grants} (hs : s.made) : (configure dev mode ifname fd tun).Wp (granting os nums)
      (fun r s' => r.1 = fd ∧ s'.made) s := by
  refine granting_ioctlGet fun r hr => ?_
  rw [if_neg (by omega)]
  refine granting_ioctl fun rs hrs => ?_
  rw [if_neg (by omega)]
  refine (Prog.wp_ite _ _ _).mpr ⟨fun _ => ?_, fun _ => ⟨rfl, Or.inl (Or.inl hs)⟩⟩
  refine granting_uninit fun addr => granting_ioctlGet fun ra hra => ?_
  rw [if_neg (by omega)]
  exact ⟨rfl, Or.inl (Or.inl (Or.inl hs))⟩

/-- The interface of a persistent start is there before the unit is looked at. -/
theorem OpenBsd.forceCreation_granted {os : Os} {ifname : CString} {persist : Prop}
    [Decidable persist] : (forceCreation dev ifname persist unit).Wp (granting os nums)
      (fun goesOn s' => goesOn = true ∧ s' = ⟨1, persist⟩) ⟨1, False⟩ := by
  unfold forceCreation
  refine (Prog.wp_ite _ _ _).mpr ⟨fun hp => ?_, fun hp => ?_⟩
  · have hcreate : (tuntapSysCreateDev dev ifname unit).Wp (granting os nums)
        (fun r s' => r = 0 ∧ s' = ⟨1, persist⟩) ⟨1, False⟩ := by
      refine granting_ioctl fun r hr => ?_
      rw [if_neg (by omega)]
      refine ⟨rfl, ?_⟩
      simp [hp]
    refine hcreate.bind fun r s' h => ?_
    obtain ⟨rfl, rfl⟩ := h
    exact ⟨rfl, rfl⟩
  · refine ⟨rfl, ?_⟩
    simp [hp]

theorem OpenBsd.tuntapSysStart_outcome (hpos : ∀ i, 0 ≤ nums i)
    (hinj : Function.Injective nums) :
    (tuntapSysStart dev mode unit).Wp (granting .openBsd nums)
      (Outcome .openBsd nums mode unit) ⟨1, False⟩ := by
  dsimp only [tuntapSysStart]
  rw [Mode.clearPersist_eq]
  refine (Prog.wp_ite _ _ _).mpr ⟨fun hbad => ?_, fun hmode => ?_⟩
  · have hno : ¬ mode.Known := fun h => h.elim hbad.1 hbad.2
    exact granting_log (.refused (fun h => hno h.1) (iff_of_false id fun h => hno h.1))
  have hknown := Mode.known_of_not hmode
  refine forceCreation_granted.bind fun goesOn s' h => ?_
  obtain ⟨rfl, rfl⟩ := h
  rw [if_neg (by decide)]
  refine (Bsd.openUnit_granted (by decide) hpos hinj).bind fun r s' h => ?_
  rcases h with ⟨fd, u, rfl, hfd, hmade, hunit, hiff⟩ | ⟨rfl, rfl, hunit⟩
  · have hmakes : Os.openBsd.Makes nums mode unit := ⟨hknown, Or.inr hunit⟩
    refine Bsd.checkFd_outcome hfd hmade ?_ hmakes (configure_granted hmade)
    rw [hiff]
    exact ⟨fun h => ⟨hknown, h⟩, fun h => h.2⟩
  · refine .refused (fun h => hunit ?_) ?_
    · exact h.2.elim (fun h => Or.inl h.1) fun h => Or.inr h.1
    · exact ⟨fun hp => ⟨hknown, Or.inl hp⟩, fun h => h.2.resolve_right hunit⟩

theorem Darwin.configure_granted {os : Os} {mode : Mode} {type : CString} {fd tun : Int}
    {ifr : BsdIfreq} {s : Grants} (hs : s.made) :
    (configure dev mode type fd tun ifr).Wp (granting os nums)
      (fun r s' => r.1 = fd ∧ s'.made) s := by
  refine granting_ioctlGet fun r hr => ?_
  rw [if_neg (by omega)]
  refine granting_ioctl fun rs hrs => ?_
  rw [if_neg (by omega)]
  refine (Prog.wp_ite _ _ _).mpr ⟨fun _ => ?_, fun _ => ⟨rfl, Or.inl (Or.inl hs)⟩⟩
  refine Bsd.saveLladdr_granted.bind fun d s' h => ?_
  subst h
  exact ⟨rfl, Or.inl (Or.inl hs)⟩

theorem Darwin.tuntapSysStart_outcome (hpos : ∀ i, 0 ≤ nums i)
    (hinj : Function.Injective nums) :
    (tuntapSysStart dev mode unit).Wp (granting .darwin nums)
      (Outcome .darwin nums mode unit) ⟨1, False⟩ := by
  refine granting_uninit fun ifr => ?_
  refine (Prog.wp_ite _ _ _).mpr ⟨fun hp => ?_, fun hp => ?_⟩
  · exact granting_log (.refused (fun h => h.1 hp) (iff_of_false id fun h => h.1 hp))
  have hclear : mode.clearPersist = mode := by
    rw [← Mode.clearPersist_eq, if_neg hp]
  refine (Prog.wp_ite _ _ _).mpr ⟨fun hbad => ?_, fun hmode => ?_⟩
  · have hno : ¬ mode.Known := by
      unfold Mode.Known
      rw [hclear]
      exact fun h => h.elim hbad.1 hbad.2
    exact granting_log (.refused (fun h => hno h.2.1) (iff_of_false id fun h => hno h.2.1))
  rw [← hclear] at hmode
  have hknown := Mode.known_of_not hmode
  refine (Bsd.openUnit_granted (by decide) hpos hinj).bind fun r s' h => ?_
  rcases h with ⟨fd, u, rfl, hfd, hmade, hunit, hiff⟩ | ⟨rfl, rfl, hunit⟩
  · have hmakes : Os.darwin.Makes nums mode unit := ⟨hp, hknown, hunit⟩
    refine Bsd.checkFd_outcome hfd hmade ?_ hmakes (configure_granted hmade)
    rw [hiff]
    exact ⟨fun h => ⟨hp, hknown, h⟩, fun h => h.2.2⟩
  · refine .refused (fun h => hunit ?_) (iff_of_false id fun h => hunit h.2.2)
    exact h.2.2.elim (fun h => Or.inl h.1) fun h => Or.inr h.1

theorem NetBsd.tuntapSysCreateDev_granted {os : Os} {m : Mode} {s : Grants} :
    (tuntapSysCreateDev dev m unit).Wp (granting os nums)
      (fun r s' => r = 0 ∧ s'.given = s.given ∧ s'.made) s := by
  refine granting_ioctl fun r hr => ?_
  rw [if_neg (by omega)]
  exact ⟨rfl, rfl, Or.inr (Or.inl rfl)⟩

/-- Persistence creates the interface of any mode and any unit. -/
theorem NetBsd.forceCreation_granted {os : Os} :
    (forceCreation dev mode unit).Wp (granting os nums) (fun goesOn s' =>
      goesOn = true ∧ s'.given = 1 ∧ (s'.made ↔ mode.isPersist)) ⟨1, False⟩ := by
  unfold forceCreation
  refine (Prog.wp_ite _ _ _).mpr ⟨fun hp => ?_, fun hp => ?_⟩
  · refine tuntapSysCreateDev_granted.bind fun r s' h => ?_
    obtain ⟨rfl, hgiven, hmade⟩ := h
    exact ⟨rfl, hgiven, iff_of_true hmade hp⟩
  · exact ⟨rfl, rfl, iff_of_false id hp⟩

theorem NetBsd.tapNode_granted {os : Os} {s : Grants} :
    (tapNode dev unit).Wp (granting os nums) (fun r s' =>
      ((∃ name, r = some name) ∧ s'.given = s.given ∧
        (unit < tuntapIdMax ∨ unit = tuntapIdAny)) ∨
        r = none ∧ s' = s ∧ ¬ (unit < tuntapIdMax ∨ unit = tuntapIdAny)) s := by
  unfold tapNode
  refine (Prog.wp_ite _ _ _).mpr ⟨fun hunit => ?_, fun hunit => ?_⟩
  · refine tuntapSysCreateDev_granted.bind fun r s' h => ?_
    exact Or.inl ⟨⟨_, rfl⟩, h.2.1, Or.inl hunit⟩
  · refine (Prog.wp_ite _ _ _).mpr ⟨fun hany => ?_, fun hany => ?_⟩
    · exact Or.inl ⟨⟨_, rfl⟩, rfl, Or.inr hany⟩
    · exact Or.inr ⟨rfl, rfl, not_or.mpr ⟨hunit, hany⟩⟩

theorem NetBsd.tuntapSysStartTap_outcome (hpos : ∀ i, 0 ≤ nums i) {s : Grants}
    (hgiven : s.given = 1) (hmode : mode.clearPersist = tuntapModeEthernet)
    (hs : s.made ↔ mode.isPersist) :
    (tuntapSysStartTap dev unit).Wp (granting .netBsd nums) (Outcome .netBsd nums mode unit)
      s := by
  refine tapNode_granted.bind fun r s' h => ?_
  rcases h with ⟨⟨name, rfl⟩, hgiven', hunit⟩ | ⟨rfl, rfl, hunit⟩
  · have ha : Os.netBsd.Accepts nums mode unit := Or.inl ⟨hmode, hunit⟩
    have hmakes : Os.netBsd.Makes nums mode unit := Or.inr ⟨Or.inl hmode, hunit⟩
    refine granting_open ?_
    rw [hgiven', hgiven]
    have hfd := hpos 1
    rw [if_neg (by show nums 1 ≠ -1; omega)]
    have hmade : s'.made ∨ Os.netBsd ≠ .linux := Or.inr (by decide)
    refine granting_ioctlGet fun r hr => ?_
    rw [if_neg (by omega)]
    refine granting_ioctlGet fun rf hrf => ?_
    rw [if_neg (by omega)]
    refine Bsd.saveLladdr_granted.bind fun d s'' h => ?_
    subst h
    exact .accepted hfd ha (Or.inl (Or.inl hmade)) hmakes
  · refine .refused (fun ha => ?_) ?_
    · rcases ha with h | h
      · exact hunit h.2
      · exact hunit (h.2.elim (fun h => Or.inl h.1) fun h => Or.inr h.1)
    · rw [hs]
      exact ⟨Or.inl, fun h => h.resolve_right fun h => hunit h.2⟩

theorem NetBsd.tuntapSysStartTun_outcome (hpos : ∀ i, 0 ≤ nums i)
    (hinj : Function.Injective nums) {s : Grants} (hgiven : s.given = 1)
    (hmode : mode.clearPersist = tuntapModeTunnel) (hs : s.made ↔ mode.isPersist) :
    (tuntapSysStartTun dev unit).Wp (granting .netBsd nums) (Outcome .netBsd nums mode unit)
      s := by
  have heth : mode.clearPersist ≠ tuntapModeEthernet := by
    rw [hmode]
    decide
  have haccepts : Os.netBsd.Accepts nums mode unit ↔ NodeFound nums unit :=
    ⟨fun h => (h.resolve_left fun h => heth h.1).2, fun h => Or.inr ⟨hmode, h⟩⟩
  obtain ⟨given, made⟩ := s
  obtain rfl : given = 1 := hgiven
  refine (openTun_granted hpos hinj).bind fun r s' h => ?_
  rcases h with ⟨fd, u, rfl, hfd, hmade, hunit, hiff⟩ | ⟨rfl, rfl, hunit⟩
  · have hmakes : Os.netBsd.Makes nums mode unit := Or.inr ⟨Or.inr hmode, hunit⟩
    refine Bsd.checkFd_outcome hfd hmade (hiff.trans haccepts.symm) hmakes ?_
    refine granting_ioctlGet fun r hr => ?_
    rw [if_neg (by omega)]
    exact ⟨rfl, Or.inl hmade⟩
  · refine .refused (fun ha => ?_) ?_
    · exact hunit ((haccepts.mp ha).elim (fun h => Or.inl h.1) fun h => Or.inr h.1)
    · show made ↔ _
      rw [show made ↔ mode.isPersist from hs]
      exact ⟨Or.inl, fun h => h.resolve_right fun h => hunit h.2⟩

theorem NetBsd.tuntapSysStart_outcome (hpos : ∀ i, 0 ≤ nums i)
    (hinj : Function.Injective nums) :
    (tuntapSysStart dev mode unit).Wp (granting .netBsd nums)
      (Outcome .netBsd nums mode unit) ⟨1, False⟩ := by
  refine forceCreation_granted.bind fun goesOn s h => ?_
  obtain ⟨rfl, hgiven, hs⟩ := h
  dsimp only
  rw [if_neg (by decide), Mode.clearPersist_eq]
  refine (Prog.wp_ite _ _ _).mpr
    ⟨fun hmode => tuntapSysStartTap_outcome hpos hgiven hmode hs, fun heth => ?_⟩
  refine (Prog.wp_ite _ _ _).mpr
    ⟨fun hmode => tuntapSysStartTun_outcome hpos hinj hgiven hmode hs, fun htun => ?_⟩
  refine .refused (fun ha => ha.elim (fun h => heth h.1) fun h => htun h.1) ?_
  rw [hs]
  exact ⟨Or.inl, fun h => h.resolve_right fun h => h.1.elim heth htun⟩

theorem tuntapSysStart_outcome (os : Os) (hpos : ∀ i, 0 ≤ nums i)
    (hinj : Function.Injective nums) :
    (tuntapSysStart os dev mode unit).Wp (granting os nums) (Outcome os nums mode unit)
      ⟨1, False⟩ := by
  cases os with
  | linux => exact Linux.tuntapSysStart_outcome hpos
  | freeBsd => exact FreeBsd.tuntapSysStart_outcome hpos
  | openBsd => exact OpenBsd.tuntapSysStart_outcome hpos hinj
  | netBsd => exact NetBsd.tuntapSysStart_outcome hpos hinj
  | darwin => exact Darwin.tuntapSysStart_outcome hpos hinj

/-- `tuntap_start` adds the refusal of a persistent wildcard. -/
theorem tuntapStart_outcome (os : Os) (hpos : ∀ i, 0 ≤ nums i)
    (hinj : Function.Injective nums) (hdev : dev.tunFd = -1) :
    (tuntapStart os dev mode unit).Wp (granting os nums) (fun r s' =>
      (r.1 = 0 ↔ ¬ (mode.isPersist ∧ unit = tuntapIdAny) ∧ os.Accepts nums mode unit) ∧
        (s'.made ↔ ¬ (mode.isPersist ∧ unit = tuntapIdAny) ∧ os.Makes nums mode unit))
      ⟨0, False⟩ := by
  have hclean : ∀ {sock : Int} {d : Device} {s : Grants}, (startClean (-1) sock d).Wp
      (granting os nums) (fun r s' => r.1 = -1 ∧ s' = s) s := by
    intro sock d s
    have hclose : ∀ r s', granting os nums s (.close sock) r s' → s' = s := fun _ _ h => h
    simp only [startClean, Prog.wp_ite, Prog.wp_call_bind, Prog.pure_eq, Prog.wp_ret]
    exact ⟨fun h => absurd rfl h, fun _ =>
      ⟨fun _ r s' hs => ⟨trivial, hclose r s' hs⟩, fun _ => ⟨trivial, trivial⟩⟩⟩
  unfold tuntapStart
  rw [if_neg (not_not.mpr hdev)]
  refine (Prog.wp_call_bind _ _).mpr fun sock s hs => ?_
  obtain ⟨rfl, rfl⟩ := hs
  have hsock := hpos 0
  rw [if_neg (by show nums 0 ≠ -1; omega)]
  refine (Prog.wp_ite _ _ _).mpr ⟨fun hany => ?_, fun hany => ?_⟩
  · refine hclean.mono fun r s' h => ?_
    obtain ⟨hr, rfl⟩ := h
    exact ⟨iff_of_false (by omega) fun h => h.1 hany, iff_of_false id fun h => h.1 hany⟩
  · refine (tuntapSysStart_outcome os hpos hinj).bind fun r s' h => ?_
    obtain ⟨fd, d⟩ := r
    obtain ⟨hfd, hmade⟩ := h
    rw [and_iff_right hany, and_iff_right hany, ← hmade, ← hfd]
    refine (Prog.wp_ite _ _ _).mpr ⟨fun hno => ?_, fun hyes => ⟨iff_of_true rfl hyes, Iff.rfl⟩⟩
    subst hno
    refine hclean.mono fun r s'' h => ?_
    obtain ⟨hr, rfl⟩ := h
    exact ⟨iff_of_false (by omega) fun h => h rfl, Iff.rfl⟩

end BackEnds

/-! ## Against the domain documented -/

/-- The arguments all back ends should admit. -/
def InDomain (mode : Mode) (unit : Int) : Prop :=
  mode.Known ∧ (0 ≤ unit ∧ unit < tuntapIdMax ∨ unit = tuntapIdAny ∧ ¬ mode.isPersist)

/-- Where the checks of a back end come to the same. -/
def Os.Agrees (nums : Nat → Int) (mode : Mode) (unit : Int) : Os → Prop
  | .linux => mode.Known → 0 ≤ unit → unit ≠ tuntapIdAny →
      (unit < tuntapIdMax ↔ nums 1 ≤ tuntapIdMax)
  | .freeBsd => mode.Known → 0 ≤ unit
  | .openBsd => mode.Known → ¬ (mode.isPersist ∧ unit = tuntapIdAny) →
      0 ≤ unit ∧ (mode.isPersist → unit < tuntapIdMax) ∧
        (unit < tuntapIdMax → nums 1 ≠ 256) ∧ (unit = tuntapIdAny → scanned nums ≠ 256)
  | .netBsd => ¬ (mode.isPersist ∧ unit = tuntapIdAny) →
      (mode.isPersist → mode.Known ∧ unit < tuntapIdMax) ∧ (mode.Known → 0 ≤ unit) ∧
        (mode.clearPersist = tuntapModeTunnel →
          (unit < tuntapIdMax → nums 1 ≠ 256) ∧ (unit = tuntapIdAny → scanned nums ≠ 256))
  | .darwin => mode.Known → ¬ (mode.isPersist ∧ unit = tuntapIdAny) →
      (mode.isPersist → unit < 0 ∨ tuntapIdMax ≤ unit) ∧
        (¬ mode.isPersist → 0 ≤ unit ∧ (unit < tuntapIdMax → nums 1 ≠ 256) ∧
          (unit = tuntapIdAny → scanned nums ≠ 256))

/-- A comparison of conditions, with nothing of the programs left. -/
theorem Os.agrees_iff (os : Os) (nums : Nat → Int) (mode : Mode) (unit : Int) :
    ((¬ (mode.isPersist ∧ unit = tuntapIdAny) ∧ os.Accepts nums mode unit ↔
        InDomain mode unit) ∧
      (¬ InDomain mode unit →
        ¬ (¬ (mode.isPersist ∧ unit = tuntapIdAny) ∧ os.Makes nums mode unit))) ↔
      os.Agrees nums mode unit := by
  have hexcl : ¬ (mode.clearPersist = tuntapModeEthernet ∧
      mode.clearPersist = tuntapModeTunnel) := fun h => absurd (h.1.symm.trans h.2) (by decide)
  cases os with
  | linux =>
      unfold Os.Agrees Os.Makes Os.Accepts InDomain Mode.Known tuntapIdAny tuntapIdMax
      grind
  | freeBsd =>
      unfold Os.Agrees Os.Makes Os.Accepts InDomain Mode.Known tuntapIdAny tuntapIdMax
      grind
  | openBsd =>
      unfold Os.Agrees Os.Makes Os.Accepts NodeFound InDomain Mode.Known tuntapIdAny tuntapIdMax
      grind
  | netBsd =>
      unfold Os.Agrees Os.Makes Os.Accepts NodeFound InDomain Mode.Known tuntapIdAny tuntapIdMax
      grind
  | darwin =>
      unfold Os.Agrees Os.Makes Os.Accepts NodeFound InDomain Mode.Known tuntapIdAny tuntapIdMax
      grind

/-- On any system, for any arguments, any device that is not started and any
numbering of descriptors: a start succeeds exactly on the domain, and one
outside of it makes no interface, if and only if the checks come to the same. -/
theorem start_domain_iff (os : Os) (dev : Device) (mode : Mode) (unit : Int)
    (nums : Nat → Int) (tr : List (Event Call Resp)) (r : Int × Device) (s : Grants)
    (hdev : dev.tunFd = -1) (hpos : ∀ i, 0 ≤ nums i) (hinj : Function.Injective nums)
    (hr : (tuntapStart os dev mode unit).Runs tr r)
    (hs : (granting os nums).Steps ⟨0, False⟩ tr s) :
    ((r.1 = 0 ↔ InDomain mode unit) ∧ (¬ InDomain mode unit → ¬ s.made)) ↔
      os.Agrees nums mode unit := by
  obtain ⟨hret, hmade⟩ := (tuntapStart_outcome os hpos hinj hdev).of_runs hr hs
  rw [hret, hmade]
  exact os.agrees_iff nums mode unit

/-- Descriptors from 3 on. -/
def fromThree (i : Nat) : Int := i + 3

theorem fromThree_nonneg (i : Nat) : 0 ≤ fromThree i := by
  unfold fromThree
  omega

theorem fromThree_injective : Function.Injective fromThree := by
  intro i j h
  unfold fromThree at h
  omega

/-- NetBSD starts a persistent `tap0`. -/
theorem netBsd_starts_tap0 : ∃ tr r s,
    (tuntapStart .netBsd Device.init (tuntapModeEthernet ||| tuntapModePersist) 0).Runs tr r ∧
      (granting .netBsd fromThree).Steps ⟨0, False⟩ tr s ∧ r.1 = 0 := by
  obtain ⟨tr, r, s, hr, hs⟩ := Kernel.exists_steps (K := granting .netBsd fromThree)
    granting_total
    (tuntapStart .netBsd Device.init (tuntapModeEthernet ||| tuntapModePersist) 0) ⟨0, False⟩
  have hiff := start_domain_iff .netBsd Device.init _ 0 fromThree tr r s rfl fromThree_nonneg
    fromThree_injective hr hs
  have hagrees : Os.netBsd.Agrees fromThree (tuntapModeEthernet ||| tuntapModePersist) 0 := by
    refine fun _ => ⟨fun _ => ⟨Or.inl (by decide), by decide⟩, fun _ => by decide, fun h => ?_⟩
    exact absurd h (by decide)
  exact ⟨tr, r, s, hr, hs, (hiff.mpr hagrees).1.mpr ⟨Or.inl (by decide), Or.inl (by decide)⟩⟩

/-- Linux starts `tun300`. -/
theorem linux_starts_tun300 :
    ¬ ∀ (os : Os) (dev : Device) (mode : Mode) (unit : Int) (nums : Nat → Int)
      (tr : List (Event Call Resp)) (r : Int × Device) (s : Grants), os ≠ .darwin →
      dev.tunFd = -1 → (∀ i, 0 ≤ nums i) → Function.Injective nums →
        (tuntapStart os dev mode unit).Runs tr r →
          (granting os nums).Steps ⟨0, False⟩ tr s →
            (r.1 = 0 ↔ InDomain mode unit) ∧ (¬ InDomain mode unit → ¬ s.made) := by
  intro hclaim
  obtain ⟨tr, r, s, hr, hs⟩ := Kernel.exists_steps (K := granting .linux fromThree)
    granting_total (tuntapStart .linux Device.init tuntapModeTunnel 300) ⟨0, False⟩
  obtain ⟨hdomain, -⟩ := hclaim .linux Device.init tuntapModeTunnel 300 fromThree tr r s
    (by decide) rfl fromThree_nonneg fromThree_injective hr hs
  obtain ⟨hret, -⟩ := (tuntapStart_outcome .linux fromThree_nonneg fromThree_injective
    rfl).of_runs hr hs
  have haccepts : Os.linux.Accepts fromThree tuntapModeTunnel 300 :=
    ⟨Or.inr (by decide), by decide, Or.inr (by decide)⟩
  have hin : InDomain tuntapModeTunnel 300 :=
    hdomain.mp (hret.mpr ⟨fun h => absurd h.2 (by decide), haccepts⟩)
  exact absurd hin.2 (by decide)

end Libtuntap
