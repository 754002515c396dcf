import Libtuntap.Effect.Wp
import Libtuntap.Proofs.Requests

/-!
# The scan for a free unit

OpenBSD, NetBSD and Darwin have no device that picks a unit, so a wildcard start
opens the nodes one after another and keeps the first that opens. Two numbers
stand in the way. The loop goes on while the descriptor is not above 0, so
descriptor 0, although given, is passed over and stays open. And the check after
the loop takes 256 for the value of the counter at its end, where it looks at
the descriptor.

A unit is openable or not, and if it is, `open` gives a number for it. The
kernel here knows no more than that, and grants everything else.
-/

namespace Libtuntap

open Effect CMem

/-- The nodes of a type, with the number `open` gives for a unit, if it opens.
The state is the list of the descriptors given and not closed. -/
def Scanning (type : CString) (units : Nat → Option Int) (s : List Int) :
    (c : Call) → Resp c → List Int → Prop
  | .socket _, fd, s' => fd ≠ -1 ∧ s' = s
  | .open path, fd, s' => ∀ u : Nat, path = Bsd.devNode type u →
      match units u with
      | some n => fd = n ∧ s' = n :: s
      | none => fd = -1 ∧ s' = s
  | .close fd, _, s' => s' = s.erase fd
  | .ioctl .., r, s' => r.ret ≠ -1 ∧ s' = s
  | .ioctlVal .., r, s' => r.ret ≠ -1 ∧ s' = s
  | .ioctlGet .., r, s' => r.ret ≠ -1 ∧ s' = s
  | _, _, s' => s' = s

def scanning (type : CString) (units : Nat → Option Int) : Kernel Call Resp (List Int) :=
  Scanning type units

/-- Of the units in between, none stops the loop. -/
def Skipped (units : Nat → Option Int) (first last : Nat) : Prop :=
  ∀ v, first ≤ v → v < last → units v = none ∨ units v = some 0

/-- The loop has stopped at a unit. -/
structure Stopped (units : Nat → Option Int) (first : Nat) (s : List Int) (r : Int × Int)
    (s' : List Int) (u : Nat) : Prop where
  first_le : first ≤ u
  lt_max : (u : Int) < tuntapIdMax
  unit : r.2 = u
  opened : units u = some r.1
  pos : 0 < r.1
  skipped : Skipped units first u
  left : (∀ v, first ≤ v → v < u → units v = none) → s' = r.1 :: s

/-- The loop has run to its end. -/
structure RanOut (units : Nat → Option Int) (first : Nat) (fd : Int) (r : Int × Int) : Prop where
  unit : r.2 = tuntapIdMax
  skipped : Skipped units first tuntapIdMax.toNat
  last : r.1 = -1 ∨ r.1 = 0
  closed : fd = -1 → (∀ v, first ≤ v → v < tuntapIdMax.toNat → units v = none) → r.1 = -1

section Scan

variable {type : CString} {units : Nat → Option Int} {s s' : List Int} {first u : Nat} {fd : Int}
  {r : Int × Int}

theorem Skipped.cons (hfirst : units first = none ∨ units first = some 0)
    (h : Skipped units (first + 1) u) : Skipped units first u := by
  intro v hle hlt
  by_cases hv : v = first
  · rw [hv]
    exact hfirst
  · exact h v (by omega) hlt

/-- One unit more before a loop that stops. -/
theorem Stopped.cons (hfirst : units first = none ∨ units first = some 0) {t : List Int}
    (ht : units first = none → t = s) (h : Stopped units (first + 1) t r s' u) :
    Stopped units first s r s' u where
  first_le := by
    have hle := h.first_le
    omega
  lt_max := h.lt_max
  unit := h.unit
  opened := h.opened
  pos := h.pos
  skipped := h.skipped.cons hfirst
  left hnone := by
    have hle := h.first_le
    rw [h.left fun v hv hlt => hnone v (by omega) hlt, ht (hnone first (by omega) (by omega))]

theorem RanOut.cons (hfirst : units first = none ∨ units first = some 0) {fd' : Int}
    (hfd' : units first = none → fd' = -1) (hlt : first < tuntapIdMax.toNat)
    (h : RanOut units (first + 1) fd' r) : RanOut units first fd r where
  unit := h.unit
  skipped := h.skipped.cons hfirst
  last := h.last
  closed _ hnone := by
    refine h.closed (hfd' (hnone first (by omega) hlt)) fun v hv hlt' => ?_
    exact hnone v (by omega) hlt'

theorem scanUnits_wp (hpos : ∀ u n, units u = some n → 0 ≤ n) (n first : Nat) (fd : Int)
    (hn : n + first = tuntapIdMax.toNat) (hfd : fd = -1 ∨ fd = 0) :
    (Bsd.scanUnits type n first fd).Wp (scanning type units) (fun r s' =>
      (∃ u, Stopped units first s r s' u) ∨ RanOut units first fd r) s := by
  induction n generalizing first fd s with
  | zero =>
      have hfirst : first = tuntapIdMax.toNat := by omega
      rw [hfirst]
      exact Or.inr ⟨rfl, fun v hle hlt => by omega, hfd, fun hneg _ => hneg⟩
  | succ n ih =>
      have hlt : first < tuntapIdMax.toNat := by omega
      refine (Prog.wp_call_bind _ _).mpr fun fd' t hs => ?_
      have hgave := hs first rfl
      have hnext : ((first : Int) + 1) = ((first + 1 : Nat) : Int) := by omega
      cases hu : units first with
      | none =>
          rw [hu] at hgave
          obtain ⟨rfl, rfl⟩ := hgave
          rw [if_neg (show ¬ (-1 : Int) > 0 by decide), hnext]
          refine (ih (first + 1) (-1) (by omega) (Or.inl rfl)).mono fun r s' hr => ?_
          rcases hr with ⟨u, hstop⟩ | hout
          · exact Or.inl ⟨u, hstop.cons (Or.inl hu) fun _ => rfl⟩
          · exact Or.inr (hout.cons (Or.inl hu) (fun _ => rfl) hlt)
      | some m =>
          rw [hu] at hgave
          obtain ⟨rfl, rfl⟩ := hgave
          have h0 := hpos first _ hu
          by_cases hm : fd' > 0
          · rw [if_pos hm]
            refine Or.inl ⟨first, Nat.le_refl _, ?_, rfl, hu, hm, ?_, fun _ => rfl⟩
            · show (first : Int) < 256
              have : first < 256 := hlt
              omega
            · intro v hle hv
              omega
          · obtain rfl : fd' = 0 := Int.le_antisymm (Int.not_lt.mp hm) h0
            rw [if_neg hm, hnext]
            refine (ih (first + 1) 0 (by omega) (Or.inr rfl)).mono fun r s' hr => ?_
            rcases hr with ⟨u, hstop⟩ | hout
            · refine Or.inl ⟨u, hstop.cons (Or.inr hu) fun hnone => ?_⟩
              rw [hu] at hnone
              cases hnone
            · refine Or.inr (hout.cons (Or.inr hu) (fun hnone => ?_) hlt)
              rw [hu] at hnone
              cases hnone

end Scan

/-! ## The back ends -/

/-- The descriptor and the counter the loop has left, with the descriptors open. -/
def Scanned (units : Nat → Option Int) (found : Int × Int) (left : List Int) : Prop :=
  (∃ u, Stopped units 0 [] found left u) ∨ RanOut units 0 (-1) found

/-- The scan, and what the back end makes of the descriptor and the counter it
left. -/
def ScanEnds (type : CString) (units : Nat → Option Int) (r : Int × Device)
    (left : List Int) : Prop :=
  ∃ found : Int × Int,
    Scanned units found left ∧
      ((found.1 = -1 ∨ found.1 = 256) ∧ r.1 = -1 ∨
        found.1 ≠ -1 ∧ found.1 ≠ 256 ∧ r.1 = found.1 ∧
          r.2.ifName.cstr = type ++ CString.int found.2)

section BackEnds

variable {type : CString} {units : Nat → Option Int} {s left : List Int} {dev : Device}
  {mode : Mode} {found : Int × Int}

theorem openUnit_any : Bsd.openUnit type tuntapIdAny =
    Bsd.scanUnits type tuntapIdMax.toNat 0 (-1) >>= fun found => Prog.ret (some found) := by
  unfold Bsd.openUnit
  rw [if_neg (by decide), if_pos rfl]
  rfl

/-- The counter is a unit or the end of the units. -/
theorem Scanned.counter_le (h : Scanned units found left) :
    0 ≤ found.2 ∧ found.2 ≤ tuntapIdMax := by
  rcases h with ⟨u, hstop⟩ | hout
  · have hlt := hstop.lt_max
    rw [hstop.unit]
    omega
  · rw [hout.unit]
    decide

/-- What follows the scan, when it configures the interface of the counter. -/
theorem checkFd_wp {p : Sys (Int × Device)}
    (h : Scanned units found left)
    (hp : p.Wp (scanning type units) (fun r s' =>
      s' = left ∧ r.1 = found.1 ∧ r.2.ifName.cstr = type ++ CString.int found.2) left) :
    (Bsd.checkFd found.1 >>= fun goesOn =>
      if goesOn = false then Prog.ret (-1, dev) else p).Wp (scanning type units)
      (ScanEnds type units) left := by
  have hrefused : ∀ {t : List Int}, t = left → found.1 = -1 ∨ found.1 = 256 →
      ScanEnds type units (-1, dev) t := by
    rintro t rfl hfd
    exact ⟨found, h, Or.inl ⟨hfd, rfl⟩⟩
  unfold Bsd.checkFd
  by_cases hneg : found.1 = -1
  · rw [if_pos hneg]
    intro _ t hlog
    exact hrefused hlog (Or.inl hneg)
  · rw [if_neg hneg]
    by_cases hmax : found.1 = 256
    · rw [if_pos hmax]
      intro _ t hlog
      exact hrefused hlog (Or.inr hmax)
    · rw [if_neg hmax]
      refine hp.mono fun r t ht => ?_
      obtain ⟨rfl, hfd, hname⟩ := ht
      exact ⟨found, h, Or.inr ⟨hneg, hmax, hfd, hname⟩⟩

/-- The kernel of a request that is granted and answers about itself. -/
theorem granted_wp {n : Nat} {fd : Int} {req : Request} {arg : Buf n} {α : Type}
    {Q : α → List Int → Prop} {f : IoctlGetRet n → Sys α}
    (h : ∀ r, r.ret ≠ -1 → (f r).Wp (scanning type units) Q s) :
    (ioctlGet fd req arg >>= f).Wp (scanning type units) Q s := by
  refine (Prog.wp_call_bind _ _).mpr fun r t hr => ?_
  obtain ⟨hret, rfl⟩ := hr
  exact h r hret

theorem saveLladdr_wp : (Bsd.saveLladdr dev).Wp (scanning type units)
    (fun d t => t = s ∧ d.ifName = dev.ifName) s := by
  unfold Bsd.saveLladdr
  refine (Prog.wp_call_bind _ _).mpr fun ifa t ht => ?_
  obtain rfl : t = s := ht
  cases ifa with
  | none => exact ⟨rfl, rfl⟩
  | some l =>
      dsimp only
      split
      · exact ⟨rfl, rfl⟩
      · intro _ t' ht'
        exact ⟨ht', rfl⟩

theorem OpenBsd.configure_wp (htype : type.strlen = 3) {fd tun : Int} (h0 : 0 ≤ tun)
    (hmax : tun ≤ tuntapIdMax) :
    (OpenBsd.configure dev mode type fd tun).Wp (scanning type units) (fun r t =>
      t = s ∧ r.1 = fd ∧ r.2.ifName.cstr = type ++ CString.int tun) s := by
  have hname := cstr_named (n := 32) dev.ifName Buf.zero (by omega)
    (strlen_unit_le htype h0 hmax)
  unfold OpenBsd.configure
  refine granted_wp fun r hr => ?_
  rw [if_neg hr]
  refine (Prog.wp_call_bind _ _).mpr fun r' t hset => ?_
  obtain ⟨hret, rfl⟩ := hset
  rw [if_neg hret]
  refine (Prog.wp_ite _ _ _).mpr ⟨fun _ => ?_, fun _ => ?_⟩
  · refine (Prog.wp_call_bind _ _).mpr fun addr t' hun => ?_
    obtain rfl : t' = t := hun
    refine granted_wp fun ra hra => ?_
    rw [if_neg hra]
    refine ⟨rfl, rfl, ?_⟩
    dsimp only
    exact hname
  · refine ⟨rfl, rfl, ?_⟩
    dsimp only
    exact hname

theorem Darwin.configure_wp (htype : type.strlen = 3) {fd tun : Int} (h0 : 0 ≤ tun)
    (hmax : tun ≤ tuntapIdMax) (ifr : BsdIfreq) :
    (Darwin.configure dev mode type fd tun ifr).Wp (scanning type units) (fun r t =>
      t = s ∧ r.1 = fd ∧ r.2.ifName.cstr = type ++ CString.int tun) s := by
  have hname := cstr_named dev.ifName (ifr.memset 0 0 32) (by omega)
    (strlen_unit_le htype h0 hmax)
  unfold Darwin.configure
  refine granted_wp fun r hr => ?_
  rw [if_neg hr]
  refine (Prog.wp_call_bind _ _).mpr fun r' t hset => ?_
  obtain ⟨hret, rfl⟩ := hset
  rw [if_neg hret]
  refine (Prog.wp_ite _ _ _).mpr ⟨fun _ => ?_, fun _ => ?_⟩
  · refine saveLladdr_wp.bind fun d t' hd => ?_
    obtain ⟨rfl, hkept⟩ := hd
    refine ⟨rfl, rfl, ?_⟩
    dsimp only at hkept ⊢
    rw [hkept]
    exact hname
  · refine ⟨rfl, rfl, ?_⟩
    dsimp only
    exact hname

end BackEnds

/-- The starts that scan for a unit, with the interface type they name it with. -/
def Scans (os : Os) (mode : Mode) (type : CString) : Prop :=
  match os with
  | .openBsd | .darwin =>
      mode = tuntapModeEthernet ∧ type = CString.lit "tap" ∨
        mode = tuntapModeTunnel ∧ type = CString.lit "tun"
  | .netBsd => mode = tuntapModeTunnel ∧ type = CString.lit "tun"
  | .linux | .freeBsd => False

section Start

variable {type : CString} {units : Nat → Option Int} {dev : Device} {mode : Mode}

theorem Scans.strlen {os : Os} (h : Scans os mode type) : type.strlen = 3 := by
  cases os with
  | linux => exact h.elim
  | freeBsd => exact h.elim
  | netBsd =>
      rw [h.2]
      decide
  | openBsd => rcases h with ⟨-, rfl⟩ | ⟨-, rfl⟩ <;> decide
  | darwin => rcases h with ⟨-, rfl⟩ | ⟨-, rfl⟩ <;> decide

theorem Scans.not_isPersist {os : Os} (h : Scans os mode type) : ¬ mode.isPersist := by
  cases os with
  | linux => exact h.elim
  | freeBsd => exact h.elim
  | netBsd =>
      rw [h.1]
      decide
  | openBsd => rcases h with ⟨rfl, -⟩ | ⟨rfl, -⟩ <;> decide
  | darwin => rcases h with ⟨rfl, -⟩ | ⟨rfl, -⟩ <;> decide

/-- Where there are two kinds of nodes, the mode picks one. -/
theorem node_type (h : mode = tuntapModeEthernet ∧ type = CString.lit "tap" ∨
    mode = tuntapModeTunnel ∧ type = CString.lit "tun") :
    CString.lit (if mode = tuntapModeEthernet then "tap" else "tun") = type := by
  rcases h with ⟨hmode, rfl⟩ | ⟨hmode, rfl⟩
  · rw [if_pos hmode]
  · rw [if_neg (by rw [hmode]; decide)]

theorem openUnit_any_wp (hpos : ∀ u n, units u = some n → 0 ≤ n) :
    (Bsd.openUnit type tuntapIdAny).Wp (scanning type units) (fun o left =>
      ∃ found, o = some found ∧ Scanned units found left) [] := by
  rw [openUnit_any]
  refine (scanUnits_wp hpos _ 0 (-1) rfl (Or.inl rfl)).bind fun found t h => ?_
  exact ⟨found, rfl, h⟩

theorem OpenBsd.tuntapSysStart_wp (h : Scans .openBsd mode type)
    (hpos : ∀ u n, units u = some n → 0 ≤ n) :
    (OpenBsd.tuntapSysStart dev mode tuntapIdAny).Wp (scanning type units)
      (ScanEnds type units) [] := by
  dsimp only [OpenBsd.tuntapSysStart]
  rw [if_neg h.not_isPersist, node_type h]
  refine (Prog.wp_ite _ _ _).mpr ⟨fun hbad => ?_, fun _ => ?_⟩
  · rcases h with ⟨hmode, -⟩ | ⟨hmode, -⟩
    · exact absurd hmode hbad.1
    · exact absurd hmode hbad.2
  · unfold OpenBsd.forceCreation
    rw [if_neg h.not_isPersist]
    refine (openUnit_any_wp hpos).bind fun o left ho => ?_
    obtain ⟨found, rfl, hfound⟩ := ho
    obtain ⟨h0, hmax⟩ := hfound.counter_le
    exact checkFd_wp hfound (OpenBsd.configure_wp h.strlen h0 hmax)

theorem Darwin.tuntapSysStart_wp (h : Scans .darwin mode type)
    (hpos : ∀ u n, units u = some n → 0 ≤ n) :
    (Darwin.tuntapSysStart dev mode tuntapIdAny).Wp (scanning type units)
      (ScanEnds type units) [] := by
  dsimp only [Darwin.tuntapSysStart]
  refine (Prog.wp_call_bind _ _).mpr fun ifr t hun => ?_
  obtain rfl : t = [] := hun
  rw [node_type h, if_neg h.not_isPersist]
  refine (Prog.wp_ite _ _ _).mpr ⟨fun hbad => ?_, fun _ => ?_⟩
  · rcases h with ⟨hmode, -⟩ | ⟨hmode, -⟩
    · exact absurd hmode hbad.1
    · exact absurd hmode hbad.2
  · refine (openUnit_any_wp hpos).bind fun o left ho => ?_
    obtain ⟨found, rfl, hfound⟩ := ho
    obtain ⟨h0, hmax⟩ := hfound.counter_le
    exact checkFd_wp hfound (Darwin.configure_wp h.strlen h0 hmax _)

theorem NetBsd.openTun_any_wp (hpos : ∀ u n, units u = some n → 0 ≤ n) :
    (NetBsd.openTun tuntapIdAny).Wp (scanning (CString.lit "tun") units) (fun o left =>
      ∃ found, o = some found ∧ Scanned units found left) [] := by
  unfold NetBsd.openTun
  rw [if_neg (show ¬ tuntapIdAny < tuntapIdMax by decide), if_pos rfl]
  refine (scanUnits_wp hpos _ 0 (-1) rfl (Or.inl rfl)).bind fun found t h => ?_
  exact ⟨found, rfl, h⟩

theorem NetBsd.tuntapSysStartTun_wp (hpos : ∀ u n, units u = some n → 0 ≤ n) :
    (NetBsd.tuntapSysStartTun dev tuntapIdAny).Wp (scanning (CString.lit "tun") units)
      (ScanEnds (CString.lit "tun") units) [] := by
  unfold NetBsd.tuntapSysStartTun
  refine (NetBsd.openTun_any_wp hpos).bind fun o left ho => ?_
  obtain ⟨found, rfl, hfound⟩ := ho
  obtain ⟨h0, hmax⟩ := hfound.counter_le
  have htype : (CString.lit "tun").strlen = 3 := by decide
  generalize CString.lit "tun" = type at htype ⊢
  have hname := cstr_named (n := 32) dev.ifName Buf.zero (by omega)
    (strlen_unit_le htype h0 hmax)
  refine checkFd_wp hfound ?_
  refine granted_wp fun r hr => ?_
  rw [if_neg hr]
  refine ⟨rfl, rfl, ?_⟩
  dsimp only
  exact hname

theorem NetBsd.tuntapSysStart_wp (h : Scans .netBsd mode type)
    (hpos : ∀ u n, units u = some n → 0 ≤ n) :
    (NetBsd.tuntapSysStart dev mode tuntapIdAny).Wp (scanning type units)
      (ScanEnds type units) [] := by
  have hpersist := h.not_isPersist
  obtain ⟨rfl, rfl⟩ := h
  dsimp only [NetBsd.tuntapSysStart]
  unfold NetBsd.forceCreation
  rw [if_neg hpersist, if_neg hpersist]
  exact NetBsd.tuntapSysStartTun_wp hpos

theorem tuntapSysStart_scans {os : Os} (h : Scans os mode type)
    (hpos : ∀ u n, units u = some n → 0 ≤ n) :
    (tuntapSysStart os dev mode tuntapIdAny).Wp (scanning type units)
      (ScanEnds type units) [] := by
  cases os with
  | linux => exact h.elim
  | freeBsd => exact h.elim
  | openBsd => exact OpenBsd.tuntapSysStart_wp h hpos
  | netBsd => exact NetBsd.tuntapSysStart_wp h hpos
  | darwin => exact Darwin.tuntapSysStart_wp h hpos

end Start

/-- The answer of `tuntap_start`, with the descriptors the scan has left open. -/
def StartScans (type : CString) (units : Nat → Option Int) (r : Int × Device)
    (left : List Int) : Prop :=
  ∃ found t, Scanned units found t ∧
    ((found.1 = -1 ∨ found.1 = 256) ∧ r.1 = -1 ∨
      found.1 ≠ -1 ∧ found.1 ≠ 256 ∧ r.1 = 0 ∧ r.2.tunFd = found.1 ∧
        r.2.ifName.cstr = type ++ CString.int found.2 ∧ left = t)

theorem startClean_wp {type : CString} {units : Nat → Option Int} {s : List Int}
    {Q : Int × Device → List Int → Prop} {sock : Int} {dev : Device} (h : ∀ t, Q (-1, dev) t) :
    (startClean (-1) sock dev).Wp (scanning type units) Q s := by
  simp [startClean, h]

theorem tuntapStart_scans {os : Os} {mode : Mode} {type : CString} {units : Nat → Option Int}
    {dev : Device} (hdev : dev.tunFd = -1) (h : Scans os mode type)
    (hpos : ∀ u n, units u = some n → 0 ≤ n) :
    (tuntapStart os dev mode tuntapIdAny).Wp (scanning type units) (StartScans type units)
      [] := by
  unfold tuntapStart
  rw [if_neg (not_not.mpr hdev)]
  refine (Prog.wp_call_bind _ _).mpr fun sock t hsock => ?_
  obtain ⟨hne, rfl⟩ := hsock
  rw [if_neg hne]
  dsimp only
  rw [if_neg fun hmode => h.not_isPersist hmode.1]
  refine (tuntapSysStart_scans h hpos).bind fun r t ⟨found, hfound, hr⟩ => ?_
  refine (Prog.wp_ite _ _ _).mpr ⟨fun hfd => ?_, fun hfd => ?_⟩
  · rw [hfd]
    refine startClean_wp fun t' => ⟨found, t, hfound, Or.inl ?_⟩
    rcases hr with ⟨hbad, -⟩ | ⟨hne, -, heq, -⟩
    · exact ⟨hbad, rfl⟩
    · exact absurd (heq.symm.trans hfd) hne
  · rcases hr with ⟨-, hneg⟩ | ⟨hne, hmax, heq, hname⟩
    · exact absurd hneg hfd
    · exact ⟨found, t, hfound, Or.inr ⟨hne, hmax, rfl, heq, hname, rfl⟩⟩

/-! ## The lowest unit that opens -/

/-- The lowest unit that opens, and its number. -/
def Lowest (units : Nat → Option Int) (u : Nat) (n : Int) : Prop :=
  (u : Int) < tuntapIdMax ∧ units u = some n ∧ ∀ v < u, units v = none

/-- The start succeeds if a unit opens, and then with the lowest one. -/
structure ScanRight (type : CString) (units : Nat → Option Int) (r : Int × Device)
    (left : List Int) : Prop where
  succeeds : r.1 = 0 ↔ ∃ u : Nat, (u : Int) < tuntapIdMax ∧ units u ≠ none
  lowest : r.1 = 0 → ∀ u n, Lowest units u n →
    r.2.tunFd = n ∧ r.2.ifName.cstr = type ++ CString.int u ∧ left = [n]

section Lowest

variable {type : CString} {units : Nat → Option Int} {u v : Nat} {n m : Int}
  {r : Int × Device} {left : List Int}

theorem Lowest.unique (h : Lowest units u n) (h' : Lowest units v m) : u = v ∧ n = m := by
  obtain ⟨-, hu, hbelow⟩ := h
  obtain ⟨-, hv, hbelow'⟩ := h'
  rcases Nat.lt_trichotomy u v with hlt | rfl | hlt
  · rw [hbelow' u hlt] at hu
    cases hu
  · rw [hu] at hv
    exact ⟨rfl, Option.some.inj hv⟩
  · rw [hbelow v hlt] at hv
    cases hv

/-- When the lowest number is not 0, what the loop has passed over is closed. -/
theorem Skipped.none (h : Skipped units 0 u) (hu : (u : Int) ≤ tuntapIdMax)
    (hlow : ∀ v n, Lowest units v n → n ≠ 0) : ∀ v < u, units v = none := by
  intro v
  induction v using Nat.strong_induction_on with
  | h v ih =>
      intro hlt
      rcases h v (Nat.zero_le v) hlt with hnone | hzero
      · exact hnone
      · refine absurd rfl (hlow v 0 ⟨by omega, hzero, fun w hw => ih w hw (by omega)⟩)

theorem StartScans.right (h : StartScans type units r left)
    (hlow : ∀ u n, Lowest units u n → n ≠ 0 ∧ n ≠ 256) : ScanRight type units r left := by
  obtain ⟨found, t, hfound, hr⟩ := h
  have hzero : ∀ v n, Lowest units v n → n ≠ 0 := fun v n hv => (hlow v n hv).1
  rcases hfound with ⟨u, hstop⟩ | hout
  · have hnone := hstop.skipped.none (le_of_lt hstop.lt_max) hzero
    have hu : Lowest units u found.1 := ⟨hstop.lt_max, hstop.opened, hnone⟩
    have hpos := hstop.pos
    rcases hr with ⟨hbad, -⟩ | ⟨-, -, hr0, hfd, hname, rfl⟩
    · have hmax := (hlow u _ hu).2
      omega
    · refine ⟨⟨fun _ => ⟨u, hstop.lt_max, ?_⟩, fun _ => hr0⟩, fun _ v n hv => ?_⟩
      · rw [hstop.opened]
        intro hno
        cases hno
      · obtain ⟨rfl, rfl⟩ := hu.unique hv
        rw [hstop.unit] at hname
        exact ⟨hfd, hname, hstop.left fun v _ hlt => hnone v hlt⟩
  · have hnone := hout.skipped.none (show ((256 : Nat) : Int) ≤ 256 by decide) hzero
    have hneg := hout.closed rfl fun v _ hlt => hnone v hlt
    rcases hr with ⟨-, hr⟩ | ⟨hne, -⟩
    · refine ⟨⟨fun h0 => ?_, fun ⟨u, hmax, hu⟩ => ?_⟩, fun h0 => ?_⟩
      · omega
      · have hlt : (u : Int) < 256 := hmax
        exact absurd (hnone u (show u < 256 by omega)) hu
      · omega
    · exact absurd hneg hne

theorem StartScans.number (h : StartScans type units r left)
    (hright : ScanRight type units r left) (hu : Lowest units u n) : n ≠ 0 ∧ n ≠ 256 := by
  have hopens : units u ≠ none := by
    rw [hu.2.1]
    intro hno
    cases hno
  have hr0 := hright.succeeds.mpr ⟨u, hu.1, hopens⟩
  obtain ⟨hfd, hname, -⟩ := hright.lowest hr0 u n hu
  obtain ⟨found, t, hfound, hr⟩ := h
  rcases hr with ⟨-, hneg⟩ | ⟨-, hmax, -, hfd', hname', -⟩
  · omega
  · have hn : n = found.1 := hfd.symm.trans hfd'
    refine ⟨fun h0 => ?_, fun h256 => hmax (hn.symm.trans h256)⟩
    rcases hfound with ⟨v, hstop⟩ | hout
    · have hpos := hstop.pos
      omega
    · -- the name the interface is given is that of unit 256
      rw [hout.unit, hname] at hname'
      have hunit : u = 256 := CString.int_inj (CString.append_left_cancel hname')
      have hlt : (u : Int) < 256 := hu.1
      omega

theorem StartScans.right_iff (h : StartScans type units r left) :
    ScanRight type units r left ↔ ∀ u n, Lowest units u n → n ≠ 0 ∧ n ≠ 256 :=
  ⟨fun hright _ _ hu => h.number hright hu, h.right⟩

end Lowest

section Wildcard

variable {os : Os} {mode : Mode} {type : CString} {units : Nat → Option Int} {dev : Device}
  {tr : List (Event Call Resp)} {r : Int × Device} {left : List Int}

/-- For every assignment of numbers to the units that open, a wildcard start
finds the lowest of them exactly when its number is neither 0 nor 256. -/
theorem scan_right_iff (hdev : dev.tunFd = -1) (h : Scans os mode type)
    (hpos : ∀ u n, units u = some n → 0 ≤ n)
    (hr : (tuntapStart os dev mode tuntapIdAny).Runs tr r)
    (hs : (scanning type units).Steps [] tr left) :
    ScanRight type units r left ↔ ∀ u n, Lowest units u n → n ≠ 0 ∧ n ≠ 256 :=
  ((tuntapStart_scans hdev h hpos).of_runs hr hs).right_iff

theorem devNode_inj {u v : Nat} (h : Bsd.devNode type u = Bsd.devNode type v) : u = v :=
  CString.int_inj (CString.append_left_cancel h)

/-- Every assignment is that of some kernel. -/
theorem scanning_replies (type : CString) (units : Nat → Option Int) (s : List Int)
    (c : Call) : ∃ r s', scanning type units s c r s' := by
  cases c with
  | «open» path =>
      by_cases hnode : ∃ u : Nat, path = Bsd.devNode type u
      · obtain ⟨u, rfl⟩ := hnode
        cases hu : units u with
        | none =>
            refine ⟨(-1 : Int), s, fun v hv => ?_⟩
            obtain rfl := devNode_inj hv
            rw [hu]
            exact ⟨rfl, rfl⟩
        | some n =>
            refine ⟨n, n :: s, fun v hv => ?_⟩
            obtain rfl := devNode_inj hv
            rw [hu]
            exact ⟨rfl, rfl⟩
      · exact ⟨(-1 : Int), s, fun u hu => absurd ⟨u, hu⟩ hnode⟩
  | close fd => exact ⟨(0 : Int), s.erase fd, rfl⟩
  | socket domain => exact ⟨(3 : Int), s, show (3 : Int) ≠ -1 by decide, rfl⟩
  | ioctl fd req arg => exact ⟨⟨0, .other⟩, s, show (0 : Int) ≠ -1 by decide, rfl⟩
  | ioctlVal fd req val => exact ⟨⟨0, .other⟩, s, show (0 : Int) ≠ -1 by decide, rfl⟩
  | ioctlGet fd req arg => exact ⟨⟨0, arg⟩, s, show (0 : Int) ≠ -1 by decide, rfl⟩
  | ioctlStr => exact ⟨default, s, rfl⟩
  | ioctlGetStr => exact ⟨default, s, rfl⟩
  | malloc => exact ⟨true, s, rfl⟩
  | free => exact ⟨(), s, rfl⟩
  | log => exact ⟨(), s, rfl⟩
  | read => exact ⟨default, s, rfl⟩
  | write => exact ⟨(0 : Int), s, rfl⟩
  | select => exact ⟨(0 : Int), s, rfl⟩
  | getifaddrs => exact ⟨none, s, rfl⟩
  | time => exact ⟨(0 : Int), s, rfl⟩
  | srandom => exact ⟨(), s, rfl⟩
  | random => exact ⟨(0 : Nat), s, rfl⟩
  | uninit n => exact ⟨(Buf.zero : Buf n), s, rfl⟩
  | overshift => exact ⟨(0 : BitVec 32), s, rfl⟩

/-- One unit opens. -/
def onlyUnit (unit : Nat) (fd : Int) : Nat → Option Int := fun u =>
  if u = unit then some fd else none

theorem onlyUnit_nonneg {unit : Nat} {fd : Int} (hfd : 0 ≤ fd) (u : Nat) (n : Int)
    (h : onlyUnit unit fd u = some n) : 0 ≤ n := by
  unfold onlyUnit at h
  split at h
  · obtain rfl := Option.some.inj h
    exact hfd
  · cases h

theorem lowest_onlyUnit {unit u : Nat} {fd n : Int} (h : Lowest (onlyUnit unit fd) u n) :
    n = fd := by
  have hu := h.2.1
  unfold onlyUnit at hu
  split at hu
  · exact (Option.some.inj hu).symm
  · cases hu

/-- Unit 3 is the first that opens, with number 7. -/
theorem scan_right_unit_three : ∃ tr r left,
    (tuntapStart .openBsd Device.init tuntapModeTunnel tuntapIdAny).Runs tr r ∧
      (scanning (CString.lit "tun") (onlyUnit 3 7)).Steps [] tr left ∧
        ScanRight (CString.lit "tun") (onlyUnit 3 7) r left := by
  obtain ⟨tr, r, left, hr, hs⟩ := Kernel.exists_steps
    (scanning_replies (CString.lit "tun") (onlyUnit 3 7))
    (tuntapStart .openBsd Device.init tuntapModeTunnel tuntapIdAny) []
  refine ⟨tr, r, left, hr, hs, ?_⟩
  have hscans : Scans .openBsd tuntapModeTunnel (CString.lit "tun") := Or.inr ⟨rfl, rfl⟩
  refine (scan_right_iff rfl hscans (onlyUnit_nonneg (by decide)) hr hs).mpr ?_
  intro u n hlow
  rw [lowest_onlyUnit hlow]
  decide

/-- In a process with descriptor 0 closed, the first unit is given number 0, and
the start takes no notice. -/
theorem scan_misses_zero : ¬ ∀ (os : Os) (mode : Mode) (type : CString)
    (units : Nat → Option Int) (dev : Device) (tr : List (Event Call Resp)) (r : Int × Device)
    (left : List Int), dev.tunFd = -1 → Scans os mode type →
      (∀ u n, units u = some n → 0 ≤ n) →
        (tuntapStart os dev mode tuntapIdAny).Runs tr r →
          (scanning type units).Steps [] tr left → ScanRight type units r left := by
  intro hclaim
  have hscans : Scans .openBsd tuntapModeTunnel (CString.lit "tun") := Or.inr ⟨rfl, rfl⟩
  have hpos : ∀ u n, onlyUnit 0 0 u = some n → 0 ≤ n := onlyUnit_nonneg (by decide)
  obtain ⟨tr, r, left, hr, hs⟩ := Kernel.exists_steps
    (scanning_replies (CString.lit "tun") (onlyUnit 0 0))
    (tuntapStart .openBsd Device.init tuntapModeTunnel tuntapIdAny) []
  have hright := hclaim _ _ _ _ _ _ _ _ rfl hscans hpos hr hs
  have hends := (tuntapStart_scans rfl hscans hpos).of_runs hr hs
  have hlow : Lowest (onlyUnit 0 0) 0 0 := ⟨by decide, rfl, fun v hv => by omega⟩
  exact (hends.number hright hlow).1 rfl

end Wildcard

end Libtuntap
