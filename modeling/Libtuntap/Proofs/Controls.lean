import Libtuntap.CMem.Decimal
import Libtuntap.CMem.Format
import Libtuntap.Unix.Api
import Libtuntap.Unix.Callback

/-!
# What the functions call besides moving packets

Four functions of the API move packets, and they read or write once each. All the
others only control: on no system do they touch a packet. What any of them says
is one line with a level, whichever way it is left.
-/

namespace Libtuntap

open Effect CMem

/-! ## Messages that can be read back -/

/-- One line, with a level. -/
def Plain (m : Message) : Prop := m.1 ≠ .none ∧ (10 : UInt8) ∉ m.2.bytes

/-- What a call says is plain. -/
def Spoken (c : Call) : Prop := ∀ m, c.message = some m → Plain m

/-- A call that moves a packet. -/
def Call.Transfers : Call → Prop
  | .read .. | .write .. => True
  | _ => False

/-- A call that moves none, and says what can be read back. -/
def Controls (c : Call) : Prop := Spoken c ∧ ¬ c.Transfers

/-- A level, and a text without a newline. -/
def Sayable (level : Level) (s : String) : Prop :=
  level ≠ .none ∧ ∀ c ∈ s.toList, c.toUInt8 ≠ 10

/-- A literal is looked at as the list of its characters. -/
theorem sayable {level : Level} {l : List Char}
    (h : (level ≠ .none && l.all fun c => c.toUInt8 != 10) = true) :
    Sayable level (String.ofList l) := by
  rw [Bool.and_eq_true, decide_eq_true_eq, List.all_eq_true] at h
  refine ⟨h.1, fun c hc => bne_iff_ne.mp (h.2 c ?_)⟩
  rwa [String.toList_ofList] at hc

theorem plain_lit {level : Level} {s : String} (h : Sayable level s) :
    Plain (level, CString.lit s) := by
  refine ⟨h.1, fun hmem => ?_⟩
  obtain ⟨c, hc, h10⟩ := List.mem_map.mp ((List.takeWhile_sublist _).mem hmem)
  exact h.2 c hc h10

/-- A number is printed without a newline. -/
theorem newline_notMem_int (n : Int) : (10 : UInt8) ∉ (CString.int n).bytes := by
  intro h
  have hdigit : ∀ c ∈ Nat.toDigits 10 n.natAbs, c.toUInt8 ≠ 10 := by
    intro c hc h10
    have hd := CString.isDigit_toDigits hc
    have hn := CString.toNat_toUInt8_of_isDigit hd
    have hge := (CString.toNat_of_isDigit hd).1
    rw [h10] at hn
    rw [← hn] at hge
    exact absurd hge (by decide)
  have hchars : (10 : UInt8) ∈ (if n < 0 then '-' :: Nat.toDigits 10 n.natAbs
      else Nat.toDigits 10 n.natAbs).map Char.toUInt8 := (List.takeWhile_sublist _).mem h
  obtain ⟨c, hc, h10⟩ := List.mem_map.mp hchars
  by_cases hneg : n < 0
  · rw [if_pos hneg, List.mem_cons] at hc
    rcases hc with rfl | hc
    · exact absurd h10 (by decide)
    · exact hdigit c hc h10
  · rw [if_neg hneg] at hc
    exact hdigit c hc h10

/-- The text about a node that does not open. -/
theorem plain_cantOpen {name : CString} (h : (10 : UInt8) ∉ name.bytes) :
    Plain (.debug, CString.lit "Can't open " ++ name) := by
  refine ⟨nofun, ?_⟩
  rw [CString.bytes_append, List.mem_append, not_or]
  exact ⟨by decide, h⟩

theorem newline_notMem_devNode (tun : Int) :
    (10 : UInt8) ∉ (Bsd.devNode (CString.lit "tap") tun).bytes := by
  unfold Bsd.devNode
  rw [CString.bytes_append, List.mem_append, not_or]
  exact ⟨by decide, newline_notMem_int tun⟩

section Calls

@[simp] theorem controls_log {level : Level} {msg : CString} :
    Controls (.log level msg) ↔ Plain (level, msg) := by
  constructor
  · exact fun h => h.1 _ rfl
  · intro h
    refine ⟨fun m hm => ?_, id⟩
    cases hm
    exact h

variable {n : Nat} (fd : Int) (req : Request) (arg : Buf n)

@[simp] theorem controls_malloc : Controls .malloc := ⟨nofun, id⟩

@[simp] theorem controls_free : Controls .free := ⟨nofun, id⟩

@[simp] theorem controls_socket (domain : Domain) : Controls (.socket domain) := ⟨nofun, id⟩

@[simp] theorem controls_open (path : CString) : Controls (.open path) := ⟨nofun, id⟩

@[simp] theorem controls_close : Controls (.close fd) := ⟨nofun, id⟩

@[simp] theorem controls_ioctl : Controls (.ioctl fd req arg) := ⟨nofun, id⟩

@[simp] theorem controls_ioctlVal (val : BitVec 32) :
    Controls (.ioctlVal fd req val) := ⟨nofun, id⟩

@[simp] theorem controls_ioctlGet : Controls (.ioctlGet fd req arg) := ⟨nofun, id⟩

@[simp] theorem controls_ioctlStr (s : CString) (len : Nat) :
    Controls (.ioctlStr fd req arg s len) := ⟨nofun, id⟩

@[simp] theorem controls_ioctlGetStr (len : Nat) : Controls (.ioctlGetStr fd req arg len) :=
  ⟨nofun, id⟩

@[simp] theorem controls_select (nfds : Int) (reading : Bool) (sec usec : Int) :
    Controls (.select nfds fd reading sec usec) := ⟨nofun, id⟩

@[simp] theorem controls_getifaddrs : Controls .getifaddrs := ⟨nofun, id⟩

@[simp] theorem controls_uninit : Controls (.uninit n) := ⟨nofun, id⟩

@[simp] theorem controls_overshift (x : BitVec 32) (count : Int) :
    Controls (.overshift x count) := ⟨nofun, id⟩

theorem logged_controls {α : Type} {level : Level} {s : String} {a : α}
    (h : Sayable level s) : (tuntapLog level s >>= fun _ => (.ret a : Sys α)).AllCalls Controls :=
  ⟨controls_log.mpr (plain_lit h), fun _ => trivial⟩

theorem randomHwaddr_controls : randomHwaddr.AllCalls Controls :=
  randomHwaddr_allCalls ⟨nofun, id⟩ ⟨nofun, id⟩ (fun _ => ⟨nofun, id⟩) ⟨nofun, id⟩

end Calls

/-! ## The functions -/

section Functions

variable {os : Os} {libc : Libc} {dev : Device}

theorem createLoop_controls (iftype : CString) (n : Nat) (unit : Int) :
    (FreeBsd.createLoop dev iftype n unit).AllCalls Controls := by
  induction n generalizing unit with
  | zero => trivial
  | succ n ih =>
      simp [FreeBsd.createLoop, FreeBsd.tuntapSysCreateDev, ih]
      simp (disch := exact sayable (by decide)) only [plain_lit, implies_true]

theorem scanUnits_controls (type : CString) (n : Nat) (tun last : Int) :
    (Bsd.scanUnits type n tun last).AllCalls Controls := by
  induction n generalizing tun last with
  | zero => trivial
  | succ n ih => simp [Bsd.scanUnits, ih]

theorem openUnit_controls (type : CString) (tun : Int) :
    (Bsd.openUnit type tun).AllCalls Controls := by
  unfold Bsd.openUnit
  refine (Prog.allCalls_ite _ _ _).mpr ⟨fun _ => by simp, fun _ => ?_⟩
  refine (Prog.allCalls_ite _ _ _).mpr ⟨fun _ => ?_, fun _ => ?_⟩
  · exact (scanUnits_controls ..).bind fun _ => trivial
  · exact logged_controls (sayable (by decide))

theorem saveLladdr_controls (d : Device) : (Bsd.saveLladdr d).AllCalls Controls := by
  refine (Prog.allCalls_call_bind _ _).mpr ⟨controls_getifaddrs, fun r => ?_⟩
  cases r with
  | none => trivial
  | some ifa =>
      dsimp only
      cases ifa.find? _ with
      | none => exact logged_controls (sayable (by decide))
      | some pifa => trivial

theorem linux_start_controls (mode : Mode) (tun : Int) :
    (Linux.tuntapSysStart dev mode tun).AllCalls Controls := by
  dsimp only [Linux.tuntapSysStart]
  generalize (if mode.isPersist then mode.clearPersist else mode) = m
  generalize setIfrFlags _ _ = ifr
  generalize (if tun ≠ tuntapIdAny then _ else ifr) = ifr'
  simp [Linux.setPersistent]
  simp (disch := exact sayable (by decide)) only [plain_lit, implies_true, and_self]

theorem freeBsd_start_controls (mode : Mode) (unit : Int) :
    (FreeBsd.tuntapSysStart dev mode unit).AllCalls Controls := by
  dsimp only [FreeBsd.tuntapSysStart]
  generalize (if mode.isPersist then mode.clearPersist else mode) = m
  refine (Prog.allCalls_ite _ _ _).mpr ⟨fun _ => ?_, fun _ => ?_⟩
  · exact logged_controls (sayable (by decide))
  · refine Prog.AllCalls.bind ?_ fun o => ?_
    · simp [FreeBsd.createIfRequired, FreeBsd.tuntapSysCreateDev, createLoop_controls]
      simp (disch := exact sayable (by decide)) only [plain_lit, implies_true, and_self]
    · cases o with
      | none => trivial
      | some unit =>
          simp
          simp (disch := exact sayable (by decide)) only [plain_lit, implies_true, and_self]

theorem checkFd_controls (fd : Int) : (Bsd.checkFd fd).AllCalls Controls := by
  simp [Bsd.checkFd]
  simp (disch := exact sayable (by decide)) only [plain_lit, implies_true, and_self]

theorem openBsd_start_controls (mode : Mode) (tun : Int) :
    (OpenBsd.tuntapSysStart dev mode tun).AllCalls Controls := by
  dsimp only [OpenBsd.tuntapSysStart]
  generalize (if mode.isPersist then mode.clearPersist else mode) = m
  refine (Prog.allCalls_ite _ _ _).mpr ⟨fun _ => ?_, fun _ => ?_⟩
  · exact logged_controls (sayable (by decide))
  · refine Prog.AllCalls.bind ?_ fun goesOn =>
      (Prog.allCalls_ite _ _ _).mpr ⟨fun _ => trivial, fun _ => ?_⟩
    · simp [OpenBsd.forceCreation, OpenBsd.tuntapSysCreateDev]
      simp (disch := exact sayable (by decide)) only [plain_lit, implies_true]
    · refine (openUnit_controls ..).bind fun o => ?_
      cases o with
      | none => trivial
      | some r =>
          refine (checkFd_controls _).bind fun goesOn =>
            (Prog.allCalls_ite _ _ _).mpr ⟨fun _ => trivial, fun _ => ?_⟩
          simp [OpenBsd.configure]
          simp (disch := exact sayable (by decide)) only [plain_lit, implies_true, and_self]

theorem darwin_start_controls (mode : Mode) (tun : Int) :
    (Darwin.tuntapSysStart dev mode tun).AllCalls Controls := by
  refine (Prog.allCalls_call_bind _ _).mpr ⟨controls_uninit, fun ifr => ?_⟩
  refine (Prog.allCalls_ite _ _ _).mpr ⟨fun _ => ?_, fun _ => ?_⟩
  · exact logged_controls (sayable (by decide))
  · refine (Prog.allCalls_ite _ _ _).mpr ⟨fun _ => ?_, fun _ => ?_⟩
    · exact logged_controls (sayable (by decide))
    · refine (openUnit_controls ..).bind fun o => ?_
      cases o with
      | none => trivial
      | some r =>
          refine (checkFd_controls _).bind fun goesOn =>
            (Prog.allCalls_ite _ _ _).mpr ⟨fun _ => trivial, fun _ => ?_⟩
          have hsave : ∀ d fd, (Bsd.saveLladdr d >>= fun d =>
              (.ret (fd, d) : Sys (Int × Device))).AllCalls Controls :=
            fun d fd => (saveLladdr_controls d).bind fun _ => trivial
          simp [Darwin.configure, hsave]
          simp (disch := exact sayable (by decide)) only [plain_lit, implies_true, and_self]

theorem netBsd_create_controls (mode : Mode) (tun : Int) :
    (NetBsd.tuntapSysCreateDev dev mode tun).AllCalls Controls := by
  simp [NetBsd.tuntapSysCreateDev]
  simp (disch := exact sayable (by decide)) only [plain_lit, implies_true]

theorem tapNode_answers (tun : Int) :
    (NetBsd.tapNode dev tun).Answers fun o =>
      ∀ name, o = some name → (10 : UInt8) ∉ name.bytes := by
  unfold NetBsd.tapNode
  refine (Prog.answers_ite _ _ _).mpr ⟨fun _ => ?_, fun _ => ?_⟩
  · refine (Prog.answers_of_forall (fun _ => trivial) _).bind fun _ (_ : True) name hname => ?_
    obtain rfl := Option.some.inj hname
    exact newline_notMem_devNode tun
  · refine (Prog.answers_ite _ _ _).mpr ⟨fun _ name hname => ?_, fun _ => nofun⟩
    obtain rfl := Option.some.inj hname
    decide

/-- The one text that is not a literal has the path of the node in it. -/
theorem tap_start_controls (tun : Int) : (NetBsd.tuntapSysStartTap dev tun).AllCalls Controls := by
  refine Prog.AllCalls.bind_of_answers ?_ (tapNode_answers tun) fun o ho => ?_
  · unfold NetBsd.tapNode
    refine (Prog.allCalls_ite _ _ _).mpr ⟨fun _ => ?_, fun _ => by simp⟩
    exact (netBsd_create_controls ..).bind fun _ => trivial
  · cases o with
    | none => trivial
    | some name =>
        have hopen := plain_cantOpen (ho name rfl)
        have hsave : ∀ d fd, (Bsd.saveLladdr d >>= fun d =>
            (.ret (fd, d) : Sys (Int × Device))).AllCalls Controls :=
          fun d fd => (saveLladdr_controls d).bind fun _ => trivial
        simp [hopen, hsave]
        simp (disch := exact sayable (by decide)) only [plain_lit, implies_true, and_self]

theorem tun_start_controls (tun : Int) : (NetBsd.tuntapSysStartTun dev tun).AllCalls Controls := by
  have hopen : (NetBsd.openTun tun).AllCalls Controls := by
    unfold NetBsd.openTun
    refine (Prog.allCalls_ite _ _ _).mpr ⟨fun _ => by simp, fun _ => ?_⟩
    refine (Prog.allCalls_ite _ _ _).mpr ⟨fun _ => ?_, fun _ => trivial⟩
    exact (scanUnits_controls ..).bind fun _ => trivial
  refine hopen.bind fun o => ?_
  cases o with
  | none => trivial
  | some r =>
      refine (checkFd_controls _).bind fun goesOn =>
        (Prog.allCalls_ite _ _ _).mpr ⟨fun _ => trivial, fun _ => ?_⟩
      simp
      simp (disch := exact sayable (by decide)) only [plain_lit, implies_true]

theorem netBsd_start_controls (mode : Mode) (tun : Int) :
    (NetBsd.tuntapSysStart dev mode tun).AllCalls Controls := by
  refine Prog.AllCalls.bind ?_ fun goesOn =>
    (Prog.allCalls_ite _ _ _).mpr ⟨fun _ => trivial, fun _ => ?_⟩
  · simp [NetBsd.forceCreation, NetBsd.tuntapSysCreateDev]
    simp (disch := exact sayable (by decide)) only [plain_lit, implies_true]
  · dsimp only
    generalize (if mode.isPersist then mode.clearPersist else mode) = m
    refine (Prog.allCalls_ite _ _ _).mpr ⟨fun _ => tap_start_controls tun, fun _ => ?_⟩
    exact (Prog.allCalls_ite _ _ _).mpr ⟨fun _ => tun_start_controls tun, fun _ => trivial⟩

theorem sysStart_controls (mode : Mode) (tun : Int) :
    (tuntapSysStart os dev mode tun).AllCalls Controls := by
  cases os with
  | linux => exact linux_start_controls mode tun
  | freeBsd => exact freeBsd_start_controls mode tun
  | openBsd => exact openBsd_start_controls mode tun
  | netBsd => exact netBsd_start_controls mode tun
  | darwin => exact darwin_start_controls mode tun

theorem start_controls (mode : Mode) (tun : Int) :
    (tuntapStart os dev mode tun).AllCalls Controls := by
  have hclean : ∀ fd sock d, (startClean fd sock d).AllCalls Controls := by
    intro fd sock d
    simp [startClean]
  unfold tuntapStart
  refine (Prog.allCalls_ite _ _ _).mpr ⟨fun _ => ?_, fun _ => ?_⟩
  · exact logged_controls (sayable (by decide))
  · refine (Prog.allCalls_call_bind _ _).mpr ⟨controls_socket _, fun sock => ?_⟩
    refine (Prog.allCalls_ite _ _ _).mpr ⟨fun _ => hclean .., fun _ => ?_⟩
    refine (Prog.allCalls_ite _ _ _).mpr ⟨fun _ => hclean .., fun _ => ?_⟩
    refine (sysStart_controls mode tun).bind fun r => ?_
    exact (Prog.allCalls_ite _ _ _).mpr ⟨fun _ => hclean .., fun _ => trivial⟩

theorem release_controls : (tuntapRelease dev).AllCalls Controls := by
  simp [tuntapRelease]

theorem destroy_controls : (tuntapDestroy os dev).AllCalls Controls := by
  refine Prog.AllCalls.bind ?_ fun d => release_controls
  cases os with
  | linux =>
      simp [tuntapSysDestroy, Linux.tuntapSysDestroy]
      simp (disch := exact sayable (by decide)) only [plain_lit, implies_true]
  | freeBsd =>
      simp [tuntapSysDestroy, FreeBsd.tuntapSysDestroy]
      simp (disch := exact sayable (by decide)) only [plain_lit, implies_true]
  | openBsd =>
      simp [tuntapSysDestroy, OpenBsd.tuntapSysDestroy]
      simp (disch := exact sayable (by decide)) only [plain_lit, implies_true]
  | netBsd =>
      simp [tuntapSysDestroy, NetBsd.tuntapSysDestroy]
      simp (disch := exact sayable (by decide)) only [plain_lit, implies_true]
  | darwin => trivial

theorem setDescr_controls (descr : Option CString) :
    (tuntapSetDescr os dev descr).AllCalls Controls := by
  cases descr with
  | none => exact logged_controls (sayable (by decide))
  | some descr =>
      cases os with
      | linux | netBsd | darwin =>
          exact logged_controls (sayable (by decide))
      | freeBsd =>
          simp [tuntapSetDescr, tuntapSysSetDescr, FreeBsd.tuntapSysSetDescr]
          simp (disch := exact sayable (by decide)) only [plain_lit, implies_true, and_self]
      | openBsd =>
          simp [tuntapSetDescr, tuntapSysSetDescr, OpenBsd.tuntapSysSetDescr]
          simp (disch := exact sayable (by decide)) only [plain_lit, implies_true, and_self]

theorem getDescr_controls : (tuntapGetDescr os dev).AllCalls Controls := by
  cases os with
  | linux | netBsd | darwin =>
      exact logged_controls (sayable (by decide))
  | freeBsd =>
      simp [tuntapGetDescr, tuntapSysGetDescr, FreeBsd.tuntapSysGetDescr]
      simp (disch := exact sayable (by decide)) only [plain_lit, implies_true]
  | openBsd =>
      simp [tuntapGetDescr, tuntapSysGetDescr, OpenBsd.tuntapSysGetDescr]
      simp (disch := exact sayable (by decide)) only [plain_lit, implies_true]

theorem setIfname_controls (ifname : Option CString) :
    (tuntapSetIfname os dev ifname).AllCalls Controls := by
  cases ifname with
  | none => exact logged_controls (sayable (by decide))
  | some ifname =>
      refine (Prog.allCalls_ite _ _ _).mpr ⟨fun _ => ?_, fun _ => ?_⟩
      · exact logged_controls (sayable (by decide))
      · refine Prog.AllCalls.bind ?_ fun r => (Prog.allCalls_ite _ _ _).mpr
          ⟨fun _ => trivial, fun _ => trivial⟩
        cases os with
        | linux =>
            simp [tuntapSysSetIfname, Linux.tuntapSysSetIfname]
            simp (disch := exact sayable (by decide)) only [plain_lit, implies_true]
        | freeBsd =>
            simp [tuntapSysSetIfname, FreeBsd.tuntapSysSetIfname]
            simp (disch := exact sayable (by decide)) only [plain_lit, implies_true]
        | openBsd | netBsd | darwin =>
            exact logged_controls (sayable (by decide))

theorem hwaddrTo_controls (ethAddr : Buf 6) : (setHwaddrTo os dev ethAddr).AllCalls Controls := by
  refine Prog.AllCalls.bind ?_ fun r => (Prog.allCalls_ite _ _ _).mpr
    ⟨fun _ => trivial, fun _ => trivial⟩
  cases os with
  | linux =>
      simp [tuntapSysSetHwaddr, Linux.tuntapSysSetHwaddr]
      simp (disch := exact sayable (by decide)) only [plain_lit, implies_true]
  | freeBsd =>
      simp [tuntapSysSetHwaddr, FreeBsd.tuntapSysSetHwaddr]
      simp (disch := exact sayable (by decide)) only [plain_lit, implies_true]
  | openBsd =>
      simp [tuntapSysSetHwaddr, OpenBsd.tuntapSysSetHwaddr]
      simp (disch := exact sayable (by decide)) only [plain_lit, implies_true]
  | netBsd =>
      simp [tuntapSysSetHwaddr, NetBsd.tuntapSysSetHwaddr]
      simp (disch := exact sayable (by decide)) only [plain_lit, implies_true]
  | darwin =>
      simp [tuntapSysSetHwaddr, Darwin.tuntapSysSetHwaddr]
      simp (disch := exact sayable (by decide)) only [plain_lit, implies_true]

theorem setHwaddr_controls (hwaddr : CString) :
    (tuntapSetHwaddr os libc dev hwaddr).AllCalls Controls := by
  refine (Prog.allCalls_ite _ _ _).mpr ⟨fun _ => ?_, fun _ => ?_⟩
  · exact randomHwaddr_controls.bind fun ethAddr => hwaddrTo_controls ethAddr
  · cases libc.etherAton hwaddr with
    | none => trivial
    | some ethAddr => exact hwaddrTo_controls ethAddr

theorem sysSetIpv4_controls (s4 : Buf 4) (bits : BitVec 32) :
    (tuntapSysSetIpv4 os dev s4 bits).AllCalls Controls := by
  cases os with
  | linux =>
      simp [tuntapSysSetIpv4, Linux.tuntapSysSetIpv4]
      simp (disch := exact sayable (by decide)) only [plain_lit, implies_true, and_self]
  | freeBsd =>
      simp [tuntapSysSetIpv4, FreeBsd.tuntapSysSetIpv4]
      simp (disch := exact sayable (by decide)) only [plain_lit, implies_true, and_self]
  | openBsd =>
      simp [tuntapSysSetIpv4, OpenBsd.tuntapSysSetIpv4]
      simp (disch := exact sayable (by decide)) only [plain_lit, implies_true]
  | netBsd =>
      simp [tuntapSysSetIpv4, NetBsd.tuntapSysSetIpv4]
      simp (disch := exact sayable (by decide)) only [plain_lit, implies_true]
  | darwin =>
      simp [tuntapSysSetIpv4, Darwin.tuntapSysSetIpv4]
      simp (disch := exact sayable (by decide)) only [plain_lit, implies_true]

theorem sysSetIpv6_controls (s6 : Buf 16) (prefixLen : BitVec 32) :
    (tuntapSysSetIpv6 os dev s6 prefixLen).AllCalls Controls := by
  cases os with
  | linux =>
      simp [tuntapSysSetIpv6, Linux.tuntapSysSetIpv6]
      simp (disch := exact sayable (by decide)) only [plain_lit, implies_true, and_self]
  | freeBsd | openBsd | netBsd | darwin =>
      exact logged_controls (sayable (by decide))

theorem setIp_controls (addr : Option CString) (netmask : Int) :
    (tuntapSetIp os libc dev addr netmask).AllCalls Controls := by
  have hmask : (netmaskWord netmask).AllCalls Controls := by
    simp [netmaskWord, shiftRight]
  refine (Prog.allCalls_ite _ _ _).mpr ⟨fun _ => ?_, fun _ => ?_⟩
  · exact logged_controls (sayable (by decide))
  · cases addr with
    | none => exact logged_controls (sayable (by decide))
    | some addr =>
        refine (Prog.allCalls_ite _ _ _).mpr ⟨fun _ => ?_, fun _ => ?_⟩
        · exact logged_controls (sayable (by decide))
        · cases libc.inetPton4 addr with
          | some baddr4 => exact hmask.bind fun mask => sysSetIpv4_controls baddr4 mask
          | none =>
              cases libc.inetPton6 addr with
              | some baddr6 => exact sysSetIpv6_controls baddr6 _
              | none => exact logged_controls (sayable (by decide))

theorem getMtu_controls : (tuntapGetMtu os dev).AllCalls Controls := by
  simp [tuntapGetMtu]
  simp (disch := exact sayable (by decide)) only [plain_lit, implies_true, and_self]

theorem wait_controls (fd : Int) (reading : Bool) (timeoutMs : Int) :
    (waitReadyEventOrTimeout fd reading timeoutMs).AllCalls Controls := by
  simp [waitReadyEventOrTimeout]
  simp (disch := exact sayable (by decide)) only [plain_lit, implies_true]

/-- The operations that move packets. -/
def Op.Transfers : Op → Prop
  | .read _ | .readTm .. | .write _ | .writeTm .. => True
  | _ => False

/-- The others move none. -/
theorem Op.controls (op : Op) (hop : ¬ op.Transfers) :
    (op.prog os libc dev).AllCalls Controls := by
  cases op with
  | start mode tun => exact (start_controls mode tun).bind fun _ => trivial
  | release => exact release_controls.bind fun _ => trivial
  | destroy => exact destroy_controls.bind fun _ => trivial
  | setDescr descr => exact (setDescr_controls descr).bind fun _ => trivial
  | getDescr => exact getDescr_controls.bind fun _ => trivial
  | getIfname | getHwaddr | getFd => trivial
  | setIfname ifname => exact (setIfname_controls ifname).bind fun _ => trivial
  | setHwaddr hwaddr => exact (setHwaddr_controls hwaddr).bind fun _ => trivial
  | up | down => simp [Op.prog, tuntapUp, tuntapDown, setFlags]
  | getMtu => exact getMtu_controls.bind fun _ => trivial
  | setMtu mtu =>
      simp [Op.prog, tuntapSetMtu]
      simp (disch := exact sayable (by decide)) only [plain_lit, implies_true, and_self]
  | setIp addr netmask => exact (setIp_controls addr netmask).bind fun _ => trivial
  | read | readTm | write | writeTm => exact absurd trivial hop
  | getReadable =>
      refine Prog.AllCalls.bind ?_ fun _ => trivial
      simp [tuntapGetReadable, getMtu_controls]
      simp (disch := exact sayable (by decide)) only [plain_lit, implies_true]
  | setNonblocking set =>
      simp [Op.prog, tuntapSetNonblocking]
      simp (disch := exact sayable (by decide)) only [plain_lit, implies_true, and_self]
  | setDebug set =>
      simp [Op.prog, tuntapSetDebug]
      simp (disch := exact sayable (by decide)) only [plain_lit, implies_true, and_self]

end Functions

end Libtuntap
