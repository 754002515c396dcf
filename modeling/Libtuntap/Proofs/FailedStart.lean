import Libtuntap.Unix.Kernel

/-!
# What a failed start leaves behind

A start acquires in order: the control socket, on some systems an interface,
the device node, and on Linux the attachment and the persistent mark. The
`clean` label of `tuntap_start` gives the socket back. Nothing gives back the
rest: `tuntap_sys_start` answers -1 without closing the descriptor it opened or
removing the interface it created, and `tuntap_start` only ever learns of a
descriptor it is handed. The record keeps the number of the socket in
`ctrl_sock`.

Both halves below are about every back end. A start in which no `open` and no
creation is granted does nothing but write messages, whatever the back end, and
leaves everything as it was up to that number. A start in which one is granted
has one more descriptor or one more interface at its end than at its beginning,
because no call before the clean-up ever takes one away.
-/

namespace Libtuntap

open Effect CMem

/-- A descriptor or an interface is acquired that the clean-up does not know
of. -/
def Acquires : Event Call Resp → Prop
  | ⟨.open _, fd⟩ => fd ≠ -1
  | ⟨.ioctl _ req _, r⟩ => (req = .siocifcreate ∨ req = .siocifcreate2) ∧ r.ret ≠ -1
  | _ => False

/-- An event that leaves the kernel as it was. -/
def Harmless : Event Call Resp → Prop
  | ⟨.log .., _⟩ => True
  | ⟨.uninit _, _⟩ => True
  | ⟨.open _, fd⟩ => fd = -1
  | ⟨.ioctl .., r⟩ => r.ret = -1
  | _ => False

/-- On replies that acquire nothing the program does nothing and answers as
`Q` says. -/
abbrev Barren {α : Type} (Q : α → Prop) (p : Sys α) : Prop :=
  p.Given (fun e => ¬ Acquires e) Harmless Q

section Barren

variable {α : Type} {Q : α → Prop}

theorem barren_log {level : Level} {msg : CString} {f : Unit → Sys α} (hf : Barren Q (f ())) :
    Barren Q (Prog.call (.log level msg) >>= f) :=
  fun _ _ => ⟨trivial, hf⟩

theorem barren_uninit {n : Nat} {f : Buf n → Sys α} (hf : ∀ b, Barren Q (f b)) :
    Barren Q (uninit n >>= f) :=
  fun b _ => ⟨trivial, hf b⟩

theorem barren_open {path : CString} {f : Int → Sys α} (hf : Barren Q (f (-1))) :
    Barren Q (openRdwr path >>= f) := by
  intro fd hfd
  obtain rfl : fd = -1 := not_not.mp hfd
  exact ⟨rfl, hf⟩

theorem barren_create {n : Nat} {fd : Int} {req : Request} {arg : Buf n}
    {f : IoctlRet → Sys α} (hreq : req = .siocifcreate ∨ req = .siocifcreate2)
    (hf : ∀ r, r.ret = -1 → Barren Q (f r)) : Barren Q (ioctl fd req arg >>= f) := by
  intro r hr
  have hret : r.ret = -1 := not_not.mp fun h => hr ⟨hreq, h⟩
  exact ⟨hret, hf r hret⟩

end Barren

/-! ## The back ends, acquiring nothing -/

section BackEnds

variable {dev : Device} {mode : Mode} {tun : Int}

theorem Linux.tuntapSysStart_barren : Barren (· = (-1, dev)) (tuntapSysStart dev mode tun) := by
  dsimp only [tuntapSysStart]
  refine (Prog.given_ite _ _ _).mpr ⟨fun _ => barren_log rfl, fun _ => ?_⟩
  refine (Prog.given_ite _ _ _).mpr ⟨fun _ => barren_log rfl, fun _ => ?_⟩
  exact barren_open (barren_log rfl)

theorem FreeBsd.tuntapSysCreateDev_barren {iftype : CString} :
    Barren (fun r => r = 0 ∨ r = -1) (tuntapSysCreateDev dev iftype tun) := by
  refine barren_create (Or.inr rfl) fun r hr => ?_
  rw [if_pos (by omega)]
  split
  · exact Or.inl rfl
  · exact Or.inr rfl

theorem FreeBsd.createLoop_barren {iftype : CString} (n : Nat) :
    Barren (fun _ => True) (createLoop dev iftype n tun) := by
  induction n generalizing tun with
  | zero => trivial
  | succ n ih =>
      refine tuntapSysCreateDev_barren.bind fun r hr => ?_
      cases hr with
      | inl hr =>
          subst hr
          exact ih
      | inr hr =>
          subst hr
          exact barren_log trivial

theorem FreeBsd.createIfRequired_barren {iftype : CString} {persist : Prop}
    [Decidable persist] : Barren (fun _ => True) (createIfRequired dev iftype persist tun) := by
  unfold createIfRequired
  split
  · split
    · refine tuntapSysCreateDev_barren.bind fun r hr => ?_
      cases hr with
      | inl hr =>
          subst hr
          exact barren_log trivial
      | inr hr =>
          subst hr
          exact barren_log trivial
    · trivial
  · split
    · exact createLoop_barren _
    · exact barren_log trivial

theorem FreeBsd.tuntapSysStart_barren : Barren (· = (-1, dev)) (tuntapSysStart dev mode tun) := by
  dsimp only [tuntapSysStart]
  refine (Prog.given_ite _ _ _).mpr ⟨fun _ => barren_log rfl, fun _ => ?_⟩
  refine createIfRequired_barren.bind fun unit _ => ?_
  cases unit with
  | none => exact rfl
  | some unit => exact barren_open (barren_log rfl)

theorem Bsd.scanUnits_barren {type : CString} (n : Nat) {fd : Int} (hfd : fd = -1) :
    Barren (fun r => r.1 = -1) (scanUnits type n tun fd) := by
  induction n generalizing tun fd with
  | zero => exact hfd
  | succ n ih => exact barren_open (ih rfl)

theorem Bsd.openUnit_barren {type : CString} :
    Barren (fun r => ∀ p, r = some p → p.1 = -1) (openUnit type tun) := by
  unfold openUnit
  split
  · refine barren_open ?_
    intro p hp
    cases hp
    rfl
  · split
    · refine (scanUnits_barren _ rfl).bind fun r hr p hp => ?_
      cases hp
      exact hr
    · refine barren_log ?_
      intro p hp
      cases hp

/-- A descriptor of -1 ends the start. -/
theorem Bsd.checkFd_barren : Barren (· = false) (checkFd (-1)) := barren_log rfl

theorem OpenBsd.forceCreation_barren {ifname : CString} {persist : Prop} [Decidable persist] :
    Barren (fun _ => True) (forceCreation dev ifname persist tun) := by
  unfold forceCreation
  split
  · refine Prog.Given.bind (Q := fun _ => True) ?_ fun _ _ => trivial
    refine barren_create (Or.inl rfl) fun r hr => ?_
    rw [if_pos hr]
    exact barren_log trivial
  · trivial

theorem OpenBsd.tuntapSysStart_barren : Barren (· = (-1, dev)) (tuntapSysStart dev mode tun) := by
  dsimp only [tuntapSysStart]
  generalize (if mode.isPersist then mode.clearPersist else mode) = m
  split
  · exact barren_log rfl
  · refine forceCreation_barren.bind fun goesOn _ => ?_
    split
    · exact rfl
    · refine Bsd.openUnit_barren.bind fun r hr => ?_
      cases r with
      | none => exact rfl
      | some p =>
          obtain ⟨fd, unit⟩ := p
          obtain rfl : fd = -1 := hr _ rfl
          refine Bsd.checkFd_barren.bind fun goesOn hno => ?_
          rw [if_pos hno]
          exact rfl

theorem Darwin.tuntapSysStart_barren : Barren (· = (-1, dev)) (tuntapSysStart dev mode tun) := by
  dsimp only [tuntapSysStart]
  refine barren_uninit fun ifr => ?_
  split
  · exact barren_log rfl
  · split
    · exact barren_log rfl
    · refine Bsd.openUnit_barren.bind fun r hr => ?_
      cases r with
      | none => exact rfl
      | some p =>
          obtain ⟨fd, unit⟩ := p
          obtain rfl : fd = -1 := hr _ rfl
          refine Bsd.checkFd_barren.bind fun goesOn hno => ?_
          rw [if_pos hno]
          exact rfl

theorem NetBsd.tuntapSysCreateDev_barren :
    Barren (fun _ => True) (tuntapSysCreateDev dev mode tun) := by
  refine barren_create (Or.inl rfl) fun r hr => ?_
  rw [if_pos hr]
  exact barren_log trivial

theorem NetBsd.tapNode_barren : Barren (fun _ => True) (tapNode dev tun) := by
  unfold tapNode
  split
  · exact tuntapSysCreateDev_barren.bind fun _ _ => trivial
  · split
    · trivial
    · trivial

theorem NetBsd.tuntapSysStartTap_barren : Barren (· = (-1, dev)) (tuntapSysStartTap dev tun) := by
  unfold tuntapSysStartTap
  refine tapNode_barren.bind fun name _ => ?_
  cases name with
  | none => exact rfl
  | some name => exact barren_open (barren_log rfl)

theorem NetBsd.openTun_barren : Barren (fun r => ∀ p, r = some p → p.1 = -1) (openTun tun) := by
  unfold openTun
  split
  · refine barren_open ?_
    intro p hp
    cases hp
    rfl
  · split
    · refine (Bsd.scanUnits_barren _ rfl).bind fun r hr p hp => ?_
      cases hp
      exact hr
    · intro p hp
      cases hp

theorem NetBsd.tuntapSysStartTun_barren : Barren (· = (-1, dev)) (tuntapSysStartTun dev tun) := by
  unfold tuntapSysStartTun
  refine openTun_barren.bind fun r hr => ?_
  cases r with
  | none => exact rfl
  | some p =>
      obtain ⟨fd, unit⟩ := p
      obtain rfl : fd = -1 := hr _ rfl
      refine Bsd.checkFd_barren.bind fun goesOn hno => ?_
      rw [if_pos hno]
      exact rfl

theorem NetBsd.tuntapSysStart_barren : Barren (· = (-1, dev)) (tuntapSysStart dev mode tun) := by
  unfold tuntapSysStart
  have hforce : Barren (fun _ => True) (forceCreation dev mode tun) := by
    unfold forceCreation
    split
    · exact tuntapSysCreateDev_barren.bind fun _ _ => trivial
    · trivial
  refine hforce.bind fun goesOn _ => ?_
  split
  · exact rfl
  · dsimp only
    generalize (if mode.isPersist then mode.clearPersist else mode) = m
    split
    · exact tuntapSysStartTap_barren
    · split
      · exact tuntapSysStartTun_barren
      · exact rfl

/-- A back end that acquires nothing fails, and does nothing on the way. -/
theorem tuntapSysStart_barren (os : Os) :
    Barren (· = (-1, dev)) (tuntapSysStart os dev mode tun) := by
  cases os with
  | linux => exact Linux.tuntapSysStart_barren
  | freeBsd => exact FreeBsd.tuntapSysStart_barren
  | openBsd => exact OpenBsd.tuntapSysStart_barren
  | netBsd => exact NetBsd.tuntapSysStart_barren
  | darwin => exact Darwin.tuntapSysStart_barren

end BackEnds

/-! ## Nothing is taken away -/

/-- A call that takes no descriptor and no interface away. -/
def Call.Adds : Call → Prop
  | .close _ => False
  | .ioctl _ req _ => req ≠ .siocifdestroy
  | _ => True

/-- Descriptors and interfaces are only added, and sockets stay sockets. -/
structure Kern.Grows (s s' : Kern) : Prop where
  fds : ∀ n, s.fds n ≠ none → s'.fds n ≠ none
  ifs : ∀ i, s.ifs i ≠ none → s'.ifs i ≠ none
  sockets : ∀ n domain, s.fds n = some (.socket domain) → s'.fds n = some (.socket domain)

theorem Kern.Grows.refl (s : Kern) : s.Grows s := ⟨fun _ h => h, fun _ h => h, fun _ _ h => h⟩

theorem Kern.Grows.trans {s t u : Kern} (h : s.Grows t) (h' : t.Grows u) : s.Grows u :=
  ⟨fun n hn => h'.fds n (h.fds n hn), fun i hi => h'.ifs i (h.ifs i hi),
    fun n d hn => h'.sockets n d (h.sockets n d hn)⟩

section Grows

variable {R : Rules} {s s' : Kern}

theorem Kern.Grows.of_eq (h : s' = s) : s.Grows s' := h ▸ Kern.Grows.refl s

/-- A table with one entry set to something has lost none. -/
theorem update_ne_none {κ β : Type} [DecidableEq κ] {t : κ → Option β} {k : κ} {b : β} {j : κ}
    (h : t j ≠ none) : Function.update t k (some b) j ≠ none := by
  by_cases hj : j = k
  · subst hj
    rw [Function.update_self]
    exact Option.some_ne_none b
  · rw [Function.update_of_ne hj]
    exact h

theorem Kern.Put.grows {i : Nat} {f : Iface} (h : s.Put s' i f) : s.Grows s' := by
  obtain ⟨hfds, hifs⟩ := h
  refine ⟨fun n hn => ?_, fun j hj => ?_, fun n d hn => ?_⟩
  · rw [hfds]
    exact hn
  · rw [hifs]
    exact update_ne_none hj
  · rw [hfds]
    exact hn

theorem Kern.Alters.grows {fd : Int} {n : Nat} {arg : Buf n} {change : Iface → Iface}
    (h : s.Alters fd arg change s') : s.Grows s' := by
  obtain ⟨-, i, f, -, hput⟩ := h
  exact hput.grows

theorem Kern.Sets.grows {fd : Int} {req : Request} {n : Nat} {arg : Buf n}
    (hreq : req ≠ .siocifdestroy) (h : s.Sets R fd req arg s') : s.Grows s' := by
  cases req with
  | siocsifflags | siocsifmtu | siocsifname | siocsifhwaddr | siocsiflladdr | siocsifnetmask
  | siocaifaddr => exact Kern.Alters.grows h
  | siocsifaddr =>
      simp only [Kern.Sets] at h
      split at h
      · obtain ⟨i, f, -, -, hput⟩ := h
        exact hput.grows
      · exact Kern.Alters.grows h
  | siocdifaddr =>
      simp only [Kern.Sets] at h
      split at h
      · obtain ⟨i, f, -, -, -, hput⟩ := h
        exact hput.grows
      · exact Kern.Alters.grows h
  | siocifcreate | siocifcreate2 =>
      obtain ⟨-, i, f, -, -, hput⟩ := h
      exact hput.grows
  | siocifdestroy => exact absurd rfl hreq
  | siocsifphyaddr | tunsdebug | fionbio => exact .of_eq h
  | _ => exact h.elim

theorem Kern.SetsVal.grows {fd : Int} {req : Request} {val : BitVec 32}
    (h : s.SetsVal fd req val s') : s.Grows s' := by
  cases req with
  | tunsetpersist =>
      obtain ⟨i, f, -, hput⟩ := h
      exact hput.grows
  | _ => exact h.elim

/-- A descriptor that is no socket is set, and an interface is set or not. -/
theorem Kern.Grows.of_update {fd : Int} {d : Desc}
    (hfd : ∀ domain, s.fds fd ≠ some (.socket domain))
    (hfds : s'.fds = Function.update s.fds fd (some d))
    (hifs : ∀ i, s.ifs i ≠ none → s'.ifs i ≠ none) : s.Grows s' := by
  refine ⟨fun n hn => ?_, hifs, fun n domain hn => ?_⟩
  · rw [hfds]
    exact update_ne_none hn
  · have hne : n ≠ fd := by
      intro h
      exact hfd domain (h ▸ hn)
    rw [hfds, Function.update_of_ne hne]
    exact hn

theorem Kern.Gets.grows {fd : Int} {req : Request} {n : Nat} {arg out : Buf n}
    (h : s.Gets R fd req arg out s') : s.Grows s' := by
  cases req with
  | tunsetiff =>
      obtain ⟨-, hfd, i, f, -, -, -, -, hfds, hifs⟩ := h
      refine .of_update (fun domain hd => ?_) hfds fun j hj => ?_
      · rw [hfd] at hd
        cases hd
      · rw [hifs]
        exact update_ne_none hj
  | siocgifflags | siocgifmtu | siocgifindex | siocgifhwaddr | siocgifaddr | tapgifname
  | tungifname => exact .of_eq h.1
  | fionread => exact .of_eq h.2
  | _ => exact h.elim

theorem Kern.Opens.grows {path : CString} {fd : Int} (hfd : s.fds fd = none)
    (h : s.Opens R path fd s') : s.Grows s' := by
  have hno : ∀ domain, s.fds fd ≠ some (.socket domain) := by
    intro domain hd
    rw [hfd] at hd
    cases hd
  unfold Kern.Opens at h
  split at h
  · obtain ⟨hifs, hfds⟩ := h
    exact .of_update hno hfds fun i hi => hifs ▸ hi
  · obtain ⟨i, f, -, -, hifs, hfds⟩ := h
    refine .of_update hno hfds fun j hj => ?_
    rw [hifs]
    exact update_ne_none hj

/-- One step of a call that only adds. -/
theorem Kern.Step.grows {c : Call} {r : Resp c} (hc : c.Adds) (h : Kern.Step R s c r s') :
    s.Grows s' := by
  cases c with
  | socket domain =>
      rcases h with ⟨-, h⟩ | ⟨-, hfd, hifs, hfds⟩
      · exact .of_eq h
      · refine .of_update (fun d hd => ?_) hfds fun i hi => hifs ▸ hi
        rw [hfd] at hd
        cases hd
  | «open» path =>
      rcases h with ⟨-, h⟩ | ⟨-, hfd, h⟩
      · exact .of_eq h
      · exact h.grows hfd
  | close fd => exact hc.elim
  | ioctl fd req arg =>
      rcases h with ⟨-, h⟩ | ⟨-, h⟩
      · exact .of_eq h
      · exact h.grows hc
  | ioctlVal fd req val =>
      rcases h with ⟨-, h⟩ | ⟨-, h⟩
      · exact .of_eq h
      · exact h.grows
  | ioctlGet fd req arg =>
      rcases h with ⟨-, h⟩ | ⟨-, h⟩
      · exact .of_eq h
      · exact h.grows
  | ioctlStr fd req arg str len =>
      rcases h with ⟨-, h⟩ | ⟨-, h⟩
      · exact .of_eq h
      · cases req with
        | siocsifname => exact Kern.Alters.grows h
        | siocsifdescr => exact .of_eq h
        | _ => exact h.elim
  | read fd size =>
      rcases h with ⟨-, h⟩ | ⟨-, -, -, h⟩ | ⟨-, i, f, packet, rest, -, -, -, -, hput⟩
      · exact .of_eq h
      · exact .of_eq h
      · exact hput.grows
  | _ => exact .of_eq h

end Grows

/-! ## The back ends, taking nothing away -/

section Adds

@[simp] theorem adds_log (level : Level) (msg : CString) : (Call.log level msg).Adds := trivial
@[simp] theorem adds_open (path : CString) : (Call.open path).Adds := trivial
@[simp] theorem adds_uninit (n : Nat) : (Call.uninit n).Adds := trivial
@[simp] theorem adds_ioctlVal (fd : Int) (req : Request) (val : BitVec 32) :
    (Call.ioctlVal fd req val).Adds := trivial
@[simp] theorem adds_getifaddrs : Call.getifaddrs.Adds := trivial

@[simp] theorem adds_ioctl {n : Nat} (fd : Int) (req : Request) (arg : Buf n) :
    (Call.ioctl fd req arg).Adds ↔ req ≠ .siocifdestroy := Iff.rfl

@[simp] theorem adds_ioctlGet {n : Nat} (fd : Int) (req : Request) (arg : Buf n) :
    (Call.ioctlGet fd req arg).Adds := trivial

end Adds

/-- The program takes nothing away and answers as `Q` says. -/
abbrev Additive {α : Type} (Q : α → Prop) (p : Sys α) : Prop :=
  p.Given (fun _ => True) (fun e => e.1.Adds) Q

/-- The record keeps its `ctrl_sock`. -/
def KeepsSock (dev : Device) (r : Int × Device) : Prop := r.2.ctrlSock = dev.ctrlSock

theorem additive_call {α : Type} {Q : α → Prop} {c : Call} {f : Resp c → Sys α} (hc : c.Adds)
    (hf : ∀ r, Additive Q (f r)) : Additive Q ((Prog.call c : Sys (Resp c)) >>= f) :=
  fun r _ => ⟨hc, hf r⟩

section Additive

variable {dev : Device} {mode : Mode} {tun : Int}

theorem Linux.tuntapSysStart_additive :
    Additive (KeepsSock dev) (tuntapSysStart dev mode tun) := by
  dsimp only [tuntapSysStart]
  simp [setPersistent, KeepsSock]

theorem FreeBsd.createLoop_additive {iftype : CString} (n : Nat) :
    Additive (fun _ => True) (createLoop dev iftype n tun) := by
  induction n generalizing tun with
  | zero => trivial
  | succ n ih =>
      simp only [createLoop, tuntapSysCreateDev]
      simp [ih]

theorem FreeBsd.createIfRequired_additive {iftype : CString} {persist : Prop}
    [Decidable persist] :
    Additive (fun _ => True) (createIfRequired dev iftype persist tun) := by
  simp [createIfRequired, tuntapSysCreateDev, createLoop_additive]

theorem FreeBsd.tuntapSysStart_additive :
    Additive (KeepsSock dev) (tuntapSysStart dev mode tun) := by
  dsimp only [tuntapSysStart]
  generalize (if mode.isPersist then mode.clearPersist else mode) = m
  split
  · simp [KeepsSock]
  · refine createIfRequired_additive.bind fun unit _ => ?_
    cases unit <;> simp [KeepsSock]

theorem Bsd.scanUnits_additive {type : CString} (n : Nat) {fd : Int} :
    Additive (fun _ => True) (scanUnits type n tun fd) := by
  induction n generalizing tun fd with
  | zero => trivial
  | succ n ih => simp [scanUnits, ih]

theorem Bsd.openUnit_additive {type : CString} :
    Additive (fun _ => True) (openUnit type tun) := by
  unfold openUnit
  split
  · simp
  · split
    · exact (scanUnits_additive _).bind fun _ _ => trivial
    · simp

theorem OpenBsd.forceCreation_additive {ifname : CString} {persist : Prop} [Decidable persist] :
    Additive (fun _ => True) (forceCreation dev ifname persist tun) := by
  simp [forceCreation, tuntapSysCreateDev]

theorem OpenBsd.tuntapSysStart_additive :
    Additive (KeepsSock dev) (tuntapSysStart dev mode tun) := by
  dsimp only [tuntapSysStart]
  generalize (if mode.isPersist then mode.clearPersist else mode) = m
  split
  · simp [KeepsSock]
  · refine forceCreation_additive.bind fun goesOn _ => ?_
    split
    · rfl
    · refine Bsd.openUnit_additive.bind fun r _ => ?_
      cases r with
      | none => rfl
      | some p => simp [Bsd.checkFd, configure, KeepsSock]

theorem Bsd.saveLladdr_additive :
    Additive (fun d => d.ctrlSock = dev.ctrlSock) (saveLladdr dev) := by
  unfold saveLladdr
  refine additive_call trivial fun ifa => ?_
  cases ifa with
  | none => rfl
  | some ifa =>
      cases hfind : ifa.find? (fun pifa => pifa.ifaName = dev.ifName.cstr) with
      | some pifa => simp [hfind]
      | none => simp [hfind]

theorem Darwin.tuntapSysStart_additive :
    Additive (KeepsSock dev) (tuntapSysStart dev mode tun) := by
  dsimp only [tuntapSysStart]
  refine additive_call trivial fun ifr => ?_
  split
  · simp [KeepsSock]
  · split
    · simp [KeepsSock]
    · refine Bsd.openUnit_additive.bind fun r _ => ?_
      cases r with
      | none => rfl
      | some p =>
          simp [Bsd.checkFd, configure, KeepsSock]
          intro _ _ r _ _ _ _
          exact Bsd.saveLladdr_additive.bind fun d hd => hd

theorem NetBsd.tapNode_additive : Additive (fun _ => True) (tapNode dev tun) := by
  simp [tapNode, tuntapSysCreateDev]

theorem NetBsd.openTun_additive : Additive (fun _ => True) (openTun tun) := by
  unfold openTun
  split
  · simp
  · split
    · exact (Bsd.scanUnits_additive _).bind fun _ _ => trivial
    · simp

theorem NetBsd.forceCreation_additive :
    Additive (fun _ => True) (forceCreation dev mode tun) := by
  simp [forceCreation, tuntapSysCreateDev]

theorem NetBsd.tuntapSysStart_additive :
    Additive (KeepsSock dev) (tuntapSysStart dev mode tun) := by
  unfold tuntapSysStart
  refine forceCreation_additive.bind fun goesOn _ => ?_
  split
  · rfl
  · dsimp only
    generalize (if mode.isPersist then mode.clearPersist else mode) = m
    split
    · unfold tuntapSysStartTap
      refine tapNode_additive.bind fun name _ => ?_
      cases name with
      | none => rfl
      | some name =>
          simp [KeepsSock]
          intro fd _ ifr _ r _
          exact Bsd.saveLladdr_additive.bind fun d hd => hd
    · split
      · unfold tuntapSysStartTun
        refine openTun_additive.bind fun r _ => ?_
        cases r with
        | none => rfl
        | some p => simp [Bsd.checkFd, KeepsSock]
      · rfl

/-- A back end takes nothing away, and keeps the control socket it was given. -/
theorem tuntapSysStart_additive (os : Os) :
    Additive (KeepsSock dev) (tuntapSysStart os dev mode tun) := by
  cases os with
  | linux => exact Linux.tuntapSysStart_additive
  | freeBsd => exact FreeBsd.tuntapSysStart_additive
  | openBsd => exact OpenBsd.tuntapSysStart_additive
  | netBsd => exact NetBsd.tuntapSysStart_additive
  | darwin => exact Darwin.tuntapSysStart_additive

end Additive

/-! ## What a trace leaves -/

/-- There is something that was not there before. -/
def Kern.Gained (s s' : Kern) : Prop :=
  (∃ n, s.fds n = none ∧ s'.fds n ≠ none) ∨ ∃ i, s.ifs i = none ∧ s'.ifs i ≠ none

section Traces

variable {R : Rules} {s t s' : Kern} {tr : List (Event Call Resp)}

theorem Kern.Gained.grows (h : s.Gained t) (hg : t.Grows s') : s.Gained s' := by
  cases h with
  | inl h =>
      obtain ⟨n, hn, hn'⟩ := h
      exact Or.inl ⟨n, hn, hg.fds n hn'⟩
  | inr h =>
      obtain ⟨i, hi, hi'⟩ := h
      exact Or.inr ⟨i, hi, hg.ifs i hi'⟩

theorem Kern.Gained.of_grows (hg : s.Grows t) (h : t.Gained s') : s.Gained s' := by
  cases h with
  | inl h =>
      obtain ⟨n, hn, hn'⟩ := h
      exact Or.inl ⟨n, not_not.mp fun h0 => hg.fds n h0 hn, hn'⟩
  | inr h =>
      obtain ⟨i, hi, hi'⟩ := h
      exact Or.inr ⟨i, not_not.mp fun h0 => hg.ifs i h0 hi, hi'⟩

/-- What acquires something leaves something new. -/
theorem Acquires.gained {e : Event Call Resp} (he : Acquires e)
    (h : Kern.Step R s e.1 e.2 s') : s.Gained s' := by
  obtain ⟨c, r⟩ := e
  cases c with
  | «open» path =>
      rcases h with ⟨hr, -⟩ | ⟨-, hfd, h⟩
      · exact absurd hr he
      · refine Or.inl ⟨r, hfd, ?_⟩
        unfold Kern.Opens at h
        split at h
        · rw [h.2, Function.update_self]
          exact Option.some_ne_none _
        · obtain ⟨i, f, -, -, -, hfds⟩ := h
          rw [hfds, Function.update_self]
          exact Option.some_ne_none _
  | ioctl fd req arg =>
      obtain ⟨hreq, hret⟩ := he
      rcases h with ⟨hr, -⟩ | ⟨-, h⟩
      · exact absurd hr hret
      · have hput : ∃ i f, s.ifs i = none ∧ s.Put s' i f := by
          rcases hreq with rfl | rfl
          · obtain ⟨-, i, f, hi, -, hput⟩ := h
            exact ⟨i, f, hi, hput⟩
          · obtain ⟨-, i, f, hi, -, hput⟩ := h
            exact ⟨i, f, hi, hput⟩
        obtain ⟨i, f, hi, -, hifs⟩ := hput
        refine Or.inr ⟨i, hi, ?_⟩
        rw [hifs, Function.update_self]
        exact Option.some_ne_none _
  | _ => exact he.elim

theorem Harmless.eq {e : Event Call Resp} (he : Harmless e)
    (h : Kern.Step R s e.1 e.2 s') : s' = s := by
  obtain ⟨c, r⟩ := e
  cases c with
  | log | uninit => exact h
  | «open» path =>
      rcases h with ⟨-, h⟩ | ⟨h0, -⟩
      · exact h
      · rw [show r = (-1 : Int) from he] at h0
        exact absurd h0 (Int.not_le.mpr (Int.negSucc_lt_zero 0))
  | ioctl fd req arg =>
      rcases h with ⟨-, h⟩ | ⟨h0, -⟩
      · exact h
      · rw [show r.ret = -1 from he] at h0
        exact absurd h0 (by decide)
  | _ => exact he.elim

theorem steps_harmless (h : (kernel R).Steps s tr s') (hall : ∀ e ∈ tr, Harmless e) :
    s' = s := by
  induction tr generalizing s with
  | nil => exact h
  | cons e tr ih =>
      obtain ⟨m, hm, h⟩ := h
      rw [ih h fun e' he' => hall e' (List.mem_cons_of_mem _ he'),
        (hall e (List.mem_cons_self ..)).eq hm]

theorem steps_grows (h : (kernel R).Steps s tr s') (hall : ∀ e ∈ tr, e.1.Adds) :
    s.Grows s' := by
  refine h.preserves (J := fun m => s.Grows m) (.refl s) fun e he m m' hm hg => ?_
  exact hg.trans (Kern.Step.grows (hall e he) hm)

theorem steps_gained (h : (kernel R).Steps s tr s') (hall : ∀ e ∈ tr, e.1.Adds)
    (hacq : ∃ e ∈ tr, Acquires e) : s.Gained s' := by
  obtain ⟨e, he, hacq⟩ := hacq
  obtain ⟨tr₁, tr₂, rfl⟩ := List.append_of_mem he
  obtain ⟨m, h₁, m', hm, h₂⟩ := ((kernel R).steps_append s tr₁ (e :: tr₂) s').mp h
  have hg₁ := steps_grows h₁ fun e he => hall e (List.mem_append_left _ he)
  have hg₂ := steps_grows h₂ fun e he =>
    hall e (List.mem_append_right _ (List.mem_cons_of_mem _ he))
  exact .of_grows hg₁ ((hacq.gained hm).grows hg₂)

end Traces

/-! ## The whole start -/

/-- Nothing of what the caller can see has changed: the open descriptors, the
interfaces with their persistence, and the record. -/
structure Unchanged (k k' : Kern) (dev dev' : Device) : Prop where
  fds : ∀ n, (k'.fds n).isSome = (k.fds n).isSome
  ifs : ∀ i, (k'.ifs i).map Iface.persist = (k.ifs i).map Iface.persist
  dev : dev' = dev

theorem Unchanged.not_gained {k k' : Kern} {dev dev' : Device} (h : Unchanged k k' dev dev') :
    ¬ k.Gained k' := by
  rintro (⟨n, hn, hn'⟩ | ⟨i, hi, hi'⟩)
  · have hfds := h.fds n
    rw [hn] at hfds
    exact hn' (Option.not_isSome_iff_eq_none.mp (by simp [hfds]))
  · have hifs := h.ifs i
    rw [hi] at hifs
    exact hi' (Option.map_eq_none_iff.mp hifs)

/-- The number `socket` gave. -/
def socketNumber : Event Call Resp → Option Int
  | ⟨.socket _, fd⟩ => some fd
  | _ => none

/-- The start got no socket, or one with the number the record holds already,
and was granted no `open` and no creation. -/
def CameToNothing (dev : Device) (tr : List (Event Call Resp)) : Prop :=
  (tr.findSome? socketNumber = some (-1) ∨ tr.findSome? socketNumber = some dev.ctrlSock) ∧
    ∀ e ∈ tr, ¬ Acquires e

/-- What the trace of a failed start looks like: the back end's part, between
the socket and its `close`. -/
theorem tuntapStart_failed {os : Os} {dev dev' : Device} {mode : Mode} {tun : Int}
    (hdev : dev.tunFd = -1) {tr : List (Event Call Resp)}
    (hr : (tuntapStart os dev mode tun).Runs tr (-1, dev')) :
    (tr = [⟨.socket .inet, (-1 : Int)⟩] ∧ dev' = dev) ∨
      ∃ sock tr' rc, sock ≠ -1 ∧
        tr = ⟨.socket .inet, sock⟩ :: tr' ++ [⟨.close sock, rc⟩] ∧
        (∀ e ∈ tr', e.1.Adds) ∧ dev'.ctrlSock = sock ∧
        ((∀ e ∈ tr', ¬ Acquires e) →
          (∀ e ∈ tr', Harmless e) ∧ dev' = { dev with ctrlSock := sock }) := by
  unfold tuntapStart at hr
  rw [if_neg (not_not.mpr hdev)] at hr
  simp only [Prog.runs_call_bind] at hr
  obtain ⟨sock, tr₁, rfl, hr⟩ := hr
  by_cases hsock : sock = -1
  · subst hsock
    simp [startClean] at hr
    exact Or.inl ⟨by rw [hr.1], hr.2⟩
  · right
    rw [if_neg hsock] at hr
    have hclean : ∀ {d : Device} {tr}, (startClean (-1) sock d).Runs tr (-1, dev') →
        ∃ rc, tr = [⟨.close sock, rc⟩] ∧ dev' = d := by
      intro d tr h
      simp [startClean, hsock] at h
      obtain ⟨⟨rc, htr⟩, hd⟩ := h
      exact ⟨rc, htr, hd⟩
    by_cases hany : mode.isPersist ∧ tun = tuntapIdAny
    · simp only [if_pos hany] at hr
      obtain ⟨rc, rfl, rfl⟩ := hclean hr
      exact ⟨sock, [], rc, hsock, rfl, by simp, rfl, fun _ => ⟨by simp, rfl⟩⟩
    · simp only [if_neg hany] at hr
      obtain ⟨⟨fd, d⟩, tr', tr₂, rfl, hsys, hr⟩ := (Prog.runs_bind _ _ _ _).mp hr
      have hadds := (tuntapSysStart_additive os).of_runs hsys fun _ _ => trivial
      have hbarren := (tuntapSysStart_barren os).of_runs hsys
      dsimp only at hr
      by_cases hfd : fd = -1
      · subst hfd
        rw [if_pos rfl] at hr
        obtain ⟨rc, rfl, rfl⟩ := hclean hr
        refine ⟨sock, tr', rc, hsock, rfl, hadds.1, hadds.2, fun hno => ?_⟩
        obtain ⟨hharm, heq⟩ := hbarren hno
        exact ⟨hharm, congrArg Prod.snd heq⟩
      · rw [if_neg hfd] at hr
        have h0 : (-1 : Int) = 0 := congrArg Prod.fst hr.2
        exact absurd h0 (by decide)

/-- Between its two ends a failed start leaves the socket where it was, so that
`close` gives it back and touches no interface. -/
theorem failed_start_kernel {R : Rules} {k k' : Kern} {sock rc : Int}
    {tr : List (Event Call Resp)} (hsock : sock ≠ -1) (hadds : ∀ e ∈ tr, e.1.Adds)
    (hk : (kernel R).Steps k (⟨.socket .inet, sock⟩ :: tr ++ [⟨.close sock, rc⟩]) k') :
    k.fds sock = none ∧ ∃ k₁ k₂, k₁.ifs = k.ifs ∧
      k₁.fds = Function.update k.fds sock (some (.socket .inet)) ∧
      (kernel R).Steps k₁ tr k₂ ∧ k'.ifs = k₂.ifs ∧
      k'.fds = Function.update k₂.fds sock none := by
  obtain ⟨k₁, hs, hk⟩ := hk
  obtain ⟨k₂, hmid, k₃, hc, rfl⟩ := ((kernel R).steps_append _ _ _ _).mp hk
  have hopen := (Kern.Step.socket_opens hs hsock).2
  rcases hs with ⟨h, -⟩ | ⟨-, hfree, hifs, hfds⟩
  · exact absurd h hsock
  · refine ⟨hfree, k₁, k₂, hifs, hfds, hmid, ?_, hc.1⟩
    have hstill : k₂.fds sock = some (.socket .inet) :=
      (steps_grows hmid hadds).sockets sock .inet hopen
    have hleaves := hc.2
    unfold Kern.Leaves at hleaves
    rw [hstill] at hleaves
    exact hleaves

/-- What was gained while the socket was open is still there when it is closed. -/
theorem Kern.Gained.around_socket {k k₁ k₂ k' : Kern} {sock : Int} (h : k₁.Gained k₂)
    (hifs₁ : k₁.ifs = k.ifs)
    (hfds₁ : k₁.fds = Function.update k.fds sock (some (.socket .inet)))
    (hifs' : k'.ifs = k₂.ifs) (hfds' : k'.fds = Function.update k₂.fds sock none) :
    k.Gained k' := by
  rcases h with ⟨n, hn, hn'⟩ | ⟨i, hi, hi'⟩
  · have hne : n ≠ sock := by
      intro heq
      rw [heq, hfds₁, Function.update_self] at hn
      cases hn
    rw [hfds₁, Function.update_of_ne hne] at hn
    refine Or.inl ⟨n, hn, ?_⟩
    rw [hfds', Function.update_of_ne hne]
    exact hn'
  · rw [hifs₁] at hi
    refine Or.inr ⟨i, hi, ?_⟩
    rw [hifs']
    exact hi'

/-- A start that fails leaves everything as it was exactly when it came to
nothing. -/
theorem failed_start_unchanged_iff (R : Rules) (dev dev' : Device) (mode : Mode) (tun : Int)
    (k k' : Kern) (tr : List (Event Call Resp)) (hdev : dev.tunFd = -1)
    (hr : (tuntapStart R.os dev mode tun).Runs tr (-1, dev'))
    (hk : (kernel R).Steps k tr k') :
    Unchanged k k' dev dev' ↔ CameToNothing dev tr := by
  rcases tuntapStart_failed hdev hr with
    ⟨rfl, rfl⟩ | ⟨sock, tr', rc, hsock, rfl, hadds, hctrl, hbarren⟩
  · have hsame : k' = k := by
      obtain ⟨m, hm, rfl⟩ := hk
      rcases hm with ⟨-, h⟩ | ⟨h0, -⟩
      · exact h
      · exact absurd h0 (by decide)
    subst hsame
    refine iff_of_true ⟨fun _ => rfl, fun _ => rfl, rfl⟩ ⟨Or.inl rfl, fun e he => ?_⟩
    obtain rfl := List.mem_singleton.mp he
    exact id
  · obtain ⟨hfree, k₁, k₂, hifs₁, hfds₁, hmid, hifs', hfds'⟩ :=
      failed_start_kernel hsock hadds hk
    constructor
    · intro h
      have hnum : sock = dev.ctrlSock := by rw [← hctrl, h.dev]
      refine ⟨Or.inr (congrArg some hnum), fun e he hacq => ?_⟩
      have hmem : e ∈ tr' := by
        simp only [List.cons_append, List.mem_cons, List.mem_append, List.not_mem_nil,
          or_false] at he
        rcases he with rfl | he | rfl
        · exact hacq.elim
        · exact he
        · exact hacq.elim
      have hgained : k₁.Gained k₂ := steps_gained hmid hadds ⟨e, hmem, hacq⟩
      exact h.not_gained (hgained.around_socket hifs₁ hfds₁ hifs' hfds')
    · intro h
      obtain ⟨hnum, hno⟩ := h
      have hnum : sock = dev.ctrlSock := by
        rcases hnum with hnum | hnum
        · exact absurd (Option.some.inj hnum) hsock
        · exact Option.some.inj hnum
      obtain ⟨hharm, hdev'⟩ := hbarren fun e he =>
        hno e (List.mem_cons_of_mem _ (List.mem_append_left _ he))
      obtain rfl := steps_harmless hmid hharm
      refine ⟨fun n => ?_, fun i => ?_, ?_⟩
      · rw [hfds', hfds₁]
        by_cases hn : n = sock
        · rw [hn, Function.update_self, hfree]
        · rw [Function.update_of_ne hn, Function.update_of_ne hn]
      · rw [hifs', hifs₁]
      · rw [hdev', hnum]

/-- A second attempt gets the socket number of the first, and the device node
does not open. -/
theorem failed_retry_unchanged :
    ∃ k' tr, Unchanged Kern.blank k' { Device.init with ctrlSock := 3 }
        { Device.init with ctrlSock := 3 } ∧ (kernel (Rules.plain .linux)).Steps Kern.blank tr k' ∧
      (tuntapStart .linux { Device.init with ctrlSock := 3 } tuntapModeTunnel 0).Runs tr
        (-1, { Device.init with ctrlSock := 3 }) := by
  have hr : (tuntapStart .linux { Device.init with ctrlSock := 3 } tuntapModeTunnel 0).Runs
      [⟨.socket .inet, (3 : Int)⟩, ⟨.open (CString.lit "/dev/net/tun"), (-1 : Int)⟩,
        ⟨.log .err (CString.lit "Can't open /dev/net/tun"), ()⟩, ⟨.close 3, (0 : Int)⟩]
      (-1, { Device.init with ctrlSock := 3 }) := by
    refine ⟨(3 : Int), _, rfl, (-1 : Int), _, rfl, ?_⟩
    change ∃ (r : Unit) (tr' : _), _ = _ ∧ _
    exact ⟨(), _, rfl, (0 : Int), _, rfl, rfl, rfl⟩
  have hk : (kernel (Rules.plain .linux)).Steps Kern.blank
      [⟨.socket .inet, (3 : Int)⟩, ⟨.open (CString.lit "/dev/net/tun"), (-1 : Int)⟩,
        ⟨.log .err (CString.lit "Can't open /dev/net/tun"), ()⟩, ⟨.close 3, (0 : Int)⟩]
      ((Kern.blank.setFd 3 (some (.socket .inet))).setFd 3 none) :=
    ⟨Kern.blank.setFd 3 (some (.socket .inet)), Or.inr ⟨by decide, rfl, rfl, rfl⟩,
      _, Or.inl ⟨rfl, rfl⟩, _, rfl, (Kern.blank.setFd 3 (some (.socket .inet))).setFd 3 none,
      ⟨rfl, rfl⟩, rfl⟩
  refine ⟨_, _, (failed_start_unchanged_iff (Rules.plain .linux) _ _ _ _ _ _ _ rfl hr hk).mpr ?_,
    hk, hr⟩
  refine ⟨Or.inr rfl, ?_⟩
  simp only [List.mem_cons, List.not_mem_nil, or_false, forall_eq_or_imp, forall_eq]
  exact ⟨id, fun h => h rfl, id, id⟩

/-- `/dev/net/tun` opens as 4, the kernel refuses `TUNSETIFF`, and the start
fails with descriptor 4 open. -/
theorem failed_start_leaks :
    ¬ ∀ (R : Rules) (dev dev' : Device) (mode : Mode) (tun : Int) (k k' : Kern)
      (tr : List (Event Call Resp)), dev.tunFd = -1 →
        (tuntapStart R.os dev mode tun).Runs tr (-1, dev') → (kernel R).Steps k tr k' →
          Unchanged k k' dev dev' := by
  intro hclaim
  have hr : ∃ arg : Ifreq, (tuntapStart .linux Device.init tuntapModeTunnel 0).Runs
      [⟨.socket .inet, (3 : Int)⟩, ⟨.open (CString.lit "/dev/net/tun"), (4 : Int)⟩,
        ⟨.ioctlGet 4 .tunsetiff arg, ⟨-1, Buf.zero⟩⟩,
        ⟨.log .err (CString.lit "Can't set interface name"), ()⟩, ⟨.close 3, (0 : Int)⟩]
      (-1, { Device.init with ctrlSock := 3 }) := by
    refine ⟨(setIfrFlags Buf.zero (iffTun ||| iffNoPi)).strlcpy 0
      (Linux.unitName tuntapModeTunnel 0) 16, (3 : Int), _, rfl, (4 : Int), _, rfl, ?_⟩
    change ∃ (r : IoctlGetRet 40) (tr' : _), _ = _ ∧ _
    refine ⟨⟨-1, Buf.zero⟩, _, rfl, ?_⟩
    change ∃ (r : Unit) (tr' : _), _ = _ ∧ _
    exact ⟨(), _, rfl, (0 : Int), _, rfl, rfl, rfl⟩
  obtain ⟨arg, hr⟩ := hr
  have h := hclaim (Rules.plain .linux) Device.init { Device.init with ctrlSock := 3 }
    tuntapModeTunnel 0 Kern.blank
    (((Kern.blank.setFd 3 (some (.socket .inet))).setFd 4 (some (.tun none))).setFd 3 none) _ rfl
    hr ?_
  · exact absurd (h.fds 4) (by decide)
  · exact ⟨Kern.blank.setFd 3 (some (.socket .inet)), Or.inr ⟨by decide, rfl, rfl, rfl⟩,
      (Kern.blank.setFd 3 (some (.socket .inet))).setFd 4 (some (.tun none)),
      Or.inr ⟨by decide, rfl, rfl, rfl⟩, _, Or.inl ⟨rfl, rfl⟩, _, rfl,
      ((Kern.blank.setFd 3 (some (.socket .inet))).setFd 4 (some (.tun none))).setFd 3 none,
      ⟨rfl, rfl⟩, rfl⟩

end Libtuntap
