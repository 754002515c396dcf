import Libtuntap.Effect.FailStop
import Libtuntap.Effect.Wp
import Libtuntap.Proofs.Requests
import Libtuntap.Proofs.SetIp

/-!
# What a failure means

The operations on a started device that answer 0 or -1, or a number of bytes or
-1, share an error path that is written out again in every function: look at
what the call returned, log a line, return -1. Here it is shown that none of
them leaves it out on any system. An operation the system does not have, or an
argument that makes no sense, is turned down before anything is asked of the
kernel. What is not turned down is asked for, and -1 comes back precisely when
something was refused; nothing more is asked for then, and the record is as it
was. The one trace of a failure is the address that `tuntap_set_hwaddr` has
already put in the record.

Removing an address before a new one is set does not count. It fails when there
was none, and the sources do not look.
-/

namespace Libtuntap

open Effect CMem

/-- An `ioctl` answers -1 or something that is not negative. -/
def Proper : Event Call Resp → Prop
  | ⟨.ioctl .., r⟩ => -1 ≤ r.ret
  | ⟨.ioctlVal .., r⟩ => -1 ≤ r.ret
  | ⟨.ioctlStr .., r⟩ => -1 ≤ r.ret
  | ⟨.ioctlGet .., r⟩ => -1 ≤ r.ret
  | _ => True

/-- A call that did not do what it was made for. -/
def Refused : Event Call Resp → Prop
  | ⟨.ioctl _ req _, r⟩ => req ≠ .siocdifaddr ∧ r.ret = -1
  | ⟨.ioctlVal .., r⟩ => r.ret = -1
  | ⟨.ioctlStr .., r⟩ => r.ret = -1
  | ⟨.ioctlGet .., r⟩ => r.ret = -1
  | ⟨.socket _, r⟩ => r = -1
  | ⟨.read .., r⟩ => r.ret = -1
  | ⟨.write .., r⟩ => r = -1
  | ⟨.select .., r⟩ => r ≤ 0
  | _ => False

/-- The numbers of the sockets that were opened. -/
def OpenedIn (tr : List (Event Call Resp)) (fd : Int) : Prop :=
  fd ≠ -1 ∧ ∃ domain, (⟨.socket domain, fd⟩ : Event Call Resp) ∈ tr

/-- What is left to do after a refusal: a message, or the end of what was opened.
Nothing is opened any more then, so that was before. -/
def WindsUp (opened : Int → Prop) : Call → Prop
  | .log .. => True
  | .close fd => opened fd
  | _ => False

/-- A proper event, after which a new socket counts as opened. -/
def Counted (opened : Int → Prop) (e : Event Call Resp) : Prop :=
  Proper e ∧ match e with
    | ⟨.socket _, fd⟩ => fd ≠ -1 → opened fd
    | _ => True

theorem counted_of_mem {tr : List (Event Call Resp)} (hproper : ∀ e ∈ tr, Proper e) :
    ∀ e ∈ tr, Counted (OpenedIn tr) e := by
  intro e he
  refine ⟨hproper e he, ?_⟩
  split
  · exact fun hfd => ⟨hfd, _, he⟩
  · trivial

/-- A program that only winds up, and answers that it failed. -/
def GivesUp {α : Type} (opened : Int → Prop) (F : α → Prop) (p : Sys α) : Prop :=
  p.AllCalls (WindsUp opened) ∧ p.Answers F

/-- A program that stops at the first refusal. -/
abbrev Asks {α : Type} (opened : Int → Prop) (Q F : α → Prop) (p : Sys α) : Prop :=
  p.FailStop (Counted opened) Refused (WindsUp opened) Q F

/-! ## The error path -/

section Path

variable {α : Type} {opened : Int → Prop} {Q F : α → Prop} {n : Nat} {fd : Int}
  {req : Request} {arg : Buf n}

theorem givesUp_logged {level : Level} {msg : String} {a : α} (ha : F a) :
    GivesUp opened F (tuntapLog level msg >>= fun _ => .ret a) :=
  ⟨⟨trivial, fun _ => trivial⟩, fun _ => ha⟩

theorem givesUp_closed {level : Level} {msg : String} {a : α} (ha : F a) (hfd : opened fd) :
    GivesUp opened F (tuntapLog level msg >>= fun _ => close fd >>= fun _ => .ret a) :=
  ⟨⟨trivial, fun _ => ⟨hfd, fun _ => trivial⟩⟩, fun _ _ => ha⟩

/-- A call that is looked at by `test`. -/
theorem asks_tested {c : Call} {test : Resp c → Prop} [DecidablePred test]
    {p q : Resp c → Sys α}
    (htest : ∀ r, Proper ⟨c, r⟩ → (test r ↔ Refused ⟨c, r⟩)) (hp : ∀ r, GivesUp opened F (p r))
    (hq : ∀ r, Asks opened Q F (q r)) :
    Asks opened Q F ((Prog.call c : Sys (Resp c)) >>= fun r => if test r then p r else q r) := by
  refine (Prog.failStop_call_bind _ _).mpr fun r hproper => ?_
  have hiff := htest r hproper.1
  constructor
  · intro hrefused
    rw [if_pos (hiff.mpr hrefused)]
    exact hp r
  · intro hgranted
    rw [if_neg fun h => hgranted (hiff.mp h)]
    exact hq r

/-- A call that is not looked at, or cannot fail. -/
theorem asks_ignored {c : Call} {q : Resp c → Sys α} (hc : ∀ r, ¬ Refused ⟨c, r⟩)
    (hq : ∀ r, Asks opened Q F (q r)) : Asks opened Q F ((Prog.call c : Sys (Resp c)) >>= q) :=
  (Prog.failStop_call_bind _ _).mpr fun r _ =>
    ⟨fun hrefused => absurd hrefused (hc r), fun _ => hq r⟩

theorem asks_ioctl {p q : IoctlRet → Sys α} (hreq : req ≠ .siocdifaddr)
    (hp : ∀ r, GivesUp opened F (p r)) (hq : ∀ r, Asks opened Q F (q r)) :
    Asks opened Q F (ioctl fd req arg >>= fun r => if r.ret = -1 then p r else q r) :=
  asks_tested (fun _ _ => ⟨fun h => ⟨hreq, h⟩, fun h => h.2⟩) hp hq

/-- FreeBSD, OpenBSD and Darwin look for a negative answer in places. -/
theorem asks_ioctl_neg {p q : IoctlRet → Sys α} (hreq : req ≠ .siocdifaddr)
    (hp : ∀ r, GivesUp opened F (p r)) (hq : ∀ r, Asks opened Q F (q r)) :
    Asks opened Q F (ioctl fd req arg >>= fun r => if r.ret < 0 then p r else q r) := by
  refine asks_tested (fun r (hr : -1 ≤ r.ret) => ?_) hp hq
  constructor
  · intro h
    exact ⟨hreq, by omega⟩
  · intro h
    have hret := h.2
    omega

theorem asks_ioctlStr {s : CString} {len : Nat} {p q : IoctlRet → Sys α}
    (hp : ∀ r, GivesUp opened F (p r)) (hq : ∀ r, Asks opened Q F (q r)) :
    Asks opened Q F (ioctlStr fd req arg s len >>= fun r => if r.ret = -1 then p r else q r) :=
  asks_tested (fun _ _ => Iff.rfl) hp hq

end Path

/-! ## The back ends -/

/-- Zero, and -1. -/
abbrev AsksFor (opened : Int → Prop) (p : Sys Int) : Prop := Asks opened (· = 0) (· = -1) p

section BackEnds

variable {opened : Int → Prop} {dev : Device} {os : Os}

theorem sysSetHwaddr_asks (ethAddr : Buf 6) :
    AsksFor opened (tuntapSysSetHwaddr os dev ethAddr) := by
  cases os with
  | linux | netBsd =>
      exact asks_ioctl nofun (fun _ => givesUp_logged rfl) fun _ => rfl
  | freeBsd | openBsd | darwin =>
      exact asks_ioctl_neg nofun (fun _ => givesUp_logged rfl) fun _ => rfl

theorem sysSetIpv4_asks (s4 : Buf 4) (bits : BitVec 32) :
    AsksFor opened (tuntapSysSetIpv4 os dev s4 bits) := by
  have hdelete : ∀ {n : Nat} {fd : Int} {arg : Buf n} (r : IoctlRet),
      ¬ Refused ⟨.ioctl fd .siocdifaddr arg, r⟩ := fun _ h => h.1 rfl
  cases os with
  | linux =>
      exact asks_ioctl nofun (fun _ => givesUp_logged rfl) fun _ =>
        asks_ioctl nofun (fun _ => givesUp_logged rfl) fun _ => rfl
  | freeBsd =>
      exact asks_ignored hdelete fun _ =>
        asks_ioctl nofun (fun _ => givesUp_logged rfl) fun _ =>
          asks_ioctl nofun (fun _ => givesUp_logged rfl) fun _ => rfl
  | openBsd | netBsd | darwin =>
      exact asks_ignored hdelete fun _ =>
        asks_ioctl nofun (fun _ => givesUp_logged rfl) fun _ => rfl

theorem linux_setIpv6_asks (s6 : Buf 16) (prefixLen : BitVec 32) :
    AsksFor opened (Linux.tuntapSysSetIpv6 dev s6 prefixLen) := by
  have hclose : ∀ {fd : Int} (r : Int), ¬ Refused ⟨.close fd, r⟩ := fun _ => id
  refine (Prog.failStop_call_bind _ _).mpr fun (fd : Int) hcounted => ⟨fun hno => ?_, fun hne => ?_⟩
  · rw [if_pos (show fd = -1 from hno)]
    exact givesUp_logged rfl
  have hfd : opened fd := hcounted.2 hne
  rw [if_neg (show ¬ fd = -1 from hne)]
  refine asks_tested (fun _ _ => Iff.rfl) (fun _ => givesUp_closed rfl hfd) fun r => ?_
  refine asks_ignored (fun _ h => h.1 rfl) fun _ => ?_
  refine asks_ioctl nofun (fun _ => givesUp_closed rfl hfd) fun _ => ?_
  exact asks_ignored hclose fun _ => rfl

end BackEnds

/-! ## The operations -/

/-- -1 for an answer. -/
def Ret.Failed : Ret → Prop
  | .int n => n = -1
  | .bytes n _ => n = -1
  | _ => False

/-- What may be in the record after a failure. -/
def Op.Spares (dev d : Device) : Op → Prop
  | .setHwaddr _ => ∃ hwaddr, d = { dev with hwaddr := hwaddr }
  | _ => d = dev

/-- -1, and the record spared. -/
def Op.Fails (op : Op) (dev : Device) (r : Ret × Option Device) : Prop :=
  r.1.Failed ∧ ∃ d, r.2 = some d ∧ op.Spares dev d

/-- The operations that ask something of the kernel and say what came of it. -/
def Op.Asking : Op → Prop
  | .setDescr _ | .setIfname _ | .setHwaddr _ | .up | .down | .setMtu _ | .setIp .. | .read _
  | .readTm .. | .write _ | .writeTm .. | .setNonblocking _ | .setDebug _ => True
  | _ => False

/-- The arguments that make no sense, and what a system does not have. -/
def Op.TurnedDown (os : Os) (libc : Libc) : Op → Prop
  | .setDescr none => True
  | .setDescr (some _) => os = .linux ∨ os = .netBsd ∨ os = .darwin
  | .setIfname none => True
  | .setIfname (some ifname) =>
      ifNamesize < ifname.strlen ∨ os = .openBsd ∨ os = .netBsd ∨ os = .darwin
  | .setHwaddr hwaddr => hwaddr ≠ CString.lit "random" ∧ libc.etherAton hwaddr = none
  | .setIp none _ => True
  | .setIp (some addr) netmask =>
      netmask < 0 ∨ 128 < netmask ∨
        libc.inetPton4 addr = none ∧ (libc.inetPton6 addr = none ∨ os ≠ .linux)
  | .setDebug _ => os = .darwin
  | _ => False

section Operations

variable {opened : Int → Prop} {os : Os} {libc : Libc} {dev : Device} {op : Op}

theorem Op.spares_self (op : Op) (dev : Device) : op.Spares dev dev := by
  cases op with
  | setHwaddr hwaddr => exact ⟨dev.hwaddr, rfl⟩
  | _ => rfl

theorem fails_keep {ret : Ret} (h : ret.Failed) : op.Fails dev (keep dev ret) :=
  ⟨h, dev, rfl, op.spares_self dev⟩

/-- An operation that leaves the record alone. -/
theorem asks_keep {p : Sys Int} (h : AsksFor opened p) :
    Asks opened (fun r => ¬ r.1.Failed) (op.Fails dev)
      (p >>= fun n => .ret (keep dev (.int n))) := by
  refine h.bind (fun n hn => ?_) fun n hn => ⟨trivial, fails_keep hn⟩
  rw [hn]
  show ¬ (0 : Int) = -1
  decide

/-- An operation that may change it. -/
theorem asks_back {p : Sys (Int × Device)}
    (h : Asks opened (fun r => r.1 = 0) (fun r => r.1 = -1 ∧ op.Spares dev r.2) p) :
    Asks opened (fun r => ¬ r.1.Failed) (op.Fails dev) (p >>= fun r => .ret (back r)) := by
  refine h.bind (fun r hr => ?_) fun r hr => ⟨trivial, hr.1, r.2, rfl, hr.2⟩
  show ¬ r.1 = -1
  rw [hr]
  decide

theorem hwaddrTo_asks (hwaddr : CString) (ethAddr : Buf 6) :
    Asks opened (fun r => r.1 = 0) (fun r => r.1 = -1 ∧ (Op.setHwaddr hwaddr).Spares dev r.2)
      (setHwaddrTo os dev ethAddr) := by
  refine (sysSetHwaddr_asks ethAddr).bind (fun ret hret => ?_) fun ret hret => ?_
  · rw [if_neg (by omega)]
    rfl
  · rw [if_pos hret]
    exact ⟨trivial, rfl, ethAddr, rfl⟩

theorem setHwaddr_asks {hwaddr : CString} (h : ¬ (Op.setHwaddr hwaddr).TurnedDown os libc) :
    Asks opened (fun r => r.1 = 0) (fun r => r.1 = -1 ∧ (Op.setHwaddr hwaddr).Spares dev r.2)
      (tuntapSetHwaddr os libc dev hwaddr) := by
  unfold tuntapSetHwaddr
  by_cases hr : hwaddr = CString.lit "random"
  · rw [if_pos hr]
    have hrandom : randomHwaddr.AllCalls fun c => ∀ r, ¬ Refused ⟨c, r⟩ :=
      randomHwaddr_allCalls (fun _ => id) (fun _ => id) (fun _ _ => id) (fun _ => id)
    have hanswers : randomHwaddr.Answers fun _ => True :=
      Prog.answers_of_forall (fun _ => trivial) _
    have hasks : Asks opened (fun _ => True) (fun _ => False) randomHwaddr :=
    hrandom.failStop hanswers
    exact hasks.bind (fun ethAddr _ => hwaddrTo_asks hwaddr ethAddr) fun _ => False.elim
  · rw [if_neg hr]
    cases haton : libc.etherAton hwaddr with
    | none => exact absurd ⟨hr, haton⟩ h
    | some ethAddr => exact hwaddrTo_asks hwaddr ethAddr

theorem setIfname_asks {ifname : CString}
    (h : ¬ (Op.setIfname (some ifname)).TurnedDown os libc) :
    Asks opened (fun r => r.1 = 0) (fun r => r.1 = -1 ∧ r.2 = dev)
      (tuntapSetIfname os dev (some ifname)) := by
  have hlen : ¬ ifname.strlen > ifNamesize := fun hlong => h (Or.inl hlong)
  have hsys : Asks opened (fun r => r.1 = 0) (fun r => r.1 = -1 ∧ r.2 = dev)
      (tuntapSysSetIfname os dev ifname ifname.strlen) := by
    cases os with
    | linux =>
        refine Prog.FailStop.bind (S := (· = 0)) (G := (· = -1)) ?_ (fun _ hret => hret)
          fun _ hret => ⟨trivial, hret, rfl⟩
        exact asks_ioctl nofun (fun _ => givesUp_logged rfl) fun _ => rfl
    | freeBsd => exact asks_ioctlStr (fun _ => givesUp_logged ⟨rfl, rfl⟩) fun _ => rfl
    | openBsd => exact absurd (Or.inr (Or.inl rfl)) h
    | netBsd => exact absurd (Or.inr (Or.inr (Or.inl rfl))) h
    | darwin => exact absurd (Or.inr (Or.inr (Or.inr rfl))) h
  simp only [tuntapSetIfname, if_neg hlen]
  refine hsys.bind (fun r hr => ?_) fun r hr => ?_
  · rw [if_neg (by omega)]
    rfl
  · rw [if_pos hr.1]
    exact ⟨trivial, rfl, hr.2⟩

theorem setDescr_asks {descr : CString} (h : ¬ (Op.setDescr (some descr)).TurnedDown os libc) :
    AsksFor opened (tuntapSetDescr os dev (some descr)) := by
  have hlog : ∀ {level : Level} {msg : CString} (r : Unit), ¬ Refused ⟨.log level msg, r⟩ :=
    fun _ => id
  cases os with
  | linux => exact absurd (Or.inl rfl) h
  | netBsd => exact absurd (Or.inr (Or.inl rfl)) h
  | darwin => exact absurd (Or.inr (Or.inr rfl)) h
  | freeBsd | openBsd =>
      -- a text that is too long is only said to be
      refine (Prog.failStop_ite _ _ _).mpr ⟨fun _ => asks_ignored hlog fun _ => ?_, fun _ => ?_⟩
      · exact asks_ioctlStr (fun _ => givesUp_logged rfl) fun _ => rfl
      · exact asks_ioctlStr (fun _ => givesUp_logged rfl) fun _ => rfl

theorem setIp_asks {addr : CString} {netmask : Int} (hdev : dev.tunFd ≠ -1)
    (h : ¬ (Op.setIp (some addr) netmask).TurnedDown os libc) :
    AsksFor opened (tuntapSetIp os libc dev (some addr) netmask) := by
  have hlow : ¬ netmask < 0 := fun hlow => h (Or.inl hlow)
  have hhigh : ¬ netmask > 128 := fun hhigh => h (Or.inr (Or.inl hhigh))
  have hmask : Asks opened (fun _ => True) (fun _ => False) (netmaskWord netmask) := by
    refine Prog.AllCalls.failStop ?_ (Prog.answers_of_forall (fun _ => trivial) _)
    simp [netmaskWord, shiftRight, Refused]
  simp only [tuntapSetIp, if_neg hdev, if_neg (not_or.mpr ⟨hlow, hhigh⟩)]
  cases hpton4 : libc.inetPton4 addr with
  | some baddr4 => exact hmask.bind (fun mask _ => sysSetIpv4_asks baddr4 mask) fun _ => False.elim
  | none =>
      cases hpton6 : libc.inetPton6 addr with
      | none => exact absurd (Or.inr (Or.inr ⟨hpton4, Or.inl hpton6⟩)) h
      | some baddr6 =>
          have hos : os = .linux := by
            by_contra hne
            exact h (Or.inr (Or.inr ⟨hpton4, Or.inr hne⟩))
          rw [hos]
          exact linux_setIpv6_asks baddr6 _

theorem setFlags_asks (change : BitVec 16 → BitVec 16) :
    Asks opened (fun r => r.1 = 0) (fun r => r.1 = -1 ∧ r.2 = dev) (setFlags os dev change) :=
  asks_ioctl nofun (fun _ => ⟨trivial, rfl, rfl⟩) fun _ => rfl

theorem setMtu_asks (mtu : BitVec 32) (hdev : dev.tunFd ≠ -1) :
    AsksFor opened (tuntapSetMtu os dev mtu) := by
  simp only [tuntapSetMtu, if_neg hdev]
  exact asks_ioctl nofun (fun _ => givesUp_logged rfl) fun _ => rfl

/-- One of three lines, by the argument. -/
theorem givesUp_cases {level level' : Level} {set : BitVec 32} {msg₀ msg₁ msg : String} :
    GivesUp opened (· = -1) (if set = 0 then (tuntapLog level msg₀ >>= fun _ => .ret (-1))
      else if set = 1 then (tuntapLog level msg₁ >>= fun _ => .ret (-1))
      else (tuntapLog level' msg >>= fun _ => .ret (-1)) : Sys Int) := by
  by_cases h0 : set = 0
  · rw [if_pos h0]
    exact givesUp_logged rfl
  · rw [if_neg h0]
    by_cases h1 : set = 1
    · rw [if_pos h1]
      exact givesUp_logged rfl
    · rw [if_neg h1]
      exact givesUp_logged rfl

theorem setNonblocking_asks (set : BitVec 32) : AsksFor opened (tuntapSetNonblocking dev set) :=
  asks_ioctl nofun (fun _ => givesUp_cases) fun _ => rfl

theorem setDebug_asks (set : BitVec 32) (hdev : dev.tunFd ≠ -1) (hos : os ≠ .darwin) :
    AsksFor opened (tuntapSetDebug os dev set) := by
  simp only [tuntapSetDebug, if_neg hdev, if_neg hos]
  exact asks_ioctl nofun (fun _ => givesUp_cases) fun _ => rfl

theorem readPacket_asks (size : Nat) :
    Asks opened (fun r => r.1 ≠ -1) (fun r => r.1 = -1) (readPacket dev size) := by
  refine (Prog.failStop_call_bind _ _).mpr fun r _ => ⟨fun hr => ?_, fun hr => ?_⟩
  · rw [if_pos (show r.ret = -1 from hr)]
    by_cases hagain : r.errno ≠ .eagain
    · rw [if_pos hagain]
      exact givesUp_logged rfl
    · rw [if_neg hagain]
      exact ⟨trivial, rfl⟩
  · rw [if_neg (show ¬ r.ret = -1 from hr)]
    exact hr

theorem writePacket_asks (buf : List UInt8) :
    Asks opened (· ≠ -1) (· = -1) (writePacket dev buf) := by
  refine (Prog.failStop_call_bind _ _).mpr fun n _ => ⟨fun hn => ?_, fun hn => ?_⟩
  · rw [if_pos (show n = -1 from hn)]
    exact givesUp_logged rfl
  · rw [if_neg (show ¬ n = -1 from hn)]
    exact hn

theorem wait_asks (fd : Int) (reading : Bool) (timeoutMs : Int) :
    Asks opened (· = true) (· = false) (waitReadyEventOrTimeout fd reading timeoutMs) := by
  unfold waitReadyEventOrTimeout
  refine (Prog.failStop_ite _ _ _).mpr ⟨fun _ => rfl, fun _ => ?_⟩
  refine (Prog.failStop_call_bind _ _).mpr fun (res : Int) _ => ⟨fun hres => ?_, fun hres => ?_⟩
  · by_cases hneg : res < 0
    · rw [if_pos hneg]
      exact givesUp_logged rfl
    · have hzero : res = 0 := by
        have hle : res ≤ 0 := hres
        omega
      rw [if_neg hneg, if_pos hzero]
      exact ⟨trivial, rfl⟩
  · have hpos : ¬ res ≤ 0 := hres
    rw [if_neg (by omega), if_neg (by omega)]
    rfl

/-- What is not turned down is asked for, and -1 comes back precisely when it was
refused. -/
theorem Op.asks (op : Op) (hop : op.Asking) (hdev : dev.tunFd ≠ -1)
    (h : ¬ op.TurnedDown os libc) :
    Asks opened (fun r => ¬ r.1.Failed) (op.Fails dev) (op.prog os libc dev) := by
  cases op with
  | setDescr descr =>
      cases descr with
      | none => exact absurd trivial h
      | some descr => exact asks_keep (setDescr_asks h)
  | setIfname ifname =>
      cases ifname with
      | none => exact absurd trivial h
      | some ifname => exact asks_back (setIfname_asks h)
  | setHwaddr hwaddr => exact asks_back (setHwaddr_asks h)
  | up | down => exact asks_back (setFlags_asks _)
  | setMtu mtu => exact asks_keep (setMtu_asks mtu hdev)
  | setIp addr netmask =>
      cases addr with
      | none => exact absurd trivial h
      | some addr => exact asks_keep (setIp_asks hdev h)
  | read size =>
      simp only [Op.prog, tuntapRead, if_neg hdev]
      exact (readPacket_asks size).bind (fun _ hr => hr) fun _ hr => ⟨trivial, fails_keep hr⟩
  | readTm size timeoutMs =>
      simp only [Op.prog, tuntapReadTm, if_neg hdev, Prog.bind_assoc]
      refine (wait_asks ..).bind (fun ready hready => ?_) fun ready hready => ?_
      · subst hready
        exact (readPacket_asks size).bind (fun _ hr => hr) fun _ hr => ⟨trivial, fails_keep hr⟩
      · subst hready
        exact ⟨trivial, fails_keep rfl⟩
  | write buf =>
      simp only [Op.prog, tuntapWrite, if_neg hdev]
      exact (writePacket_asks buf).bind (fun _ hn => hn) fun _ hn => ⟨trivial, fails_keep hn⟩
  | writeTm buf timeoutMs =>
      simp only [Op.prog, tuntapWriteTm, if_neg hdev, Prog.bind_assoc]
      refine (wait_asks ..).bind (fun ready hready => ?_) fun ready hready => ?_
      · subst hready
        exact (writePacket_asks buf).bind (fun _ hn => hn) fun _ hn => ⟨trivial, fails_keep hn⟩
      · subst hready
        exact ⟨trivial, fails_keep rfl⟩
  | setNonblocking set => exact asks_keep (setNonblocking_asks set)
  | setDebug set => exact asks_keep (setDebug_asks set hdev h)
  | _ => exact hop.elim

end Operations

/-! ## What is turned down, and what is asked -/

/-- A message. -/
def Says : Call → Prop
  | .log .. => True
  | _ => False

/-- A call that may be refused. -/
def Demands : Call → Prop
  | .ioctl _ req _ => req ≠ .siocdifaddr
  | .ioctlVal .. | .ioctlStr .. | .ioctlGet .. | .socket _ | .read .. | .write ..
  | .select .. => True
  | _ => False

section Demands

variable {os : Os} {libc : Libc} {dev : Device}

theorem logs_and_fails {op : Op} {level : Level} {msg : String} {ret : Ret} (h : ret.Failed) :
    (tuntapLog level msg >>= fun _ => (.ret (keep dev ret) : Sys _)).AllCalls Says ∧
      (tuntapLog level msg >>= fun _ => (.ret (keep dev ret) : Sys _)).Answers (op.Fails dev) :=
  ⟨⟨trivial, fun _ => trivial⟩, fun _ => fails_keep h⟩

/-- What is turned down is not asked for. -/
theorem Op.fails_of_turnedDown (op : Op) (hdev : dev.tunFd ≠ -1) (h : op.TurnedDown os libc) :
    (op.prog os libc dev).AllCalls Says ∧ (op.prog os libc dev).Answers (op.Fails dev) := by
  cases op with
  | setDescr descr =>
      cases descr with
      | none => exact logs_and_fails rfl
      | some descr =>
          rcases h with rfl | rfl | rfl
          · exact logs_and_fails rfl
          · exact logs_and_fails rfl
          · exact logs_and_fails rfl
  | setIfname ifname =>
      cases ifname with
      | none => exact logs_and_fails rfl
      | some ifname =>
          simp only [Op.prog, tuntapSetIfname]
          by_cases hlen : ifname.strlen > ifNamesize
          · rw [if_pos hlen]
            exact logs_and_fails rfl
          · rw [if_neg hlen]
            rcases h with hlong | rfl | rfl | rfl
            · exact absurd hlong hlen
            · exact logs_and_fails rfl
            · exact logs_and_fails rfl
            · exact logs_and_fails rfl
  | setHwaddr hwaddr =>
      simp only [Op.prog, tuntapSetHwaddr, if_neg h.1, h.2]
      exact ⟨trivial, fails_keep rfl⟩
  | setIp addr netmask =>
      cases addr with
      | none =>
          simp only [Op.prog, tuntapSetIp, if_neg hdev]
          exact logs_and_fails rfl
      | some addr =>
          simp only [Op.prog, tuntapSetIp, if_neg hdev]
          by_cases hmask : netmask < 0 ∨ netmask > 128
          · rw [if_pos hmask]
            exact logs_and_fails rfl
          · rw [if_neg hmask]
            have hpton := (h.resolve_left fun hlow => hmask (Or.inl hlow)).resolve_left
              fun hhigh => hmask (Or.inr hhigh)
            rw [hpton.1]
            cases hpton6 : libc.inetPton6 addr with
            | none => exact logs_and_fails rfl
            | some baddr6 =>
                have hos : os ≠ .linux := by
                  rcases hpton.2 with hnone | hos
                  · rw [hpton6] at hnone
                    cases hnone
                  · exact hos
                cases os with
                | linux => exact absurd rfl hos
                | freeBsd | openBsd | netBsd | darwin => exact logs_and_fails rfl
  | setDebug set =>
      simp only [Op.prog, tuntapSetDebug, if_neg hdev]
      rw [if_pos (show os = .darwin from h)]
      exact logs_and_fails rfl
  | _ => exact h.elim

/-- A trace with such a call in it. -/
def Demanding (tr : List (Event Call Resp)) : Prop := ∃ e ∈ tr, Demands e.1

theorem demanding_call {α : Type} {c : Call} {f : Resp c → Sys α} (hc : Demands c) :
    ((Prog.call c : Sys (Resp c)) >>= f).Ensures fun tr _ => Demanding tr := by
  refine (Prog.ensures_call_bind _ _).mpr fun r => ?_
  exact (Prog.ensures_true _).mono fun tr _ _ => ⟨_, List.mem_cons_self .., hc⟩

theorem demanding_ioctl {α : Type} {fd : Int} {req : Request} {n : Nat} {b : Buf n}
    {f : Resp (.ioctl fd req b) → Sys α} (hreq : req ≠ .siocdifaddr) :
    ((Prog.call (.ioctl fd req b) : Sys _) >>= f).Ensures fun tr _ => Demanding tr :=
  demanding_call hreq

theorem demanding_first {α β : Type} {p : Sys α} {f : α → Sys β}
    (hp : p.Ensures fun tr _ => Demanding tr) : (p >>= f).Ensures fun tr _ => Demanding tr := by
  refine hp.bind fun tr a h => (Prog.ensures_true _).mono fun tr' _ _ => ?_
  obtain ⟨e, he, hdemands⟩ := h
  exact ⟨e, List.mem_append_left _ he, hdemands⟩

theorem demanding_after {α β : Type} {p : Sys α} {f : α → Sys β}
    (hf : ∀ a, (f a).Ensures fun tr _ => Demanding tr) :
    (p >>= f).Ensures fun tr _ => Demanding tr := by
  refine (Prog.ensures_true p).bind fun tr a _ => (hf a).mono fun tr' _ h => ?_
  obtain ⟨e, he, hdemands⟩ := h
  exact ⟨e, List.mem_append_right _ he, hdemands⟩

theorem hwaddrTo_demands (ethAddr : Buf 6) :
    (setHwaddrTo os dev ethAddr).Ensures fun tr _ => Demanding tr := by
  refine demanding_first ?_
  cases os with
  | linux | freeBsd | openBsd | netBsd | darwin => exact demanding_ioctl (by simp)

theorem sysSetIpv4_demands (s4 : Buf 4) (bits : BitVec 32) :
    (tuntapSysSetIpv4 os dev s4 bits).Ensures fun tr _ => Demanding tr := by
  cases os with
  | linux => exact demanding_ioctl (by simp)
  | freeBsd | openBsd | netBsd | darwin => exact demanding_after fun _ => demanding_ioctl (by simp)

theorem wait_demands {fd timeoutMs : Int} {reading : Bool} (h : ¬ timeoutMs < 0) :
    (waitReadyEventOrTimeout fd reading timeoutMs).Ensures fun tr _ => Demanding tr := by
  unfold waitReadyEventOrTimeout
  rw [if_neg h]
  exact demanding_call trivial

/-- What is not turned down is asked for. -/
theorem Op.demands (op : Op) (hop : op.Asking) (hdev : dev.tunFd ≠ -1)
    (h : ¬ op.TurnedDown os libc) :
    (op.prog os libc dev).Ensures fun tr _ => Demanding tr := by
  cases op with
  | setDescr descr =>
      cases descr with
      | none => exact absurd trivial h
      | some descr =>
          refine demanding_first ?_
          cases os with
          | linux => exact absurd (Or.inl rfl) h
          | netBsd => exact absurd (Or.inr (Or.inl rfl)) h
          | darwin => exact absurd (Or.inr (Or.inr rfl)) h
          | freeBsd | openBsd =>
              refine (Prog.ensures_ite _ _ _).mpr ⟨fun _ => ?_, fun _ => demanding_call trivial⟩
              exact demanding_after fun _ => demanding_call trivial
  | setIfname ifname =>
      cases ifname with
      | none => exact absurd trivial h
      | some ifname =>
          have hlen : ¬ ifname.strlen > ifNamesize := fun hlong => h (Or.inl hlong)
          simp only [Op.prog, tuntapSetIfname, if_neg hlen]
          refine demanding_first (demanding_first ?_)
          cases os with
          | linux => exact demanding_ioctl (by simp)
          | freeBsd => exact demanding_call trivial
          | openBsd => exact absurd (Or.inr (Or.inl rfl)) h
          | netBsd => exact absurd (Or.inr (Or.inr (Or.inl rfl))) h
          | darwin => exact absurd (Or.inr (Or.inr (Or.inr rfl))) h
  | setHwaddr hwaddr =>
      refine demanding_first ?_
      unfold tuntapSetHwaddr
      by_cases hr : hwaddr = CString.lit "random"
      · rw [if_pos hr]
        exact demanding_after fun ethAddr => hwaddrTo_demands ethAddr
      · rw [if_neg hr]
        cases haton : libc.etherAton hwaddr with
        | none => exact absurd ⟨hr, haton⟩ h
        | some ethAddr => exact hwaddrTo_demands ethAddr
  | up | down => exact demanding_ioctl (by simp)
  | setMtu mtu =>
      simp only [Op.prog, tuntapSetMtu, if_neg hdev]
      exact demanding_ioctl (by simp)
  | setIp addr netmask =>
      cases addr with
      | none => exact absurd trivial h
      | some addr =>
          refine demanding_first ?_
          have hmask : ¬ (netmask < 0 ∨ netmask > 128) :=
            fun hmask => h (hmask.imp_right Or.inl)
          simp only [tuntapSetIp, if_neg hdev, if_neg hmask]
          cases hpton4 : libc.inetPton4 addr with
          | some baddr4 => exact demanding_after fun mask => sysSetIpv4_demands baddr4 mask
          | none =>
              cases hpton6 : libc.inetPton6 addr with
              | none => exact absurd (Or.inr (Or.inr ⟨hpton4, Or.inl hpton6⟩)) h
              | some baddr6 =>
                  have hos : os = .linux := by
                    by_contra hne
                    exact h (Or.inr (Or.inr ⟨hpton4, Or.inr hne⟩))
                  rw [hos]
                  exact demanding_call trivial
  | read size | write size =>
      simp only [Op.prog, tuntapRead, tuntapWrite, if_neg hdev]
      exact demanding_call trivial
  | readTm size timeoutMs =>
      refine demanding_first ?_
      simp only [tuntapReadTm, if_neg hdev]
      by_cases hwaits : timeoutMs < 0
      · simp only [waitReadyEventOrTimeout, if_pos hwaits]
        exact demanding_call trivial
      · exact demanding_first (wait_demands hwaits)
  | writeTm buf timeoutMs =>
      refine demanding_first ?_
      simp only [tuntapWriteTm, if_neg hdev]
      by_cases hwaits : timeoutMs < 0
      · simp only [waitReadyEventOrTimeout, if_pos hwaits]
        exact demanding_call trivial
      · exact demanding_first (wait_demands hwaits)
  | setNonblocking set => exact demanding_ioctl (by simp)
  | setDebug set =>
      have hos : ¬ os = .darwin := h
      simp only [Op.prog, tuntapSetDebug, if_neg hdev, if_neg hos]
      exact demanding_ioctl (by simp)
  | _ => exact hop.elim

end Demands

/-- On every Unix system, an operation on a started device is turned down with
nothing asked, or is granted all it asked for, or stops at the first refusal; it
answers -1 in the first and the last case and only there, and then the record is
spared. -/
theorem Op.answers_minus_one_iff_refused (os : Os) (libc : Libc) {op : Op} {dev : Device}
    {tr : List (Event Call Resp)} {r : Ret × Option Device} (hop : op.Asking)
    (hdev : dev.tunFd ≠ -1) (hr : (op.prog os libc dev).Runs tr r)
    (hproper : ∀ e ∈ tr, Proper e) :
    op.TurnedDown os libc ∧ (∀ e ∈ tr, Says e.1) ∧ op.Fails dev r ∨
      ¬ op.TurnedDown os libc ∧ Demanding tr ∧
        ((∀ e ∈ tr, ¬ Refused e) ∧ ¬ r.1.Failed ∨
          Halted Refused (WindsUp (OpenedIn tr)) tr ∧ op.Fails dev r) := by
  by_cases h : op.TurnedDown os libc
  · obtain ⟨hcalls, hanswers⟩ := op.fails_of_turnedDown hdev h
    exact Or.inl ⟨h, hcalls.of_runs hr, hanswers.of_runs hr⟩
  · have hdemanding := (Prog.ensures_iff _).mp (op.demands hop hdev h) tr r hr
    exact Or.inr ⟨h, hdemanding, (op.asks hop hdev h).of_runs hr (counted_of_mem hproper)⟩

/-- fe80::1/64 on Linux. There is no `::` to remove, which does not count; the new
address is refused, and the socket that was opened for it is closed. -/
theorem setIp_stopped_at_address : ∃ tr r,
    ((Op.setIp (some (CString.lit "fe80::1")) 64).prog .linux Libc.knowing6 Device.tun0).Runs tr r ∧
      tr.length = 6 ∧ Halted Refused (WindsUp (OpenedIn tr)) tr ∧
        (Op.setIp (some (CString.lit "fe80::1")) 64).Fails Device.tun0 r := by
  have hmay : ((Op.setIp (some (CString.lit "fe80::1")) 64).prog .linux Libc.knowing6
      Device.tun0).May (Kernel.traced fun (_ : Unit) _ _ _ => True)
      (fun r t => r.1.Failed ∧ t.2.length = 6 ∧ ∀ e ∈ t.2, Proper e) ((), []) := by
    refine ⟨(5 : Int), ((), _), ⟨trivial, rfl⟩, ?_⟩
    refine ⟨⟨0, Buf.zero⟩, ((), _), ⟨trivial, rfl⟩, ?_⟩
    refine ⟨⟨-1, .other⟩, ((), _), ⟨trivial, rfl⟩, ?_⟩
    refine ⟨⟨-1, .other⟩, ((), _), ⟨trivial, rfl⟩, ?_⟩
    refine ⟨(), ((), _), ⟨trivial, rfl⟩, ?_⟩
    refine ⟨(0 : Int), ((), _), ⟨trivial, rfl⟩, rfl, rfl, ?_⟩
    simp [Proper]
  obtain ⟨tr, r, t, hr, hs, hfailed, hlen, hproper⟩ := (Prog.may_iff _).mp hmay
  obtain ⟨-, htr⟩ := (Kernel.steps_traced_iff []).mp hs
  rw [htr, List.nil_append] at hlen hproper
  refine ⟨tr, r, hr, hlen, ?_⟩
  have hop : (Op.setIp (some (CString.lit "fe80::1")) 64).Asking := trivial
  rcases Op.answers_minus_one_iff_refused .linux Libc.knowing6 hop (by decide) hr hproper with
    ⟨hdown, -⟩ | ⟨-, -, hgranted | hstopped⟩
  · simp [Op.TurnedDown, Libc.knowing6] at hdown
  · exact absurd hfailed hgranted.2
  · exact hstopped

end Libtuntap
