import Libtuntap.Effect.Handle
import Libtuntap.Proofs.Record

/-!
# Who owns a descriptor

The Linux library keeps two descriptors in a device, `tun_fd` and `ctrl_sock`,
and passes them to the kernel by number. Between calls the kernel may give any
closed number to anybody, so what has to be shown is that a number is passed
only while the device owns it.

A started device owns both. A device that is not started owns neither, and
here the two fields differ. `tun_fd` is -1 whenever the device is not started,
and every function that passes it then passes -1. `ctrl_sock` is set as soon as
`socket` succeeds, and the failed start that closes the socket leaves its
number in the record. The functions that pass `ctrl_sock` without looking at
`tun_fd` are `tuntap_up`, `tuntap_down`, `tuntap_set_ifname`,
`tuntap_set_hwaddr` and the two that free the device; after a failed start each
of them hands a closed number to the kernel, or whoever's it has become.
`Op.UsesCtrlSock` says when they get that far.

With those calls left out the discipline of `Effect.World` holds, for any
number of devices and any interleaving, down to single system calls.
-/

namespace Libtuntap

open Effect CMem

/-- The descriptor a call is passed. -/
def Call.fd : Call → Option Int
  | .close fd | .ioctl fd _ _ | .ioctlVal fd _ _ | .ioctlGet fd _ _ | .ioctlStr fd _ _ _ _
  | .ioctlGetStr fd _ _ _ | .read fd _ | .write fd _ | .select _ fd _ _ _ => some fd
  | _ => none

/-- Descriptors as handles: negative numbers are none. -/
def descriptors : HandleSig Call Resp Int where
  uses c n := 0 ≤ n ∧ c.fd = some n
  gives
    | .socket _, r => if 0 ≤ r then some r else none
    | .open _, r => if 0 ≤ r then some r else none
    | _, _ => none
  drops
    | .close fd => if 0 ≤ fd then some fd else none
    | _ => none

theorem descriptors_uses_of_drops (c : Call) (n : Int) (h : descriptors.drops c = some n) :
    descriptors.uses c n := by
  cases c with
  | close fd =>
      simp only [descriptors, Option.ite_none_right_eq_some, Option.some.injEq] at h ⊢
      obtain ⟨hfd, rfl⟩ := h
      exact ⟨hfd, rfl⟩
  | _ => cases h

/-! ## Calls that open and close nothing -/

/-- A field that holds no descriptor, or one of `keep`. -/
def Held (keep : Int → Prop) (fd : Int) : Prop := 0 ≤ fd → keep fd

/-- A call that opens and closes nothing, on descriptors of `keep`. -/
def Quiet (keep : Int → Prop) (c : Call) : Prop :=
  (∀ n, descriptors.uses c n → keep n) ∧ (∀ r, descriptors.gives c r = none) ∧
    descriptors.drops c = none

section Quiet

variable {keep : Int → Prop}

theorem quiet_of_fd_none {c : Call} (hfd : c.fd = none) (hg : ∀ r, descriptors.gives c r = none)
    (hd : descriptors.drops c = none) : Quiet keep c := by
  refine ⟨fun n hn => ?_, hg, hd⟩
  rw [hn.2] at hfd
  cases hfd

theorem quiet_iff_of_fd {c : Call} {fd : Int} (hfd : c.fd = some fd)
    (hg : ∀ r, descriptors.gives c r = none) (hd : descriptors.drops c = none) :
    Quiet keep c ↔ Held keep fd := by
  constructor
  · intro h h0
    exact h.1 fd ⟨h0, hfd⟩
  · intro h
    refine ⟨fun n hn => ?_, hg, hd⟩
    obtain rfl := Option.some.inj (hfd.symm.trans hn.2)
    exact h hn.1

@[simp] theorem quiet_log (level : Level) (msg : CString) : Quiet keep (.log level msg) :=
  quiet_of_fd_none rfl (fun _ => rfl) rfl

@[simp] theorem quiet_malloc : Quiet keep .malloc :=
  quiet_of_fd_none rfl (fun _ => rfl) rfl

@[simp] theorem quiet_free : Quiet keep .free := quiet_of_fd_none rfl (fun _ => rfl) rfl

@[simp] theorem quiet_time : Quiet keep .time := quiet_of_fd_none rfl (fun _ => rfl) rfl

@[simp] theorem quiet_srandom (seed : BitVec 32) : Quiet keep (.srandom seed) :=
  quiet_of_fd_none rfl (fun _ => rfl) rfl

@[simp] theorem quiet_random : Quiet keep .random := quiet_of_fd_none rfl (fun _ => rfl) rfl

@[simp] theorem quiet_uninit (n : Nat) : Quiet keep (.uninit n) :=
  quiet_of_fd_none rfl (fun _ => rfl) rfl

@[simp] theorem quiet_overshift (x : BitVec 32) (count : Int) :
    Quiet keep (.overshift x count) := quiet_of_fd_none rfl (fun _ => rfl) rfl

@[simp] theorem quiet_ioctl {n : Nat} (fd : Int) (req : Request) (arg : Buf n) :
    Quiet keep (.ioctl fd req arg) ↔ Held keep fd :=
  quiet_iff_of_fd rfl (fun _ => rfl) rfl

@[simp] theorem quiet_ioctlVal (fd : Int) (req : Request) (val : BitVec 32) :
    Quiet keep (.ioctlVal fd req val) ↔ Held keep fd :=
  quiet_iff_of_fd rfl (fun _ => rfl) rfl

@[simp] theorem quiet_ioctlGet {n : Nat} (fd : Int) (req : Request) (arg : Buf n) :
    Quiet keep (.ioctlGet fd req arg) ↔ Held keep fd :=
  quiet_iff_of_fd rfl (fun _ => rfl) rfl

@[simp] theorem quiet_read (fd : Int) (size : Nat) :
    Quiet keep (.read fd size) ↔ Held keep fd :=
  quiet_iff_of_fd rfl (fun _ => rfl) rfl

@[simp] theorem quiet_write (fd : Int) (buf : List UInt8) :
    Quiet keep (.write fd buf) ↔ Held keep fd :=
  quiet_iff_of_fd rfl (fun _ => rfl) rfl

@[simp] theorem quiet_select (nfds fd : Int) (reading : Bool) (sec usec : Int) :
    Quiet keep (.select nfds fd reading sec usec) ↔ Held keep fd :=
  quiet_iff_of_fd rfl (fun _ => rfl) rfl

theorem randomHwaddr_quiet : randomHwaddr.AllCalls (Quiet keep) :=
  randomHwaddr_allCalls (quiet_uninit 6) quiet_time quiet_srandom quiet_random

end Quiet

/-! ## The operations that keep the descriptors they have -/

/-- On Linux, the calls that get as far as passing `ctrl_sock` without a look
at `tun_fd`. -/
def Op.UsesCtrlSock (libc : Libc) : Op → Prop
  | .release | .destroy | .up | .down => True
  | .setIfname (some ifname) => ifname.strlen ≤ ifNamesize
  | .setHwaddr hwaddr => hwaddr = CString.lit "random" ∨ (libc.etherAton hwaddr).isSome
  | _ => False

/-- The calls that may open or close a descriptor. -/
def Op.Deals : Op → Prop
  | .start .. | .release | .destroy | .setIp .. => True
  | _ => False

section Quiet

variable {keep : Int → Prop} {libc : Libc} {dev : Device}

theorem setFlags_quiet {os : Os} {change : BitVec 16 → BitVec 16}
    (hctrl : Held keep dev.ctrlSock) :
    (setFlags os dev change).AllCalls (Quiet keep) := by
  simpa [setFlags] using hctrl

theorem tuntapSetIfname_quiet {ifname : Option CString}
    (hctrl : (Op.setIfname ifname).UsesCtrlSock libc → Held keep dev.ctrlSock) :
    (tuntapSetIfname .linux dev ifname).AllCalls (Quiet keep) := by
  cases ifname with
  | none => simp [tuntapSetIfname]
  | some ifname =>
      simp only [tuntapSetIfname, tuntapSysSetIfname, Linux.tuntapSysSetIfname]
      simpa [Op.UsesCtrlSock] using hctrl

theorem setHwaddrTo_quiet (ethAddr : Buf 6) (hctrl : Held keep dev.ctrlSock) :
    (setHwaddrTo .linux dev ethAddr).AllCalls (Quiet keep) := by
  simpa [setHwaddrTo, tuntapSysSetHwaddr, Linux.tuntapSysSetHwaddr] using hctrl

theorem tuntapSetHwaddr_quiet {hwaddr : CString}
    (hctrl : (Op.setHwaddr hwaddr).UsesCtrlSock libc → Held keep dev.ctrlSock) :
    (tuntapSetHwaddr .linux libc dev hwaddr).AllCalls (Quiet keep) := by
  unfold tuntapSetHwaddr
  by_cases hr : hwaddr = CString.lit "random"
  · rw [if_pos hr]
    exact randomHwaddr_quiet.bind fun ethAddr => setHwaddrTo_quiet ethAddr (hctrl (Or.inl hr))
  · rw [if_neg hr]
    cases haton : libc.etherAton hwaddr with
    | none => trivial
    | some ethAddr => exact setHwaddrTo_quiet ethAddr (hctrl (Or.inr (by simp [haton])))

/-- Every call but the four that deal in descriptors is quiet: it passes
`tun_fd`, and `ctrl_sock` where the device is started or the call does not
look. -/
theorem Op.prog_quiet (op : Op) (hop : ¬ op.Deals) (htun : Held keep dev.tunFd)
    (hctrl : dev.tunFd ≠ -1 ∨ op.UsesCtrlSock libc → Held keep dev.ctrlSock) :
    (op.prog .linux libc dev).AllCalls (Quiet keep) := by
  have hstarted : ¬ dev.tunFd = -1 → Held keep dev.ctrlSock :=
    fun h => hctrl (Or.inl h)
  cases op with
  | start | release | destroy | setIp => exact absurd trivial hop
  | setIfname ifname =>
      exact (tuntapSetIfname_quiet fun h => hctrl (Or.inr h)).bind fun _ => trivial
  | setHwaddr hwaddr =>
      exact (tuntapSetHwaddr_quiet fun h => hctrl (Or.inr h)).bind fun _ => trivial
  | up | down => exact (setFlags_quiet (hctrl (Or.inr trivial))).bind fun _ => trivial
  | setDescr descr => cases descr <;> simp [Op.prog, tuntapSetDescr, tuntapSysSetDescr,
      Linux.tuntapSysSetDescr]
  | getDescr => simp [Op.prog, tuntapGetDescr, tuntapSysGetDescr, Linux.tuntapSysGetDescr]
  | getIfname | getHwaddr | getFd => trivial
  | getMtu => simpa [Op.prog, tuntapGetMtu] using hstarted
  | setMtu mtu => simpa [Op.prog, tuntapSetMtu] using hstarted
  | read size => simpa [Op.prog, tuntapRead, readPacket] using fun _ => htun
  | readTm size timeoutMs =>
      simp only [Op.prog, tuntapReadTm, readPacket, waitReadyEventOrTimeout]
      simpa using fun _ => ⟨fun _ => htun, fun _ => ⟨htun, fun _ _ _ => htun⟩⟩
  | write buf => simpa [Op.prog, tuntapWrite, writePacket] using fun _ => htun
  | writeTm buf timeoutMs =>
      simp only [Op.prog, tuntapWriteTm, writePacket, waitReadyEventOrTimeout]
      simpa using fun _ => ⟨fun _ => htun, fun _ => ⟨htun, fun _ _ _ => htun⟩⟩
  | getReadable =>
      simp only [Op.prog, tuntapGetReadable, tuntapGetMtu]
      simpa using ⟨htun, fun _ _ => hstarted⟩
  | setNonblocking set => simpa [Op.prog, tuntapSetNonblocking] using htun
  | setDebug set => simpa [Op.prog, tuntapSetDebug] using fun _ => htun

end Quiet

/-! ## The four that deal in descriptors -/

/-- What is owned after a call handed out `fd`. -/
def gain (own : Int → Prop) (fd n : Int) : Prop := (0 ≤ fd ∧ n = fd) ∨ own n

/-- What is owned after `fd` was closed. -/
def lose (own : Int → Prop) (fd n : Int) : Prop := own n ∧ ¬ (0 ≤ fd ∧ n = fd)

section Safe

variable {α : Type} {Q : α → (Int → Prop) → Prop} {own : Int → Prop}

theorem safe_of_quiet {c : Call} {f : Resp c → Sys α} (hc : Quiet own c)
    (hf : ∀ r, (f r).Safe descriptors Q own) :
    ((Prog.call c : Sys (Resp c)) >>= f).Safe descriptors Q own := by
  refine ⟨hc.1, fun r _ => ?_⟩
  rw [HandleSig.next_eq (hc.2.1 r) hc.2.2]
  exact hf r

theorem safe_of_allQuiet {p : Sys α} (hp : p.AllCalls (Quiet own))
    (hQ : p.Answers fun a => Q a own) : p.Safe descriptors Q own :=
  hp.safe (fun _ h => h) hQ

theorem safe_socket {domain : Domain} {f : Int → Sys α}
    (hf : ∀ fd, (0 ≤ fd → ¬ own fd) → (f fd).Safe descriptors Q (gain own fd)) :
    (socket domain >>= f).Safe descriptors Q own := by
  refine ⟨fun n hn => (by cases hn.2), fun fd hfresh => ?_⟩
  have hnext : descriptors.next own (.socket domain) fd = gain own fd := by
    funext n
    simp [HandleSig.next, descriptors, gain, eq_comm]
  rw [hnext]
  exact hf fd fun h0 => hfresh fd (if_pos h0)

theorem safe_open {path : CString} {f : Int → Sys α}
    (hf : ∀ fd, (0 ≤ fd → ¬ own fd) → (f fd).Safe descriptors Q (gain own fd)) :
    (openRdwr path >>= f).Safe descriptors Q own := by
  refine ⟨fun n hn => (by cases hn.2), fun fd hfresh => ?_⟩
  have hnext : descriptors.next own (.open path) fd = gain own fd := by
    funext n
    simp [HandleSig.next, descriptors, gain, eq_comm]
  rw [hnext]
  exact hf fd fun h0 => hfresh fd (if_pos h0)

theorem safe_close {fd : Int} {f : Int → Sys α} (hfd : 0 ≤ fd → own fd)
    (hf : ∀ r, (f r).Safe descriptors Q (lose own fd)) :
    (close fd >>= f).Safe descriptors Q own := by
  refine ⟨?_, fun r _ => ?_⟩
  · intro n hn
    obtain rfl := Option.some.inj hn.2
    exact hfd hn.1
  · have hnext : descriptors.next own (.close fd) r = lose own fd := by
      funext n
      simp [HandleSig.next, descriptors, lose, eq_comm]
    rw [hnext]
    exact hf r

end Safe

/-- What a device owns between calls: both its descriptors, once it is
started. -/
def Device.Owns (dev : Device) (own : Int → Prop) : Prop :=
  dev.tunFd ≠ -1 →
    Held own dev.tunFd ∧ Held (fun n => own n ∧ n ≠ dev.tunFd) dev.ctrlSock

section Deals

variable {own : Int → Prop} {dev : Device}

/-- What `tuntap_sys_start` leaves: everything owned before, the control
socket untouched, and a fresh descriptor when it answers one. -/
def StartSafe (dev : Device) (own : Int → Prop) (r : Int × Device) (own' : Int → Prop) : Prop :=
  r.2.tunFd = dev.tunFd ∧ r.2.ctrlSock = dev.ctrlSock ∧ (∀ n, own n → own' n) ∧
    (r.1 ≠ -1 → Held (fun n => own' n ∧ ¬ own n) r.1)

theorem tuntapSysStart_safe (mode : Mode) (tun : Int) (hctrl : Held own dev.ctrlSock) :
    (Linux.tuntapSysStart dev mode tun).Safe descriptors (StartSafe dev own) own := by
  have hfail : StartSafe dev own (-1, dev) own :=
    ⟨rfl, rfl, fun _ h => h, fun h => absurd rfl h⟩
  dsimp only [Linux.tuntapSysStart]
  refine (Prog.safe_ite _ _ _ _).mpr
    ⟨fun _ => safe_of_quiet (quiet_log ..) fun _ => hfail, fun _ => ?_⟩
  refine (Prog.safe_ite _ _ _ _).mpr
    ⟨fun _ => safe_of_quiet (quiet_log ..) fun _ => hfail, fun _ => ?_⟩
  refine safe_open fun fd hfresh => safe_of_allQuiet ?_ ?_
  · have hfd : Held (gain own fd) fd := fun h0 => Or.inl ⟨h0, rfl⟩
    have hsock : Held (gain own fd) dev.ctrlSock := fun h0 => Or.inr (hctrl h0)
    simp [Linux.setPersistent, hfd, hsock]
  · refine Prog.Answers.mono (Q := fun r => r.2.tunFd = dev.tunFd ∧
        r.2.ctrlSock = dev.ctrlSock ∧ (r.1 = -1 ∨ r.1 = fd)) ?_ ?_
    · intro r hr
      obtain ⟨htun, hsock, hr⟩ := hr
      refine ⟨htun, hsock, fun _ h => Or.inr h, fun hne h0 => ?_⟩
      obtain rfl := hr.resolve_left hne
      exact ⟨Or.inl ⟨h0, rfl⟩, hfresh h0⟩
    · simp [Linux.setPersistent]

theorem startClean_safe {sock : Int} (hsock : Held own sock) (hdev : dev.tunFd = -1) :
    (startClean (-1) sock dev).Safe descriptors (fun r own' => r.2.Owns own') own := by
  have hfail : ∀ own', Device.Owns dev own' := fun own' h => absurd hdev h
  simp only [startClean, ne_eq, not_true_eq_false, if_false]
  by_cases h : sock = -1
  · simp only [h, not_true_eq_false, if_false]
    exact hfail own
  · simp only [h, not_false_eq_true, if_true]
    exact safe_close hsock fun _ => hfail _

/-- A start leaves a device that owns what it keeps. The socket of an attempt
that failed is owned up to its `close`. -/
theorem tuntapStart_safe (mode : Mode) (tun : Int) (hown : dev.Owns own) :
    (tuntapStart .linux dev mode tun).Safe descriptors (fun r own' => r.2.Owns own') own := by
  unfold tuntapStart
  by_cases hdev : dev.tunFd = -1
  · rw [if_neg (not_not.mpr hdev)]
    refine safe_socket fun sock hfresh => ?_
    have hsock : Held (gain own sock) sock := fun h0 => Or.inl ⟨h0, rfl⟩
    split
    · exact startClean_safe hsock hdev
    · split
      · exact startClean_safe hsock hdev
      · refine (tuntapSysStart_safe mode tun hsock).bind fun r own' hr => ?_
        obtain ⟨fd, dev'⟩ := r
        obtain ⟨htun, hctrl, hkeep, hfd⟩ := hr
        dsimp only at htun hctrl hfd ⊢
        have hsock' : Held own' sock := fun h0 => hkeep _ (hsock h0)
        by_cases hne : fd = -1
        · rw [hne, if_pos rfl]
          exact startClean_safe hsock' (htun.trans hdev)
        · rw [if_neg hne]
          intro _
          refine ⟨fun h0 => (hfd hne h0).1, fun h0 => ?_⟩
          obtain rfl : dev'.ctrlSock = sock := hctrl
          refine ⟨hsock' h0, fun heq : dev'.ctrlSock = fd => ?_⟩
          exact (hfd hne (heq ▸ h0)).2 (heq ▸ hsock h0)
  · rw [if_pos hdev]
    exact safe_of_quiet (quiet_log ..) fun _ => hown

/-- Freeing a device closes what it owns. -/
theorem tuntapRelease_safe (hown : dev.Owns own)
    (hctrl : dev.tunFd = -1 → Held own dev.ctrlSock) :
    (tuntapRelease dev).Safe descriptors (fun _ _ => True) own := by
  unfold tuntapRelease
  by_cases hdev : dev.tunFd = -1
  · rw [if_neg (not_not.mpr hdev)]
    exact safe_close (hctrl hdev) fun _ => safe_of_quiet quiet_free fun _ => trivial
  · rw [if_pos hdev]
    obtain ⟨htun, hsock⟩ := hown hdev
    refine safe_close htun fun _ => safe_close ?_ fun _ => safe_of_quiet quiet_free fun _ => trivial
    intro h0
    obtain ⟨hs, hne⟩ := hsock h0
    exact ⟨hs, fun h => hne h.2⟩

theorem tuntapSysDestroy_quiet (hown : dev.Owns own) :
    (tuntapSysDestroy .linux dev).AllCalls (Quiet own) := by
  by_cases hdev : dev.tunFd = -1
  · simp [tuntapSysDestroy, Linux.tuntapSysDestroy, hdev, Held]
  · simp [tuntapSysDestroy, Linux.tuntapSysDestroy, (hown hdev).1]

theorem tuntapSysDestroy_keeps : (tuntapSysDestroy .linux dev).Answers (· = dev) := by
  simp [tuntapSysDestroy, Linux.tuntapSysDestroy]

theorem tuntapDestroy_safe (hown : dev.Owns own)
    (hctrl : dev.tunFd = -1 → Held own dev.ctrlSock) :
    (tuntapDestroy .linux dev).Safe descriptors (fun _ _ => True) own := by
  unfold tuntapDestroy
  refine (safe_of_allQuiet (Q := fun d own' => d = dev ∧ own' = own)
    (tuntapSysDestroy_quiet hown) ?_).bind ?_
  · exact tuntapSysDestroy_keeps.mono fun _ h => ⟨h, rfl⟩
  · intro d own' h
    obtain ⟨rfl, rfl⟩ := h
    exact tuntapRelease_safe hown hctrl

theorem Device.Owns.mono {own' : Int → Prop} (h : dev.Owns own)
    (hkeep : ∀ n, own n → own' n) : dev.Owns own' := by
  intro hdev
  obtain ⟨htun, hctrl⟩ := h hdev
  exact ⟨fun h0 => hkeep _ (htun h0), fun h0 => ⟨hkeep _ (hctrl h0).1, (hctrl h0).2⟩⟩

theorem tuntapSysSetIpv6_safe {s6 : Buf 16} {bits : BitVec 32} (hown : dev.Owns own)
    (hctrl : Held own dev.ctrlSock) :
    (Linux.tuntapSysSetIpv6 dev s6 bits).Safe descriptors (fun _ own' => dev.Owns own')
      own := by
  unfold Linux.tuntapSysSetIpv6
  refine safe_socket fun fd hfresh => ?_
  have hfd : Held (gain own fd) fd := fun h0 => Or.inl ⟨h0, rfl⟩
  have hctrl' : Held (gain own fd) dev.ctrlSock := fun h0 => Or.inr (hctrl h0)
  -- the socket opened here is the one closed, so the device's own are left
  have hclosed : dev.Owns (lose (gain own fd) fd) :=
    hown.mono fun n hn => ⟨Or.inr hn, fun h => hfresh h.1 (h.2 ▸ hn)⟩
  split
  · exact safe_of_quiet (quiet_log ..) fun _ => hown.mono fun _ h => Or.inr h
  · refine safe_of_quiet ((quiet_ioctlGet ..).mpr hctrl') fun r => ?_
    split
    · exact safe_of_quiet (quiet_log ..) fun _ => safe_close hfd fun _ => hclosed
    · refine safe_of_quiet ((quiet_ioctl ..).mpr hfd) fun _ => ?_
      refine safe_of_quiet ((quiet_ioctl ..).mpr hfd) fun r => ?_
      split
      · exact safe_of_quiet (quiet_log ..) fun _ => safe_close hfd fun _ => hclosed
      · exact safe_close hfd fun _ => hclosed

theorem netmaskWord_quiet {keep : Int → Prop} (netmask : Int) :
    (netmaskWord netmask).AllCalls (Quiet keep) := by
  simp only [netmaskWord, shiftRight]
  simp

theorem tuntapSetIp_safe (libc : Libc) (addr : Option CString) (netmask : Int)
    (hown : dev.Owns own) :
    (tuntapSetIp .linux libc dev addr netmask).Safe descriptors (fun _ own' => dev.Owns own')
      own := by
  unfold tuntapSetIp
  split
  · exact safe_of_quiet (quiet_log ..) fun _ => hown
  next hdev =>
    have hctrl : Held own dev.ctrlSock := fun h0 => ((hown hdev).2 h0).1
    cases addr with
    | none => exact safe_of_quiet (quiet_log ..) fun _ => hown
    | some addr =>
        dsimp only
        split
        · exact safe_of_quiet (quiet_log ..) fun _ => hown
        · cases libc.inetPton4 addr with
          | some baddr4 =>
              refine safe_of_allQuiet ((netmaskWord_quiet netmask).bind fun mask => ?_) ?_
              · simp [tuntapSysSetIpv4, Linux.tuntapSysSetIpv4, hctrl]
              · exact Prog.answers_of_forall (fun _ => hown) _
          | none =>
              cases libc.inetPton6 addr with
              | some baddr6 => exact tuntapSysSetIpv6_safe hown hctrl
              | none => exact safe_of_quiet (quiet_log ..) fun _ => hown

end Deals

/-! ## Runs of the library -/

/-- A device as a client of the kernel. -/
def linuxClient (libc : Libc) : Client Call Resp Device Op where
  boot := tuntapInit
  op op dev := do
    let r ← op.prog .linux libc dev
    return r.2

/-- A call that looks at `ctrl_sock` is made on a started device, or while the
record holds no socket number. -/
def Op.Allowed (libc : Libc) (op : Op) (dev : Device) : Prop :=
  dev.tunFd = -1 → 0 ≤ dev.ctrlSock → ¬ op.UsesCtrlSock libc

section Discipline

variable {libc : Libc} {dev : Device} {own : Int → Prop}

/-- A record that comes with its descriptors unchanged owns what it owned. -/
theorem Device.Owns.of_comes {fields : List Field} {r : Ret × Option Device}
    (hown : dev.Owns own) (hr : Comes fields dev r) : ∀ d, r.2 = some d → d.Owns own := by
  intro d hd
  obtain ⟨d', hd', hframe⟩ := hr
  obtain rfl := Option.some.inj (hd.symm.trans hd')
  unfold Device.Owns
  rw [hframe.tunFd, hframe.ctrlSock]
  exact hown

/-- What deals in no descriptor neither starts nor ends a device. -/
theorem Op.deals_of_startsOrEnds {op : Op} (h : op.StartsOrEnds) : op.Deals := by
  cases op with
  | start | release | destroy => trivial
  | _ => exact h.elim

theorem Op.prog_safe (op : Op) (hown : dev.Owns own) (hop : op.Allowed libc dev) :
    (op.prog .linux libc dev).Safe descriptors
      (fun r own' => ∀ d, r.2 = some d → d.Owns own') own := by
  have hctrl : op.UsesCtrlSock libc → dev.tunFd = -1 → Held own dev.ctrlSock :=
    fun hu hdev h0 => absurd hu (hop hdev h0)
  by_cases hdeals : op.Deals
  · cases op with
    | start mode tun =>
        refine (tuntapStart_safe mode tun hown).bind fun r own' hr d hd => ?_
        obtain rfl := Option.some.inj hd
        exact hr
    | release =>
        refine (tuntapRelease_safe hown (hctrl trivial)).bind fun _ _ _ d hd => ?_
        cases hd
    | destroy =>
        refine (tuntapDestroy_safe hown (hctrl trivial)).bind fun _ _ _ d hd => ?_
        cases hd
    | setIp addr netmask =>
        refine (tuntapSetIp_safe libc addr netmask hown).bind fun _ own' hr d hd => ?_
        obtain rfl := Option.some.inj hd
        exact hr
    | _ => exact hdeals.elim
  · refine safe_of_allQuiet (op.prog_quiet hdeals ?_ ?_) ?_
    · intro h0
      exact (hown (by omega)).1 h0
    · intro h h0
      by_cases hdev : dev.tunFd = -1
      · exact hctrl (h.resolve_left fun hne => hne hdev) hdev h0
      · exact ((hown hdev).2 h0).1
    · exact (op.record fun h => hdeals (op.deals_of_startsOrEnds h)).mono
        fun _ hr => hown.of_comes hr

/-- Passing a descriptor that is not owned is not safe. -/
theorem not_safe_of_uses {α : Type} {Q : α → (Int → Prop) → Prop} {c : Call}
    {f : Resp c → Sys α} {n : Int} (hc : descriptors.uses c n) (hn : ¬ own n) :
    ¬ ((Prog.call c : Sys (Resp c)) >>= f).Safe descriptors Q own :=
  fun h => hn (h.1 n hc)

theorem Op.not_safe {Q : Ret × Option Device → (Int → Prop) → Prop} (op : Op)
    (hdev : dev.tunFd = -1) (h0 : 0 ≤ dev.ctrlSock) (hn : ¬ own dev.ctrlSock)
    (hu : op.UsesCtrlSock libc) : ¬ (op.prog .linux libc dev).Safe descriptors Q own := by
  have hpass : ∀ {n : Nat} {req : Request} {arg : Buf n},
      descriptors.uses (.ioctl dev.ctrlSock req arg) dev.ctrlSock := ⟨h0, rfl⟩
  cases op with
  | release =>
      simp only [Op.prog, tuntapRelease, if_neg (not_not.mpr hdev), Prog.bind_assoc]
      exact not_safe_of_uses ⟨h0, rfl⟩ hn
  | destroy =>
      simp only [Op.prog, tuntapDestroy, Prog.bind_assoc]
      intro h
      have hown : dev.Owns own := fun h => absurd hdev h
      obtain ⟨d, hd, hrel⟩ := h.after ((tuntapSysDestroy_quiet hown).mono fun _ hc => hc.2)
        tuntapSysDestroy_keeps
      rw [hd] at hrel
      simp only [tuntapRelease, if_neg (not_not.mpr hdev), Prog.bind_assoc] at hrel
      exact not_safe_of_uses ⟨h0, rfl⟩ hn hrel
  | up | down => exact not_safe_of_uses hpass hn
  | setIfname ifname =>
      cases ifname with
      | none => exact hu.elim
      | some ifname =>
          simp only [Op.prog, tuntapSetIfname, if_neg (Nat.not_lt.mpr hu)]
          exact not_safe_of_uses hpass hn
  | setHwaddr hwaddr =>
      simp only [Op.prog, tuntapSetHwaddr]
      by_cases hr : hwaddr = CString.lit "random"
      · simp only [if_pos hr, Prog.bind_assoc]
        intro h
        have hquiet : randomHwaddr.AllCalls (Quiet own) := randomHwaddr_quiet
        obtain ⟨ethAddr, -, h⟩ := h.after (hquiet.mono fun _ hc => hc.2)
          (Prog.answers_of_forall (fun _ => trivial) _)
        exact not_safe_of_uses hpass hn h
      · obtain ⟨ethAddr, haton⟩ := Option.isSome_iff_exists.mp (hu.resolve_left hr)
        simp only [if_neg hr, haton]
        exact not_safe_of_uses hpass hn
  | _ => exact hu.elim

/-- An operation is safe exactly where it is allowed, on a device that owns its
descriptors while it is started and owns no socket while it is not. -/
theorem Op.safe_iff_allowed (op : Op) (hown : dev.Owns own)
    (hstale : dev.tunFd = -1 → ¬ own dev.ctrlSock) :
    (op.prog .linux libc dev).Safe descriptors
      (fun r own' => ∀ d, r.2 = some d → d.Owns own') own ↔ op.Allowed libc dev := by
  constructor
  · intro hsafe hdev h0 hu
    exact op.not_safe hdev h0 (hstale hdev) hu hsafe
  · exact op.prog_safe hown

end Discipline

/-- The library keeps to the discipline on every call that is allowed. -/
theorem linux_discipline (libc : Libc) :
    World.Discipline descriptors (linuxClient libc) Device.Owns (Op.Allowed libc) where
  boot own := by
    refine safe_of_quiet quiet_malloc fun found => ?_
    cases found with
    | false =>
        intro d hd
        cases hd
    | true =>
        intro d hd
        obtain rfl := Option.some.inj hd
        intro h
        exact absurd rfl h
  op op dev own hown hop :=
    (op.prog_safe hown hop).bind fun _ _ hr d hd => hr d hd

/-- A step that passes a descriptor passes one its own device opened and has
not closed. -/
def OwnsWhatItPasses {ι : Type}
    (x : World ι Call Resp Int Device × Label ι Call Resp Int Op × World ι Call Resp Int Device) :
    Prop :=
  ∀ i e, x.2.1 = .event i e → ∀ n, 0 ≤ n → e.1.fd = some n → x.1.table n = some (.client i)

/-- In every run of any number of devices, with the host and the kernel free to
do what they like, each descriptor the library passes is the device's own and
open. -/
theorem descriptors_owned_in_runs {ι : Type} [DecidableEq ι] (libc : Libc)
    {w w' : World ι Call Resp Int Device}
    {tr : List (World ι Call Resp Int Device × Label ι Call Resp Int Op ×
      World ι Call Resp Int Device)}
    (hr : Run (World.Step descriptors (linuxClient libc)) w tr w')
    (h0 : ∀ i, w.slot i = .fresh)
    (hallowed : ∀ x ∈ tr, ∀ i op dev,
      x.2.1 = .begin i op → x.1.slot i = .idle dev → op.Allowed libc dev) :
    ∀ x ∈ tr, OwnsWhatItPasses x := by
  have hdisc : World.Disciplined descriptors Device.Owns w := by
    intro i
    rw [h0 i]
    trivial
  have hsafe := World.safe_run (linux_discipline libc) descriptors_uses_of_drops hr hdisc
    hallowed
  intro x hx i e hl n hn hfd
  exact hsafe x hx i e hl n ⟨hn, hfd⟩

/-- A device is started as a tunnel and brought up. -/
theorem descriptors_owned_in_started_run :
    ∃ tr w', Run (World.Step (ι := Unit) descriptors (linuxClient Libc.refusing))
        ⟨fun _ => none, fun _ => .fresh⟩ tr w' ∧
      tr.length = 11 ∧ ∀ x ∈ tr, OwnsWhatItPasses x := by
  obtain ⟨tr, w', hr, hlen, hallowed⟩ :
      ∃ tr w', Run (World.Step (ι := Unit) descriptors (linuxClient Libc.refusing))
          ⟨fun _ => none, fun _ => .fresh⟩ tr w' ∧
        tr.length = 11 ∧ ∀ x ∈ tr, ∀ i op dev, x.2.1 = .begin i op →
          x.1.slot i = .idle dev → op.Allowed Libc.refusing dev := by
    refine ⟨_, _,
      .cons (.create (i := ()) rfl) <|
      .cons (.event (i := ()) (r := true) rfl (by intro n hn; cases hn)) <|
      .cons (.finish (i := ()) rfl) <|
      .cons (.begin (i := ()) (o := .start 2 0) rfl) <|
      .cons (.event (i := ()) (r := (3 : Int)) rfl fun _ _ => rfl) <|
      .cons (.event (i := ()) (r := (4 : Int)) rfl (by intro n hn; cases hn; rfl)) <|
      .cons (.event (i := ()) (c := .ioctlGet (n := 40) 4 .tunsetiff _) (r := ⟨0, Buf.zero⟩)
        rfl (by intro n hn; cases hn)) <|
      .cons (.event (i := ()) (c := .ioctlGet (n := 40) 3 .siocgifflags _)
        (r := ⟨0, Buf.zero⟩) rfl (by intro n hn; cases hn)) <|
      .cons (.finish (i := ()) rfl) <|
      .cons (.begin (i := ()) (o := .up) rfl) <|
      .cons (.event (i := ()) (c := .ioctl (n := 40) 3 .siocsifflags _) (r := ⟨0, .other⟩)
        rfl (by intro n hn; cases hn)) <| .nil _, rfl, ?_⟩
    simp only [List.mem_cons, List.not_mem_nil, or_false, forall_eq_or_imp, forall_eq]
    refine ⟨?_, ?_, ?_, ?_, ?_, ?_, ?_, ?_, ?_, ?_, ?_⟩
    -- only two of the eleven steps begin an operation
    all_goals
      intro i op dev hl hs hdev
      cases hl
    · exact fun _ => id
    · cases hs
      exact absurd hdev (by decide)
  exact ⟨tr, w', hr, hlen, descriptors_owned_in_runs Libc.refusing hr (fun _ => rfl) hallowed⟩

/-- A start in mode 42 fails, the host opens a file that gets the number of the
socket it closed, and the device is released: the file is closed. -/
theorem descriptor_of_host_closed :
    ¬ ∀ (libc : Libc) (w w' : World Unit Call Resp Int Device)
      (tr : List (World Unit Call Resp Int Device × Label Unit Call Resp Int Op ×
        World Unit Call Resp Int Device)),
      Run (World.Step descriptors (linuxClient libc)) w tr w' →
        (∀ i, w.slot i = .fresh) → ∀ x ∈ tr, OwnsWhatItPasses x := by
  intro hclaim
  have hmeets : Meets (World.Step (ι := Unit) (N := Int) descriptors (linuxClient Libc.refusing))
      (fun x => ¬ OwnsWhatItPasses x) ⟨fun _ => none, fun _ => .fresh⟩ := by
    refine .later (.create (i := ()) rfl) ?_
    refine .later (.event (i := ()) (r := true) rfl (by intro n hn; cases hn)) ?_
    refine .later (.finish (i := ()) rfl) ?_
    refine .later (.begin (i := ()) (o := .start 42 0) rfl) ?_
    refine .later (.event (i := ()) (r := (3 : Int)) rfl fun _ _ => rfl) ?_
    refine .later (.event (i := ()) (r := ()) rfl (by intro n hn; cases hn)) ?_
    refine .later (.event (i := ()) (r := (0 : Int)) rfl (by intro n hn; cases hn)) ?_
    refine .later (.finish (i := ()) rfl) ?_
    refine .later (.hostOpen (n := 3) rfl) ?_
    refine .later (.begin (i := ()) (o := .release) rfl) ?_
    refine .now (.event (i := ()) (r := (0 : Int)) rfl (by intro n hn; cases hn)) ?_
    intro hown
    have h3 := hown () _ rfl 3 (by decide) rfl
    simp at h3
  obtain ⟨tr, w', hr, x, hx, hbad⟩ := hmeets
  exact hbad (hclaim Libc.refusing _ w' tr hr (fun _ => rfl) x hx)

end Libtuntap
