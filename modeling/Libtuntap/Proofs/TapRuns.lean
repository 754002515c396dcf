import Libtuntap.Effect.Simulation
import Libtuntap.Proofs.SetIp
import Libtuntap.Windows.Tap

/-!
# A started device on Windows as a port

What is left of the API on Windows is a port: the handle handed to the
application, a name that no call writes to, and the adapter. A call does what it
says to the adapter, or it answers -1 and nothing has changed. Seven of the
functions can only do the latter, and of `tuntap_set_ip` an IPv6 address.

`Port.Step` says so without requests and buffers. The calls of the library are
shown to be such steps, over whole sessions, and with that the adapter's media
status and the address it hands out are those of the last calls that answered 0.
-/

namespace Libtuntap.Windows

open Effect CMem

/-- The handle handed to the application, the name in the record, and the
adapter. -/
structure Port where
  handle : Int
  name : CString
  tap : Tap

namespace Port

/-- The call fails and nothing has changed. -/
def Fails (p : Port) (a : Answer) (p' : Port) : Prop := a = .int (-1) ∧ p' = p

def withTap (p : Port) (tap : Tap) : Port := { p with tap := tap }

def Connects (p : Port) (connected : Bool) (a : Answer) (p' : Port) : Prop :=
  p.Fails a p' ∨ a = .int 0 ∧ p' = p.withTap { p.tap with connected := connected }

/-- The adapter is to hand out an IPv4 address, with the mask of the prefix. -/
def SetsIp (libc : Libc) (p : Port) (addr : Option CString) (netmask : Int) (a : Answer)
    (p' : Port) : Prop :=
  p.Fails a p' ∨ ∃ text s mask, addr = some text ∧ 0 ≤ netmask ∧ netmask ≤ 128 ∧
    libc.inetPton4 text = some s ∧ (netmask ≤ 32 → IsPrefixMask (networkWord mask) netmask) ∧
    a = .int 0 ∧ p' = p.withTap { p.tap with masq := some ⟨s, mask, Buf.zero, Buf.zero⟩ }

/-- What an API call does. -/
def Does (libc : Libc) (p : Port) (op : Op) (a : Answer) (p' : Port) : Prop :=
  match op with
  | .start .. | .setDescr _ | .setIfname _ | .setHwaddr _ | .setMtu _ | .getReadable
  | .setNonblocking _ | .setDebug _ => p.Fails a p'
  | .release | .destroy => False
  | .getDescr => a = .str none ∧ p' = p
  | .getIfname => a = .str (some p.name) ∧ p' = p
  | .getHwaddr => (a = .hwaddr none ∨ a = .hwaddr (some p.tap.mac)) ∧ p' = p
  | .up => p.Connects true a p'
  | .down => p.Connects false a p'
  | .getMtu => (a = .int (-1) ∨ a = .int p.tap.mtu.toInt) ∧ p' = p
  | .setIp addr netmask => p.SetsIp libc addr netmask a p'
  | .read _ | .readTm .. | .write _ | .writeTm .. => (∃ n, a = .int n) ∧ p' = p
  | .getFd => a = .handle p.handle ∧ p' = p

end Port

/-- What happens to a port. -/
inductive PortAct where
  | call (op : Op) (a : Answer)
  | others

inductive Port.Step (libc : Libc) (rely : Tap → Tap → Prop) : Port → PortAct → Port → Prop where
  | call {p p' : Port} {op : Op} {a : Answer} :
      p.Does libc op a p' → Step libc rely p (.call op a) p'
  | others {p : Port} {tap : Tap} : rely p.tap tap → Step libc rely p .others (p.withTap tap)

/-! ## Requests that are granted -/

section Grants

variable {t t' : Tap}

theorem Tap.Grants.mac {b b' : Buf 6} (h : t.Grants tapIoctlGetMac b b' t') :
    b' = t.mac ∧ t' = t := by
  generalize hcode : tapIoctlGetMac = code at h
  cases h with
  | getMac => exact ⟨rfl, rfl⟩

theorem Tap.Grants.mtu {b b' : Buf 4} (h : t.Grants tapIoctlGetMtu b b' t') :
    b' = Buf.store32 t.mtu ∧ t' = t := by
  generalize hcode : tapIoctlGetMtu = code at h
  cases h with
  | getMtu => exact ⟨rfl, rfl⟩
  | setMediaStatus => exact absurd hcode (by decide)

theorem Tap.Grants.mediaStatus {b b' : Buf 4} (h : t.Grants tapIoctlSetMediaStatus b b' t') :
    t' = { t with connected := Buf.load32 b ≠ 0 } := by
  generalize hcode : tapIoctlSetMediaStatus = code at h
  cases h with
  | getMtu => exact absurd hcode (by decide)
  | setMediaStatus => rfl

theorem Tap.Grants.dhcpMasq {b b' : Buf 16} (h : t.Grants tapIoctlConfigDhcpMasq b b' t') :
    t' = { t with masq := some (Masq.ofBuf b) } := by
  generalize hcode : tapIoctlConfigDhcpMasq = code at h
  cases h with
  | configDhcpMasq => rfl

end Grants

theorem masq_psock (s : Buf 4) (mask : BitVec 32) :
    Masq.ofBuf (psock s mask) = ⟨s, Buf.store32 mask, Buf.zero, Buf.zero⟩ := by
  unfold Masq.ofBuf psock
  congr 1
  · rw [Buf.slice_memcpy_disjoint _ _ _ _ _ _ (by decide), Buf.slice_memcpy_same _ _ _ (by decide)]
  · exact Buf.slice_memcpy_same _ _ _ (by decide)
  · rw [Buf.slice_memcpy_disjoint _ _ _ _ _ _ (by decide),
      Buf.slice_memcpy_disjoint _ _ _ _ _ _ (by decide)]
    funext i
    exact Buf.byte_zero _
  · rw [Buf.slice_memcpy_disjoint _ _ _ _ _ _ (by decide),
      Buf.slice_memcpy_disjoint _ _ _ _ _ _ (by decide)]
    funext i
    exact Buf.byte_zero _

/-! ## The session is on a port -/

/-- The port a started device is on. -/
def port (dev : Device) (tap : Tap) : Port := ⟨dev.tunFd, tuntapGetIfname dev, tap⟩

/-- The device is started and its handle is open. -/
def IsOn (s : Session) (p : Port) : Prop :=
  s.dev.tunFd ≠ tunfdInvalidValue ∧ s.host.files s.dev.tunFd = some p.tap ∧ p = port s.dev p.tap

/-- A call that does nothing to the adapters. -/
def Still (c : Call ⊕ MoreCall) : Prop := ∀ s r s', tapHost s c r s' → s' = s

/-- What an operation comes to on a port. -/
def Refined (libc : Libc) (dev : Device) (tap : Tap) (op : Op) (o : Outcome Left) (s' : Host) :
    Prop :=
  ∀ a d, o = .returned (a, some d) → d = dev ∧
    ∃ tap', s'.files dev.tunFd = some tap' ∧ (port dev tap).Does libc op a (port dev tap')

section Refined

variable {libc : Libc} {dev : Device} {tap : Tap} {op : Op} {s : Host} {hwaddr : Buf 6}

theorem wp_of_still {α : Type} {A : α → Prop} {p : WinApi α} (hp : p.AllCalls Still)
    (hA : p.Answers A) : p.Wp tapHost (fun a s' => A a ∧ s' = s) s := by
  induction p with
  | ret a => exact ⟨hA, rfl⟩
  | sys c k ih =>
      intro r s' hs
      obtain rfl := hp.1 s r s' hs
      exact ih r (hp.2 r) (hA r)

theorem still_log (level : Level) (msg : CString) : Still (.inl (.log level msg)) :=
  fun _ _ _ h => h

@[simp] theorem still_logError (level : Level) (code : Nat) :
    Still (.inl (.logError level code)) := fun _ _ _ h => h

@[simp] theorem still_getLastError : Still (.inl .getLastError) := fun _ _ _ h => h

@[simp] theorem still_getOverlappedResult (fd : Int) : Still (.inl (.getOverlappedResult fd)) :=
  fun _ _ _ h => h

@[simp] theorem still_getOverlappedResultEx (fd : Int) (timeout : BitVec 32) :
    Still (.inl (.getOverlappedResultEx fd timeout)) := fun _ _ _ h => h

@[simp] theorem still_cancelIo (fd : Int) : Still (.inl (.cancelIo fd)) := fun _ _ _ h => h

/-- A request: refused, or granted by the adapter behind the handle. -/
theorem request_wp {α : Type} {Q : α → Host → Prop} {n : Nat} {code : BitVec 32} {b : Buf n}
    {f : IoControlRet n → Win α} (hfile : s.files dev.tunFd = some tap)
    (hrefused : ∀ r, r.ok = false → (f r).Wp tapHost.left Q s)
    (hgranted : ∀ r tap', r.ok = true → tap.Grants code b r.buf tap' →
      (f r).Wp tapHost.left Q (s.set dev.tunFd (some tap'))) :
    (deviceIoControl dev.tunFd code b >>= f).Wp tapHost.left Q s := by
  intro r s' hs
  rcases hs with ⟨hok, rfl⟩ | ⟨hok, t, t', ht, hgrants, rfl⟩
  · exact hrefused r hok
  · obtain rfl := Option.some.inj (hfile.symm.trans ht)
    exact hgranted r t' hok hgrants

theorem requestFailed_wp {Q : Int → Host → Prop} (hQ : Q (-1) s) :
    requestFailed.Wp tapHost.left Q s := by
  rintro code _ rfl _ _ rfl
  exact hQ

theorem tuntapSysSetUpdown_wp (hfile : s.files dev.tunFd = some tap) (flag : BitVec 32) :
    (tuntapSysSetUpdown dev flag).Wp tapHost.left
      (fun o s' => o = .returned (-1) ∧ s' = s ∨
        o = .returned 0 ∧ s' = s.set dev.tunFd (some { tap with connected := flag ≠ 0 })) s := by
  refine request_wp hfile (fun r hok => ?_) fun r tap' hok hgrants => ?_
  · rw [if_pos hok]
    refine (requestFailed_wp (Q := fun n s' => n = -1 ∧ s' = s) ⟨rfl, rfl⟩).bind ?_
    rintro _ _ ⟨rfl, rfl⟩
    exact Or.inl ⟨rfl, rfl⟩
  · have hshort : ∀ {b : Prop} [Decidable b],
        snprintf 32 (CString.lit "Status: " ++ CString.lit (if b then "Up" else "Down")) =
          some (CString.lit "Status: " ++ CString.lit (if b then "Up" else "Down")) := by
      intro b _
      by_cases hb : b
      · rw [if_pos hb]
        decide
      · rw [if_neg hb]
        decide
    rw [if_neg (by rw [hok]; decide), hshort]
    rintro _ _ rfl
    obtain rfl := hgrants.mediaStatus
    rw [Buf.load32_store32]
    exact Or.inr ⟨rfl, rfl⟩

theorem tuntapGetHwaddr_wp (hfile : s.files dev.tunFd = some tap) :
    (tuntapGetHwaddr hwaddr dev).Wp tapHost.left
      (fun o s' => (∀ a, o = .returned a → a = none ∨ a = some tap.mac) ∧
        s'.files dev.tunFd = some tap) s := by
  refine request_wp hfile (fun r hok => ?_) fun r tap' hok hgrants => ?_
  · rw [if_pos hok]
    rintro code _ rfl _ _ rfl
    refine ⟨fun a ha => Or.inl ?_, hfile⟩
    exact (Outcome.returned.inj ha).symm
  · obtain ⟨hmac, rfl⟩ := hgrants.mac
    have hset : (s.set dev.tunFd (some tap')).files dev.tunFd = some tap' :=
      Function.update_self ..
    rw [if_neg (by rw [hok]; decide)]
    cases snprintf 128 _ with
    | none => exact ⟨nofun, hset⟩
    | some buf =>
        rintro _ _ rfl
        refine ⟨fun a ha => Or.inr ?_, hset⟩
        rw [← hmac]
        exact (Outcome.returned.inj ha).symm

theorem tuntapSysSetIpv4_wp (hfile : s.files dev.tunFd = some tap) (a : Buf 4)
    (mask : BitVec 32) :
    (tuntapSysSetIpv4 dev a mask).Wp tapHost.left
      (fun n s' => n = -1 ∧ s' = s ∨ n = 0 ∧ s' = s.set dev.tunFd (some
        { tap with masq := some ⟨a, Buf.store32 mask, Buf.zero, Buf.zero⟩ })) s := by
  refine request_wp hfile (fun r hok => ?_) fun r tap' hok hgrants => ?_
  · rw [if_pos hok]
    exact requestFailed_wp (Or.inl ⟨rfl, rfl⟩)
  · obtain rfl := hgrants.dhcpMasq
    rw [if_neg (by rw [hok]; decide), masq_psock]
    exact Or.inr ⟨rfl, rfl⟩

theorem files_set (h : Int) (t : Option Tap) : (s.set h t).files h = t := Function.update_self ..

/-- An `int` answer of a function, and the record as it was. -/
theorem refined_int {p : WinApi Int}
    (hp : p.Wp tapHost (fun n s' => ∃ tap', s'.files dev.tunFd = some tap' ∧
      (port dev tap).Does libc op (.int n) (port dev tap')) s) :
    (p >>= fun n => (.ret (keepInt dev n) : WinApi (Outcome Left))).Wp tapHost
      (Refined libc dev tap op) s := by
  refine hp.bind fun n s' h a d heq => ?_
  obtain ⟨rfl, hd⟩ := Prod.mk.inj (Outcome.returned.inj heq)
  exact ⟨(Option.some.inj hd).symm, h⟩

/-- The same of a function that makes no request. -/
theorem refined_int_of_still {p : WinApi Int} (hfile : s.files dev.tunFd = some tap)
    (hp : p.AllCalls Still)
    (hA : p.Answers fun n => (port dev tap).Does libc op (.int n) (port dev tap)) :
    (p >>= fun n => (.ret (keepInt dev n) : WinApi (Outcome Left))).Wp tapHost
      (Refined libc dev tap op) s := by
  refine refined_int ((wp_of_still hp hA).mono ?_)
  rintro n _ ⟨hdoes, rfl⟩
  exact ⟨tap, hfile, hdoes⟩

theorem lift_still {α : Type} {p : Win α} (hp : p.AllCalls fun c => Still (.inl c)) :
    (Prog.lift p : WinApi α).AllCalls Still := (Prog.allCalls_lift p).mpr hp

theorem unsupported_refined (hfile : s.files dev.tunFd = some tap) (msg : String)
    (hdoes : (port dev tap).Does libc op (.int (-1)) (port dev tap)) :
    ((Prog.lift (unsupported msg) : WinApi Int) >>= fun n =>
      (.ret (keepInt dev n) : WinApi (Outcome Left))).Wp tapHost (Refined libc dev tap op) s :=
  refined_int_of_still hfile (lift_still ⟨still_log _ _, fun _ => trivial⟩)
    ((Prog.answers_lift _).mpr fun _ => hdoes)

theorem updown_refined (hfile : s.files dev.tunFd = some tap) (flag : BitVec 32)
    (hop : ∀ a p', (port dev tap).Connects (flag ≠ 0) a p' → (port dev tap).Does libc op a p') :
    ((Prog.lift (tuntapSysSetUpdown dev flag) : WinApi (Outcome Int)) >>= fun r =>
      (.ret (keepOutcome dev r) : WinApi (Outcome Left))).Wp tapHost
        (Refined libc dev tap op) s := by
  refine (Prog.wp_lift.mpr (tuntapSysSetUpdown_wp hfile flag)).bind fun o s' ho a d heq => ?_
  rcases ho with ⟨rfl, rfl⟩ | ⟨rfl, rfl⟩
  · obtain ⟨rfl, hd⟩ := Prod.mk.inj (Outcome.returned.inj heq)
    exact ⟨(Option.some.inj hd).symm, tap, hfile, hop _ _ (Or.inl ⟨rfl, rfl⟩)⟩
  · obtain ⟨rfl, hd⟩ := Prod.mk.inj (Outcome.returned.inj heq)
    exact ⟨(Option.some.inj hd).symm, _, files_set .., hop _ _ (Or.inr ⟨rfl, rfl⟩)⟩

theorem netmaskWord_answers {netmask : Int} (h0 : 0 ≤ netmask) :
    (netmaskWord netmask).Answers fun w =>
      netmask ≤ 32 → IsPrefixMask (networkWord (Buf.store32 w)) netmask := by
  by_cases h32 : netmask ≤ 32
  · unfold netmaskWord
    by_cases h : netmask = 32
    · rw [if_pos h]
      intro _
      rw [networkWord_htonl, h]
      exact isPrefixMask_ones
    · rw [if_neg h]
      unfold shiftRight
      rw [if_neg (by omega)]
      intro _
      rw [networkWord_htonl]
      obtain ⟨len, rfl⟩ := Int.eq_ofNat_of_zero_le h0
      exact isPrefixMask_shift len
  · exact Prog.answers_of_forall (fun _ h => absurd h h32) _

theorem netmaskWord_still (netmask : Int) : (netmaskWord netmask).AllCalls Still := by
  refine (Prog.allCalls_ite ..).mpr ⟨fun _ => trivial, fun _ => ?_⟩
  refine Prog.AllCalls.bind ?_ fun _ => trivial
  exact (Prog.allCalls_ite ..).mpr ⟨fun _ => ⟨fun _ _ _ h => h, fun _ => trivial⟩, fun _ => trivial⟩

theorem tuntapSetIp_refined (hdev : dev.tunFd ≠ tunfdInvalidValue)
    (hfile : s.files dev.tunFd = some tap) (addr : Option CString) (netmask : Int) :
    (tuntapSetIp libc dev addr netmask).Wp tapHost
      (fun n s' => ∃ tap', s'.files dev.tunFd = some tap' ∧
        (port dev tap).SetsIp libc addr netmask (.int n) (port dev tap')) s := by
  have hfails : ∀ (level : Level) (msg : String),
      ((Prog.lift (tuntapLog level msg) : WinApi Unit) >>= fun _ =>
        (.ret (-1) : WinApi Int)).Wp tapHost
        (fun n s' => ∃ tap', s'.files dev.tunFd = some tap' ∧
          (port dev tap).SetsIp libc addr netmask (.int n) (port dev tap')) s := by
    rintro level msg _ _ rfl
    exact ⟨tap, hfile, Or.inl ⟨rfl, rfl⟩⟩
  unfold tuntapSetIp
  rw [if_neg hdev]
  cases addr with
  | none => exact hfails _ _
  | some text =>
      dsimp only
      by_cases hrange : netmask < 0 ∨ netmask > 128
      · rw [if_pos hrange]
        exact hfails _ _
      · rw [if_neg hrange]
        obtain ⟨h0, h128⟩ : 0 ≤ netmask ∧ netmask ≤ 128 := by omega
        cases ha : libc.inetPton4 text with
        | some a =>
            refine (wp_of_still (netmaskWord_still netmask) (netmaskWord_answers h0)).bind ?_
            rintro mask _ ⟨hmask, rfl⟩
            refine Prog.wp_lift.mpr ((tuntapSysSetIpv4_wp hfile a mask).mono ?_)
            rintro n _ (⟨rfl, rfl⟩ | ⟨rfl, rfl⟩)
            · exact ⟨tap, hfile, Or.inl ⟨rfl, rfl⟩⟩
            · exact ⟨_, files_set .., Or.inr ⟨text, a, Buf.store32 mask, rfl, h0, h128, ha, hmask,
                rfl, rfl⟩⟩
        | none =>
            cases libc.inetPton6 text with
            | some a =>
                rintro _ _ rfl
                exact ⟨tap, hfile, Or.inl ⟨rfl, rfl⟩⟩
            | none => exact hfails _ _

theorem tuntapGetMtu_refined (hfile : s.files dev.tunFd = some tap) :
    (tuntapGetMtu dev).Wp tapHost
      (fun n s' => ∃ tap', s'.files dev.tunFd = some tap' ∧
        (port dev tap).Does libc .getMtu (.int n) (port dev tap')) s := by
  rintro mtu _ rfl
  refine Prog.wp_lift.mpr (request_wp hfile (fun r hok => ?_) fun r tap' hok hgrants => ?_)
  · rw [if_pos hok]
    exact requestFailed_wp ⟨tap, hfile, Or.inl rfl, rfl⟩
  · obtain ⟨hmtu, rfl⟩ := hgrants.mtu
    rw [if_neg (by rw [hok]; decide), hmtu, Buf.slice_self, Buf.load32_store32]
    exact ⟨tap', files_set .., Or.inr rfl, rfl⟩

theorem finishTransfer_still (fd : Int) (started : IoRet) :
    (finishTransfer fd started).AllCalls fun c => Still (.inl c) := by
  simp [finishTransfer]

theorem finishTransferTm_still (fd : Int) (started : IoRet) (timeoutMs : Int) :
    (finishTransferTm fd started timeoutMs).AllCalls fun c => Still (.inl c) := by
  simp [finishTransferTm, waitCompletionOrTimeout, giveUp]

/-- Every operation on a started device is one on its port. -/
theorem prog_refined (op : Op) (hdev : dev.tunFd ≠ tunfdInvalidValue)
    (hfile : s.files dev.tunFd = some tap) :
    (prog libc hwaddr dev op).Wp tapHost (Refined libc dev tap op) s := by
  have htransfer : ∀ {p : Win Int}, (p.AllCalls fun c => Still (.inl c)) →
      (∀ n, (port dev tap).Does libc op (.int n) (port dev tap)) → _ := fun {p} hp hdoes =>
    refined_int_of_still (p := Prog.lift p) hfile (lift_still hp)
      (Prog.answers_of_forall hdoes _)
  cases op with
  | start mode tun =>
      simp only [prog, tuntapStart, if_pos hdev]
      rintro a d heq
      obtain ⟨rfl, hd⟩ := Prod.mk.inj (Outcome.returned.inj heq)
      exact ⟨(Option.some.inj hd).symm, tap, hfile, rfl, rfl⟩
  | release | destroy =>
      rintro _ _ _ _ _ _ a d heq
      cases heq
  | setDescr | setIfname | setHwaddr | setMtu | getReadable | setNonblocking | setDebug =>
      exact unsupported_refined hfile _ ⟨rfl, rfl⟩
  | getDescr =>
      rintro _ _ rfl a d heq
      obtain ⟨rfl, hd⟩ := Prod.mk.inj (Outcome.returned.inj heq)
      exact ⟨(Option.some.inj hd).symm, tap, hfile, rfl, rfl⟩
  | getIfname | getFd =>
      rintro a d heq
      obtain ⟨rfl, hd⟩ := Prod.mk.inj (Outcome.returned.inj heq)
      exact ⟨(Option.some.inj hd).symm, tap, hfile, rfl, rfl⟩
  | getHwaddr =>
      refine (Prog.wp_lift.mpr (tuntapGetHwaddr_wp hfile)).bind fun o s' ho => ?_
      cases o with
      | crashed => exact nofun
      | returned mac =>
          rintro a d heq
          obtain ⟨rfl, hd⟩ := Prod.mk.inj (Outcome.returned.inj heq)
          refine ⟨(Option.some.inj hd).symm, tap, ho.2, ?_, rfl⟩
          rcases ho.1 mac rfl with rfl | rfl
          · exact Or.inl rfl
          · exact Or.inr rfl
  | up =>
      have hyes : decide ((1 : BitVec 32) ≠ 0) = true := by decide
      exact updown_refined hfile 1 fun a p' h => by rwa [hyes] at h
  | down =>
      have hno : decide ((0 : BitVec 32) ≠ 0) = false := by decide
      exact updown_refined hfile 0 fun a p' h => by rwa [hno] at h
  | getMtu => exact refined_int (tuntapGetMtu_refined hfile)
  | setIp addr netmask => exact refined_int (tuntapSetIp_refined hdev hfile addr netmask)
  | read size =>
      exact htransfer ⟨fun _ _ _ h => h, finishTransfer_still _⟩ fun n => ⟨⟨n, rfl⟩, rfl⟩
  | readTm size timeoutMs =>
      exact htransfer ⟨fun _ _ _ h => h, fun r => finishTransferTm_still _ r _⟩
        fun n => ⟨⟨n, rfl⟩, rfl⟩
  | write buf =>
      exact htransfer ⟨fun _ _ _ h => h, finishTransfer_still _⟩ fun n => ⟨⟨n, rfl⟩, rfl⟩
  | writeTm buf timeoutMs =>
      exact htransfer ⟨fun _ _ _ h => h, fun r => finishTransferTm_still _ r _⟩
        fun n => ⟨⟨n, rfl⟩, rfl⟩

end Refined

/-! ## The start -/

section Start

variable {libc : Libc} {rely : Tap → Tap → Prop} {s s' : Session}

theorem openFirst_opens (l : List (Option Candidate)) (k : Host) :
    (openFirst l).Wp tapHost.left
      (fun o k' => ∀ h, o = .returned h → h = tunfdInvalidValue ∨ ∃ tap, k'.files h = some tap)
      k := by
  induction l generalizing k with
  | nil => exact nofun
  | cons entry rest ih =>
      cases entry with
      | none =>
          intro h hh
          exact Or.inl (Outcome.returned.inj hh).symm
      | some deviceid =>
          rw [openFirst]
          cases snprintf 60 (devicePath deviceid.text) with
          | none => exact nofun
          | some buf =>
              intro h k₁ hs
              refine (Prog.wp_ite _ _ _).mpr ⟨fun hne h' hh => Or.inr ?_, fun _ => ih k₁⟩
              obtain rfl := Outcome.returned.inj hh
              rcases hs with ⟨hno, -⟩ | ⟨-, -, tap, rfl⟩
              · exact absurd hno hne
              · exact ⟨tap, files_set ..⟩

theorem freeAll_still (l : List (Option Candidate)) :
    (freeAll l).AllCalls fun c => Still (.inl c) := by
  induction l with
  | nil => trivial
  | cons entry rest ih =>
      cases entry with
      | none => trivial
      | some deviceid => exact ⟨fun _ _ _ h => h, fun _ => ih⟩

/-- What a start that answers 0 leaves. -/
def Opened (o : Outcome (Int × Device)) (k : Host) : Prop :=
  ∀ d, o = .returned (0, d) → d.tunFd ≠ tunfdInvalidValue ∧ ∃ tap, k.files d.tunFd = some tap

theorem openCandidate_opens (dev : Device) (deviceids : Deviceids) (k : Host) :
    (openCandidate dev deviceids).Wp tapHost.left Opened k := by
  refine (openFirst_opens deviceids.entries k).bind fun o k₁ ho => ?_
  cases o with
  | crashed => exact nofun
  | returned h =>
      have hsame : (freeAll deviceids.entries).Wp tapHost.left (fun _ k' => k' = k₁) k₁ :=
        (freeAll_still _).wp rfl fun c hc m r m' hs hm => (hc m r m' hs).trans hm
      refine hsame.bind fun o k₂ hk₂ => ?_
      obtain rfl := hk₂
      cases o with
      | crashed => exact nofun
      | returned u =>
          rintro _ _ rfl
          refine (Prog.wp_ite _ _ _).mpr ⟨fun _ => ?_, fun hne d hd => ?_⟩
          · rintro errcode k₃ -
            refine (Prog.wp_ite _ _ _).mpr ⟨fun _ _ _ _ => nofun, fun _ _ _ _ => nofun⟩
          · obtain ⟨-, rfl⟩ := Prod.mk.inj (Outcome.returned.inj hd)
            exact ⟨hne, (ho h rfl).resolve_left hne⟩

theorem tuntapStart_opens (dev : Device) (mode : Mode) (tun : Int) (k : Host) :
    (tuntapStart dev mode tun).Wp tapHost.left Opened k := by
  have hfail : ∀ k', Opened (.returned (-1, dev)) k' := nofun
  unfold tuntapStart
  refine (Prog.wp_ite _ _ _).mpr ⟨fun _ => hfail k, fun _ => ?_⟩
  dsimp only
  generalize (if mode.isPersist then mode.clearPersist else mode) = m
  refine (Prog.wp_ite _ _ _).mpr ⟨fun _ _ k' _ => hfail k', fun _ => ?_⟩
  refine (Prog.wp_ite _ _ _).mpr ⟨fun _ _ k' _ => hfail k', fun _ => ?_⟩
  have hany : (regQuery networkAdapters tun).Wp tapHost.left (fun _ _ => True) k :=
    (Prog.wp_iff _).mpr fun _ _ _ _ _ => trivial
  refine hany.bind fun o k' _ => ?_
  cases o with
  | crashed => exact nofun
  | returned found =>
      cases found with
      | none => exact nofun
      | some deviceids => exact openCandidate_opens dev deviceids k'

/-- After a start that answered 0 the session is on a port. -/
theorem Session.Step.start_isOn {mode : Mode} {tun : Int}
    {tr : List (Event (Call ⊕ MoreCall) (Both Resp MoreResp))}
    (hs : Session.Step libc rely s (.call (.start mode tun) tr (.int 0)) s') :
    ∃ p, IsOn s' p := by
  have hwp : (prog libc s.hwaddr s.dev (.start mode tun)).Wp tapHost (fun o k' =>
      ∀ d, o = .returned (.int 0, some d) →
        d.tunFd ≠ tunfdInvalidValue ∧ ∃ tap, k'.files d.tunFd = some tap) s.host := by
    refine (Prog.wp_lift.mpr (tuntapStart_opens s.dev mode tun s.host)).bind fun o k' ho => ?_
    cases o with
    | crashed => exact nofun
    | returned r =>
        intro d hd
        obtain ⟨hn, hd⟩ := Prod.mk.inj (Outcome.returned.inj hd)
        refine ho d ?_
        rw [← Option.some.inj hd, ← Answer.int.inj hn]
  cases hs with
  | call hr hk =>
      obtain ⟨hne, tap, hfile⟩ := hwp.of_runs hr hk s'.dev rfl
      exact ⟨port s'.dev tap, hne, hfile, rfl⟩

end Start

/-! ## Runs -/

section Runs

variable {libc : Libc} {rely : Tap → Tap → Prop} {s s' : Session}

/-- A step as it looks on the port. -/
def onPort (x : Session × Act × Session) : PortAct :=
  match x.2.1 with
  | .call op _ a => .call op a
  | .others => .others

theorem session_simulates (libc : Libc) (rely : Tap → Tap → Prop) :
    Simulates (Session.Step libc rely) (Port.Step libc rely) onPort IsOn := by
  refine ⟨fun {s act s' p} hs hp => ?_⟩
  obtain ⟨hdev, hfile, hport⟩ := hp
  cases hs with
  | call hr hk =>
      obtain ⟨hd, tap', hfile', hdoes⟩ := (prog_refined _ hdev hfile).of_runs hr hk _ _ rfl
      rw [hport]
      refine ⟨_, .call hdoes, ?_, ?_, ?_⟩
      · rw [hd]
        exact hdev
      · rw [hd]
        exact hfile'
      · rw [hd]
        rfl
  | others hd hkeep =>
      obtain ⟨tap', hfile', hrely⟩ := hkeep _ hfile
      refine ⟨p.withTap tap', .others hrely, ?_, ?_, ?_⟩
      · rw [hd]
        exact hdev
      · rw [hd]
        exact hfile'
      · rw [hd, hport]
        rfl

end Runs

/-! ## A run on one adapter -/

/-- An adapter as it is found. -/
def Tap.found : Tap := ⟨Buf.zero, 1500, false, none⟩

/-- A device started on handle 7, with the adapter in this state. -/
def Session.onTap (tap : Tap) : Session :=
  ⟨{ Device.init with tunFd := 7 }, Buf.zero, (Host.mk fun _ => none).set 7 (some tap)⟩

theorem Session.onTap_file (tap : Tap) : (Session.onTap tap).host.files 7 = some tap :=
  files_set ..

section Found

variable {libc : Libc} {rely : Tap → Tap → Prop}

theorem Session.Step.of_may {s s' : Session} {op : Op} {a : Answer}
    (h : (prog libc s.hwaddr s.dev op).May tapHost
      (fun o k => o = .returned (a, some s'.dev) ∧ k = s'.host) s.host) :
    ∃ tr, Session.Step libc rely s (.call op tr a) s' := by
  obtain ⟨tr, o, k, hr, hk, rfl, rfl⟩ := (Prog.may_iff _).mp h
  exact ⟨tr, .call hr hk⟩

/-- The registry has one tap adapter, and it opens. -/
theorem found_start : ∃ tr, Session.Step libc rely ⟨Device.init, Buf.zero, ⟨fun _ => none⟩⟩
    (.call (.start tuntapModeEthernet tuntapIdAny) tr (.int 0)) (.onTap Tap.found) :=
  Session.Step.of_may ⟨(8 : Nat), _, rfl, .ok (3 : Int), _, rfl, .ok (1 : Nat), _, rfl,
    .ok (CString.lit "0001"), _, rfl, .ok (4 : Int), _, rfl, .ok (CString.lit "tap0901"), _, rfl,
    .ok (CString.lit "ROOT\\NET\\0001"), _, rfl, .ok (CString.lit "id"), _, rfl,
    (16 : Nat), _, rfl, (24 : Nat), _, rfl, (0 : Nat), _, rfl, (0 : Nat), _, rfl,
    (7 : Int), _, Or.inr ⟨by decide, rfl, _, rfl⟩, (), _, rfl, (), _, rfl, rfl, rfl⟩

theorem Session.onTap_set (tap tap' : Tap) :
    (Session.onTap tap).host.set 7 (some tap') = (Session.onTap tap').host :=
  congrArg Host.mk (Function.update_idem ..)

theorem found_up (tap : Tap) : ∃ tr, Session.Step libc rely (.onTap tap) (.call .up tr (.int 0))
    (.onTap { tap with connected := true }) := by
  have hyes : decide (Buf.load32 (Buf.store32 1) ≠ 0) = true := by decide
  refine Session.Step.of_may ⟨⟨true, Buf.zero⟩, _,
    Or.inr ⟨rfl, tap, _, Session.onTap_file .., .setMediaStatus, rfl⟩, (), _, rfl, rfl, ?_⟩
  rw [hyes]
  exact Session.onTap_set ..

theorem found_setIp (tap : Tap) : ∃ masq tr, Session.Step Libc.knowing rely (.onTap tap)
    (.call (.setIp (some (CString.lit "10.0.0.1")) 24) tr (.int 0))
    (.onTap { tap with masq := some masq }) := by
  let mask : BitVec 32 := ~~~((~~~0 : BitVec 32) >>> 24)
  let sent := psock (fun i => [10, 0, 0, 1].getD i 0) (htonl mask)
  refine ⟨Masq.ofBuf sent, Session.Step.of_may ⟨⟨true, Buf.zero⟩, _,
    Or.inr ⟨rfl, tap, _, Session.onTap_file .., .configDhcpMasq, rfl⟩, rfl, ?_⟩⟩
  exact Session.onTap_set ..

/-- An adapter is found and connected, and given 10.0.0.1/24. -/
theorem found_run (hrely : ∀ t, rely t t) : ∃ tr₀ tr s',
    Session.Step Libc.knowing rely ⟨Device.init, Buf.zero, ⟨fun _ => none⟩⟩
      (.call (.start tuntapModeEthernet tuntapIdAny) tr₀ (.int 0)) (.onTap Tap.found) ∧
    Run (Session.Step Libc.knowing rely) (.onTap Tap.found) tr s' ∧
    tr.map onPort = [.call .up (.int 0), .others,
      .call (.setIp (some (CString.lit "10.0.0.1")) 24) (.int 0)] := by
  obtain ⟨tr₀, hstart⟩ := found_start
  obtain ⟨tr₁, hup⟩ := found_up Tap.found
  obtain ⟨masq, tr₂, hip⟩ := found_setIp { Tap.found with connected := true }
  have hothers : ∀ s, Session.Step Libc.knowing rely s .others s :=
    fun s => .others rfl fun t ht => ⟨t, ht, hrely t⟩
  exact ⟨tr₀, _, _, hstart, .cons hup (.cons (hothers _) (.cons hip (.nil _))), rfl⟩

end Found

/-! ## Refinement -/

section Refines

variable {libc : Libc} {rely : Tap → Tap → Prop} {s s' : Session}

/-- Whatever is called after a start that answered 0, and whatever others do in
between, some run of a port has the same calls with the same answers, and ends on
what the session has come to. -/
theorem session_refines_port {s₀ : Session} {mode : Mode} {tun : Int}
    {tr₀ : List (Event (Call ⊕ MoreCall) (Both Resp MoreResp))}
    {tr : List (Session × Act × Session)}
    (hs : Session.Step libc rely s₀ (.call (.start mode tun) tr₀ (.int 0)) s)
    (hr : Run (Session.Step libc rely) s tr s') :
    ∃ p tr' p', Run (Port.Step libc rely) p tr' p' ∧ labels tr' = tr.map onPort ∧
      IsOn s p ∧ IsOn s' p' := by
  obtain ⟨p, hp⟩ := hs.start_isOn
  obtain ⟨tr', p', hr', hlabels, hp'⟩ := (session_simulates libc rely).run hr hp
  exact ⟨p, tr', p', hr', hlabels, hp, hp'⟩

end Refines

/-- The port this run is one of. -/
theorem found_refines_port : ∃ p tr' p',
    Run (Port.Step Libc.knowing fun t t' => t' = t) p tr' p' ∧
      labels tr' = [.call .up (.int 0), .others,
        .call (.setIp (some (CString.lit "10.0.0.1")) 24) (.int 0)] := by
  obtain ⟨tr₀, tr, s', hs, hr, hobs⟩ := @found_run (fun t t' => t' = t) fun _ => rfl
  obtain ⟨p, tr', p', hr', hlabels, -⟩ := session_refines_port hs hr
  exact ⟨p, tr', p', hr', hlabels.trans hobs⟩

/-! ## What the last calls have set -/

section Last

variable {libc : Libc} {rely : Tap → Tap → Prop} {s s' : Session}

/-- The media status a call has set. -/
def PortAct.mediaSet : PortAct → Option Bool
  | .call .up (.int n) => if n = 0 then some true else none
  | .call .down (.int n) => if n = 0 then some false else none
  | _ => none

/-- The address and the prefix length a call has set. -/
def PortAct.ipSet : PortAct → Option (Option (CString × Int))
  | .call (.setIp (some text) netmask) (.int n) => if n = 0 then some (text, netmask) else none
  | _ => none

/-- The adapter hands out the address asked for last, with the mask of its
prefix, or what it handed out at first. -/
def HandsOut (libc : Libc) (first : Tap) (asked : Option (CString × Int)) (tap : Tap) : Prop :=
  match asked with
  | none => tap.masq = first.masq
  | some (text, netmask) => ∃ s mask, libc.inetPton4 text = some s ∧
      (netmask ≤ 32 → IsPrefixMask (networkWord mask) netmask) ∧
        tap.masq = some ⟨s, mask, Buf.zero, Buf.zero⟩

/-- The media status and the address of an adapter are those of the last calls
that answered 0. -/
structure FollowsCalls (libc : Libc) (first : Tap) (ms : List PortAct) (tap : Tap) : Prop where
  connected : tap.connected = Run.last PortAct.mediaSet first.connected ms
  masq : HandsOut libc first (Run.last PortAct.ipSet none ms) tap

theorem Port.Step.connected (hrely : ∀ t t', rely t t' → t'.connected = t.connected)
    {p p' : Port} {m : PortAct} (hs : Port.Step libc rely p m p') :
    p'.tap.connected = m.mediaSet.getD p.tap.connected := by
  cases hs with
  | others h => exact hrely _ _ h
  | @call _ op a hdoes =>
      cases op with
      | release | destroy => exact hdoes.elim
      | up | down =>
          rcases hdoes with ⟨rfl, rfl⟩ | ⟨rfl, rfl⟩
          · rfl
          · rfl
      | setIp addr netmask =>
          rcases hdoes with ⟨rfl, rfl⟩ | ⟨_, _, _, _, _, _, _, _, _, rfl⟩
          · rfl
          · rfl
      | _ =>
          obtain ⟨-, rfl⟩ := hdoes
          rfl

theorem Port.Step.masq (hrely : ∀ t t', rely t t' → t'.masq = t.masq) {first : Tap}
    {asked : Option (CString × Int)} {p p' : Port} {m : PortAct} (hs : Port.Step libc rely p m p')
    (h : HandsOut libc first asked p.tap) : HandsOut libc first (m.ipSet.getD asked) p'.tap := by
  have hsame : ∀ {t : Tap}, t.masq = p.tap.masq → HandsOut libc first asked t := by
    intro t ht
    unfold HandsOut at h ⊢
    rw [ht]
    exact h
  cases hs with
  | others hkeep => exact hsame (hrely _ _ hkeep)
  | @call _ op a hdoes =>
      cases op with
      | release | destroy => exact hdoes.elim
      | up | down =>
          rcases hdoes with ⟨-, rfl⟩ | ⟨-, rfl⟩
          · exact hsame rfl
          · exact hsame rfl
      | setIp addr netmask =>
          rcases hdoes with ⟨rfl, rfl⟩ | ⟨text, a, mask, rfl, -, -, ha, hmask, rfl, rfl⟩
          · cases addr with
            | none => exact hsame rfl
            | some text => exact hsame rfl
          · exact ⟨a, mask, ha, hmask, rfl⟩
      | _ =>
          obtain ⟨-, rfl⟩ := hdoes
          exact hsame rfl

/-- After any calls on a started device, with others leaving the two alone, the
media status and the address its adapter hands out are those of the last
`tuntap_up`, `tuntap_down` and `tuntap_set_ip` that answered 0. -/
theorem adapter_follows_calls {s₀ : Session} {mode : Mode} {tun : Int}
    {tr₀ : List (Event (Call ⊕ MoreCall) (Both Resp MoreResp))}
    {tr : List (Session × Act × Session)}
    (hrely : ∀ t t', rely t t' → t'.connected = t.connected ∧ t'.masq = t.masq)
    (hs : Session.Step libc rely s₀ (.call (.start mode tun) tr₀ (.int 0)) s)
    (hr : Run (Session.Step libc rely) s tr s') :
    ∃ first tap, s.host.files s.dev.tunFd = some first ∧ s'.host.files s'.dev.tunFd = some tap ∧
      FollowsCalls libc first (tr.map onPort) tap := by
  obtain ⟨p, hp⟩ := hs.start_isOn
  obtain ⟨tr', p', hr', hlabels, hp'⟩ := (session_simulates libc rely).run hr hp
  have hconnected : p'.tap.connected =
      Run.last PortAct.mediaSet p.tap.connected (labels tr') :=
    hr'.register fun _ _ _ h => h.connected fun t t' ht => (hrely t t' ht).1
  have hmasq : HandsOut libc p.tap (Run.last PortAct.ipSet none (labels tr')) p'.tap :=
    hr'.register_fits (fun asked (p' : Port) => HandsOut libc p.tap asked p'.tap) rfl
      fun _ _ _ _ h => h.masq fun t t' ht => (hrely t t' ht).2
  rw [hlabels] at hconnected hmasq
  exact ⟨p.tap, p'.tap, hp.2.1, hp'.2.1, hconnected, hmasq⟩

end Last

/-- The adapter is connected, and hands out 10.0.0.1 with the mask of /24. -/
theorem found_follows_calls : ∃ tap, FollowsCalls Libc.knowing Tap.found [.call .up (.int 0),
    .others, .call (.setIp (some (CString.lit "10.0.0.1")) 24) (.int 0)] tap := by
  obtain ⟨tr₀, tr, s', hs, hr, hobs⟩ := @found_run (fun t t' => t' = t) fun _ => rfl
  obtain ⟨first, tap, hfirst, -, hfollows⟩ :=
    adapter_follows_calls (fun t t' ht => by rw [ht]; exact ⟨rfl, rfl⟩) hs hr
  obtain rfl := Option.some.inj (hfirst.symm.trans (Session.onTap_file Tap.found))
  rw [hobs] at hfollows
  exact ⟨tap, hfollows⟩

end Libtuntap.Windows
