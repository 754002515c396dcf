import Libtuntap.Effect.Accounts
import Libtuntap.Windows.Api

/-!
# Who owns a handle on Windows

The Windows library opens keys of the registry while it looks for an adapter,
and one device, which it keeps. All of them are handles of the process. There
is no second field that a failed start could leave behind, as `ctrl_sock` is on
Unix, so nothing has to be left out here: in every run of any number of devices
each handle passed is the device's own and open, and a device owns the handle in
its record and no other. The keys of a search are all closed again, and a device
that is freed has no handle left.

`INVALID_HANDLE_VALUE` is no handle. A call that runs into undefined behaviour
is the device's last one.
-/

namespace Libtuntap.Windows

open Effect CMem

/-- A handle the host has handed out. -/
def valid (h : Int) : Option Int := if h = tunfdInvalidValue then none else some h

/-- The handle a call is passed. -/
def Call.handle : Call → Option Int
  | .regQueryInfoKey h | .regEnumKeyEx h _ _ | .regQueryValueEx h _ _ | .regCloseKey h
  | .readFile h _ | .writeFile h _ _ | .getOverlappedResult h | .getOverlappedResultEx h _
  | .cancelIo h | .deviceIoControl h _ _ => valid h
  | _ => none

def callHandles : HandleSig Call Resp Int where
  uses c n := c.handle = some n
  gives
    | .regOpenKeyEx _, .ok h => valid h
    | .createFile _, h => valid h
    | _, _ => none
  drops
    | .regCloseKey h => valid h
    | _ => none

def MoreCall.handle : MoreCall → Option Int
  | .closeHandle h => valid h
  | _ => none

def moreHandles : HandleSig MoreCall MoreResp Int where
  uses c n := c.handle = some n
  gives _ _ := none
  drops := MoreCall.handle

/-- The handles of the API. -/
def handles : HandleSig (Call ⊕ MoreCall) (Both Resp MoreResp) Int :=
  callHandles.beside moreHandles

theorem handles_uses_of_drops (c : Call ⊕ MoreCall) (n : Int) (h : handles.drops c = some n) :
    handles.uses c n := by
  refine HandleSig.uses_of_drops ?_ (fun _ _ hc => hc) c n h
  intro c m hc
  cases c with
  | regCloseKey h => exact hc
  | _ => cases hc

/-! ## Calls that open and close nothing -/

/-- The calls that open or close a handle. -/
def Call.Deals : Call → Prop
  | .regOpenKeyEx _ | .createFile _ | .regCloseKey _ => True
  | _ => False

/-- A field that is no handle, or one of `keep`. -/
def Held (keep : Int → Prop) (h : Int) : Prop := ∀ n, valid h = some n → keep n

/-- A call that opens and closes nothing, on handles of `keep`. -/
def Quiet (keep : Int → Prop) (c : Call) : Prop :=
  ¬ c.Deals ∧ ∀ n, c.handle = some n → keep n

section Quiet

variable {keep : Int → Prop}

theorem Quiet.gives {c : Call} (h : Quiet keep c) (r : Resp c) : callHandles.gives c r = none := by
  cases c with
  | regOpenKeyEx | createFile => exact absurd trivial h.1
  | _ => rfl

theorem Quiet.drops {c : Call} (h : Quiet keep c) : callHandles.drops c = none := by
  cases c with
  | regCloseKey => exact absurd trivial h.1
  | _ => rfl

theorem quiet_of_none {c : Call} (hc : c.handle = none) (hd : ¬ c.Deals) : Quiet keep c :=
  ⟨hd, fun n hn => by rw [hc] at hn; cases hn⟩

theorem quiet_of_held {c : Call} {h : Int} (hh : Held keep h) (hc : c.handle = valid h)
    (hd : ¬ c.Deals) : Quiet keep c :=
  ⟨hd, fun n hn => hh n (hc.symm.trans hn)⟩

@[simp] theorem quiet_log (level : Level) (msg : CString) : Quiet keep (.log level msg) :=
  quiet_of_none rfl nofun

@[simp] theorem quiet_logError (level : Level) (code : Nat) : Quiet keep (.logError level code) :=
  quiet_of_none rfl nofun

@[simp] theorem quiet_getLastError : Quiet keep .getLastError := quiet_of_none rfl nofun

@[simp] theorem quiet_free (p : Ptr) : Quiet keep (.free p) := quiet_of_none rfl nofun

@[simp] theorem quiet_strdup (s : CString) : Quiet keep (.strdup s) := quiet_of_none rfl nofun

@[simp] theorem quiet_realloc (p : Ptr) (size : Nat) : Quiet keep (.realloc p size) :=
  quiet_of_none rfl nofun

theorem appendId_quiet {deviceids : Deviceids} {data : CString} :
    (appendId deviceids data).AllCalls (Quiet keep) := by
  simp [appendId]

variable {adapter id : Int} {deviceids : Deviceids}

theorem appendNetCfg_quiet (h : Held keep adapter) :
    (appendNetCfg adapter deviceids).AllCalls (Quiet keep) := by
  refine (Prog.allCalls_call_bind _ _).mpr ⟨quiet_of_held h rfl nofun, fun r => ?_⟩
  cases r with
  | error ret => exact ⟨quiet_logError .., fun _ => trivial⟩
  | ok data => exact appendId_quiet

theorem checkInstance_quiet (h : Held keep adapter) :
    (checkInstance adapter id deviceids).AllCalls (Quiet keep) := by
  refine (Prog.allCalls_call_bind _ _).mpr ⟨quiet_of_held h rfl nofun, fun r => ?_⟩
  cases r with
  | error ret => exact ⟨quiet_logError .., fun _ => trivial⟩
  | ok data =>
      dsimp only
      cases sscanfInt data (CString.lit "ROOT\\NET\\") with
      | none => trivial
      | some idx =>
          exact (Prog.allCalls_ite ..).mpr ⟨fun _ => appendNetCfg_quiet h, fun _ => trivial⟩

theorem checkValues_quiet (h : Held keep adapter) :
    (checkValues adapter id deviceids).AllCalls (Quiet keep) := by
  refine (Prog.allCalls_call_bind _ _).mpr ⟨quiet_of_held h rfl nofun, fun r => ?_⟩
  cases r with
  | error ret => trivial
  | ok data =>
      exact (Prog.allCalls_ite ..).mpr ⟨fun _ => checkInstance_quiet h, fun _ => trivial⟩

theorem freeAll_quiet (l : List (Option Candidate)) : (freeAll l).AllCalls (Quiet keep) := by
  induction l with
  | nil => trivial
  | cons entry rest ih =>
      cases entry with
      | none => trivial
      | some deviceid => exact ⟨quiet_free _, fun _ => ih⟩

/-! A transfer is started, waited for and cancelled on the same handle. -/

variable {dev : Device} {fd : Int}

theorem finishTransfer_quiet (h : Held keep fd) (started : IoRet) :
    (finishTransfer fd started).AllCalls (Quiet keep) := by
  have hwait : Quiet keep (.getOverlappedResult fd) := quiet_of_held h rfl nofun
  simp [finishTransfer, hwait]

theorem finishTransferTm_quiet (h : Held keep fd) (started : IoRet) (timeoutMs : Int) :
    (finishTransferTm fd started timeoutMs).AllCalls (Quiet keep) := by
  have hwait : ∀ timeout, Quiet keep (.getOverlappedResultEx fd timeout) :=
    fun _ => quiet_of_held h rfl nofun
  have hcancel : Quiet keep (.cancelIo fd) := quiet_of_held h rfl nofun
  simp [finishTransferTm, waitCompletionOrTimeout, giveUp, hwait, hcancel]

theorem tuntapRead_quiet (h : Held keep dev.tunFd) (size : Nat) :
    (tuntapRead dev size).AllCalls (Quiet keep) :=
  ⟨quiet_of_held h rfl nofun, fun started => finishTransfer_quiet h started⟩

theorem tuntapWrite_quiet (h : Held keep dev.tunFd) (buf : List UInt8) :
    (tuntapWrite dev buf).AllCalls (Quiet keep) :=
  ⟨quiet_of_held h rfl nofun, fun started => finishTransfer_quiet h started⟩

theorem tuntapReadTm_quiet (h : Held keep dev.tunFd) (size : Nat) (timeoutMs : Int) :
    (tuntapReadTm dev size timeoutMs).AllCalls (Quiet keep) :=
  ⟨quiet_of_held h rfl nofun, fun started => finishTransferTm_quiet h started timeoutMs⟩

theorem tuntapWriteTm_quiet (h : Held keep dev.tunFd) (buf : List UInt8) (timeoutMs : Int) :
    (tuntapWriteTm dev buf timeoutMs).AllCalls (Quiet keep) :=
  ⟨quiet_of_held h rfl nofun, fun started => finishTransferTm_quiet h started timeoutMs⟩

theorem requestFailed_quiet : requestFailed.AllCalls (Quiet keep) := by
  simp [requestFailed]

theorem tuntapSysSetUpdown_quiet (h : Held keep dev.tunFd) (flag : BitVec 32) :
    (tuntapSysSetUpdown dev flag).AllCalls (Quiet keep) := by
  refine (Prog.allCalls_call_bind _ _).mpr ⟨quiet_of_held h rfl nofun, fun r => ?_⟩
  refine (Prog.allCalls_ite ..).mpr
    ⟨fun _ => requestFailed_quiet.bind fun _ => trivial, fun _ => ?_⟩
  cases snprintf 32 _ with
  | none => trivial
  | some buf => exact ⟨quiet_log .., fun _ => trivial⟩

theorem tuntapGetHwaddr_quiet (h : Held keep dev.tunFd) (hwaddr : Buf 6) :
    (tuntapGetHwaddr hwaddr dev).AllCalls (Quiet keep) := by
  refine (Prog.allCalls_call_bind _ _).mpr ⟨quiet_of_held h rfl nofun, fun r => ?_⟩
  refine (Prog.allCalls_ite ..).mpr ⟨fun _ => by simp, fun _ => ?_⟩
  cases snprintf 128 _ with
  | none => trivial
  | some buf => exact ⟨quiet_log .., fun _ => trivial⟩

theorem tuntapSysSetIpv4_quiet (h : Held keep dev.tunFd) (s : Buf 4) (mask : BitVec 32) :
    (tuntapSysSetIpv4 dev s mask).AllCalls (Quiet keep) := by
  refine (Prog.allCalls_call_bind _ _).mpr ⟨quiet_of_held h rfl nofun, fun r => ?_⟩
  exact (Prog.allCalls_ite ..).mpr ⟨fun _ => requestFailed_quiet, fun _ => trivial⟩

theorem unsupported_quiet (msg : String) : (unsupported msg).AllCalls (Quiet keep) := by
  simp [unsupported]

end Quiet

/-! ## The search and the start -/

section Safe

variable {α : Type} {Q : α → (Int → Prop) → Prop} {own : Int → Prop}

theorem safe_of_allQuiet {p : Win α} (hp : p.AllCalls (Quiet own))
    (hQ : p.Answers fun a => Q a own) : p.Safe callHandles Q own :=
  Prog.AllCalls.safe (hp.mono fun _ hc => ⟨hc.2, hc.gives, hc.drops⟩) (fun _ h => h) hQ

theorem safe_of_quiet {c : Call} {f : Resp c → Win α} (hc : Quiet own c)
    (hf : ∀ r, (f r).Safe callHandles Q own) :
    ((Prog.call c : Win (Resp c)) >>= f).Safe callHandles Q own := by
  refine ⟨hc.2, fun r _ => ?_⟩
  rw [HandleSig.next_eq (hc.gives r) hc.drops]
  exact hf r

/-- A key is opened, used and closed again. What is owned in between has the key
in it. -/
theorem safe_regOpenKeyEx {key : CString} {f : Except Nat Int → Win α}
    (herror : ∀ ret, (f (.error ret)).Safe callHandles Q own)
    (hok : ∀ h own', Held own' h → (∀ n, own n → own' n) →
      (∀ r, callHandles.next own' (.regCloseKey h) r = own) →
      (f (.ok h)).Safe callHandles Q own') :
    (regOpenKeyEx key >>= f).Safe callHandles Q own := by
  refine ⟨nofun, fun r hfresh => ?_⟩
  cases r with
  | error ret =>
      rw [HandleSig.next_eq rfl rfl]
      exact herror ret
  | ok h =>
      refine hok h _ (fun n hn => Or.inl hn) (fun n hn => Or.inr ⟨hn, nofun⟩) fun r => ?_
      exact HandleSig.next_back rfl rfl rfl hfresh

theorem safe_regCloseKey {h : Int} {f : Nat → Win α} (hown : Held own h)
    (hf : ∀ r, (f r).Safe callHandles Q (callHandles.next own (.regCloseKey h) r)) :
    (regCloseKey h >>= f).Safe callHandles Q own :=
  ⟨hown, fun r _ => hf r⟩

/-- A search that comes to its end has closed the keys it opened. -/
def Restored (own : Int → Prop) (o : Outcome Deviceids) (own' : Int → Prop) : Prop :=
  o ≠ .crashed → own' = own

theorem visitAdapter_safe {adapters : Int} (hadapters : Held own adapters) (keyName : CString)
    (id : Int) (i : Nat) (deviceids : Deviceids) :
    (visitAdapter keyName adapters id i deviceids).Safe callHandles (Restored own) own := by
  refine safe_of_quiet (quiet_of_held hadapters rfl nofun) fun r => ?_
  cases r with
  | error ret => exact fun _ => rfl
  | ok key =>
      dsimp only
      cases snprintf maxKeyLength (keyName ++ CString.lit "\\" ++ key) with
      | none => exact fun hne => absurd rfl hne
      | some newKey =>
          refine safe_regOpenKeyEx (fun _ _ => rfl) fun adapter own' hown' _ hback => ?_
          refine Prog.Safe.bind (S := fun _ own'' => own'' = own') ?_ ?_
          · exact safe_of_allQuiet (checkValues_quiet hown')
              (Prog.answers_of_forall (fun _ => rfl) _)
          · rintro o _ rfl
            cases o with
            | crashed => exact fun hne => absurd rfl hne
            | returned deviceids => exact safe_regCloseKey hown' fun r _ => hback r

theorem walkAdapters_safe {adapters : Int} (hadapters : Held own adapters) (keyName : CString)
    (id : Int) (n i : Nat) (deviceids : Deviceids) :
    (walkAdapters keyName adapters id n i deviceids).Safe callHandles (Restored own) own := by
  induction n generalizing i deviceids with
  | zero => exact fun _ => rfl
  | succ n ih =>
      refine (visitAdapter_safe hadapters keyName id i deviceids).bind fun o own' ho => ?_
      cases o with
      | crashed => exact fun hne => absurd rfl hne
      | returned deviceids =>
          obtain rfl := ho nofun
          exact ih (i + 1) deviceids

theorem regQuery_safe (keyName : CString) (id : Int) :
    (regQuery keyName id).Safe callHandles
      (fun o own' => ∀ deviceids, o = .returned (some deviceids) → own' = own) own := by
  refine safe_of_quiet (quiet_of_none rfl nofun) fun block => ?_
  refine (Prog.safe_ite ..).mpr ⟨fun _ => nofun, fun _ => ?_⟩
  refine safe_regOpenKeyEx (fun _ => safe_of_quiet (quiet_logError ..) fun _ => nofun) ?_
  intro adapters own' hown' _ hback
  refine safe_of_quiet (quiet_of_held hown' rfl nofun) fun r => ?_
  cases r with
  | error ret => exact safe_of_quiet (quiet_logError ..) fun _ => nofun
  | ok subKeys =>
      refine (Prog.safe_ite ..).mpr
        ⟨fun _ => safe_of_quiet (quiet_log ..) fun _ => nofun, fun _ => ?_⟩
      refine (walkAdapters_safe hown' ..).bind fun o own'' ho => ?_
      cases o with
      | crashed => exact nofun
      | returned deviceids =>
          obtain rfl := ho nofun
          exact safe_regCloseKey hown' fun r _ _ => hback r

/-- What is owned once `h` is. -/
def gain (own : Int → Prop) (h n : Int) : Prop := valid h = some n ∨ own n

theorem openFirst_safe (l : List (Option Candidate)) :
    (openFirst l).Safe callHandles
      (fun o own' => ∀ h, o = .returned h → own' = gain own h) own := by
  have hnone : gain own tunfdInvalidValue = own := funext fun n => propext (or_iff_right nofun)
  induction l with
  | nil => exact nofun
  | cons entry rest ih =>
      cases entry with
      | none =>
          intro h hh
          obtain rfl := Outcome.returned.inj hh
          exact hnone.symm
      | some deviceid =>
          rw [openFirst]
          cases snprintf 60 (devicePath deviceid.text) with
          | none => exact nofun
          | some buf =>
              refine ⟨nofun, fun h _ => ?_⟩
              have hnext : callHandles.next own (.createFile buf) h = gain own h := by
                funext n
                simp [HandleSig.next, callHandles, gain]
              rw [hnext]
              refine (Prog.safe_ite ..).mpr ⟨fun _ h' hh => ?_, fun hh => ?_⟩
              · obtain rfl := Outcome.returned.inj hh
                rfl
              · obtain rfl := not_not.mp hh
                rw [hnone]
                exact ih

end Safe

/-! ## Operations -/

/-- A device owns the handle in its record, and nothing else. -/
def OwnsOnly (dev : Device) (own : Int → Prop) : Prop := ∀ n, own n ↔ valid dev.tunFd = some n

/-- What is owned, by what has become of the record. A process that ran into
undefined behaviour is not judged. -/
def Fits : Outcome Device → (Int → Prop) → Prop
  | .returned dev, own => OwnsOnly dev own
  | .crashed, _ => True

/-- What an operation leaves of the record, unless it is freed. -/
def left : Outcome Left → Option (Outcome Device)
  | .crashed => some .crashed
  | .returned (_, d) => d.map .returned

/-- A device as a client of the host. `hwaddr` is what the static array of
`tuntap_get_hwaddr` holds when the call is made. -/
def client (libc : Libc) :
    Client (Call ⊕ MoreCall) (Both Resp MoreResp) (Outcome Device) (Op × Buf 6) where
  boot := do
    let dev ← tuntapInit
    return dev.map .returned
  op
    | _, .crashed => return some .crashed
    | (op, hwaddr), .returned dev => do
        let o ← prog libc hwaddr dev op
        return left o

/-- The calls of the API that open and close nothing. -/
def QuietApi (keep : Int → Prop) : Call ⊕ MoreCall → Prop :=
  Sum.elim (Quiet keep) fun c => c.handle = none

section Operations

variable {own : Int → Prop} {dev : Device}

theorem OwnsOnly.held (h : OwnsOnly dev own) : Held own dev.tunFd := fun n hn => (h n).mpr hn

theorem QuietApi.deals {keep : Int → Prop} {c : Call ⊕ MoreCall} (h : QuietApi keep c) :
    (∀ n, handles.uses c n → keep n) ∧ (∀ r, handles.gives c r = none) ∧
      handles.drops c = none := by
  cases c with
  | inl c => exact ⟨h.2, h.gives, h.drops⟩
  | inr c =>
      have hnone : c.handle = none := h
      refine ⟨fun n hn => ?_, fun _ => rfl, hnone⟩
      have hsome : c.handle = some n := hn
      rw [hnone] at hsome
      cases hsome

theorem openCandidate_safe (hdev : dev.tunFd = tunfdInvalidValue) (hown : OwnsOnly dev own)
    (deviceids : Deviceids) :
    (openCandidate dev deviceids).Safe callHandles
      (fun o own' => ∀ n dev', o = .returned (n, dev') → OwnsOnly dev' own') own := by
  have hnone : ∀ n, ¬ own n := fun n hn => by
    have := (hown n).mp hn
    rw [hdev] at this
    cases this
  refine (openFirst_safe deviceids.entries).bind fun o own' ho => ?_
  cases o with
  | crashed => exact nofun
  | returned tunFd =>
      obtain rfl := ho tunFd rfl
      refine Prog.Safe.bind (S := fun _ own'' => own'' = gain own tunFd) ?_ ?_
      · exact safe_of_allQuiet (freeAll_quiet _) (Prog.answers_of_forall (fun _ => rfl) _)
      · rintro o _ rfl
        cases o with
        | crashed => exact nofun
        | returned u =>
            refine safe_of_quiet (quiet_free _) fun _ => (Prog.safe_ite ..).mpr ⟨fun hno => ?_, ?_⟩
            · have hsame : gain own tunFd = own := by
                rw [hno]
                exact funext fun n => propext (or_iff_right nofun)
              rw [hsame]
              refine safe_of_allQuiet ?_ ?_
              · simp
              · simpa using hown
            · intro hyes n dev' hr
              obtain ⟨-, rfl⟩ := Prod.mk.inj (Outcome.returned.inj hr)
              exact fun m => or_iff_left (hnone m)

theorem tuntapStart_safe (mode : Mode) (tun : Int) (hown : OwnsOnly dev own) :
    (tuntapStart dev mode tun).Safe callHandles
      (fun o own' => ∀ n dev', o = .returned (n, dev') → OwnsOnly dev' own') own := by
  have hfail : ∀ n dev', (Outcome.returned (-1, dev) : Outcome (Int × Device)) =
      .returned (n, dev') → OwnsOnly dev' own := by
    intro n dev' h
    obtain ⟨-, rfl⟩ := Prod.mk.inj (Outcome.returned.inj h)
    exact hown
  unfold tuntapStart
  refine (Prog.safe_ite ..).mpr ⟨fun _ => hfail, fun hdev => ?_⟩
  dsimp only
  generalize (if mode.isPersist then mode.clearPersist else mode) = m
  refine (Prog.safe_ite ..).mpr ⟨fun _ => safe_of_quiet (quiet_log ..) fun _ => hfail, fun _ => ?_⟩
  refine (Prog.safe_ite ..).mpr ⟨fun _ => safe_of_quiet (quiet_log ..) fun _ => hfail, fun _ => ?_⟩
  refine (regQuery_safe networkAdapters tun).bind fun o own' ho => ?_
  cases o with
  | crashed => exact nofun
  | returned found =>
      cases found with
      | none => exact nofun
      | some deviceids =>
          obtain rfl := ho deviceids rfl
          exact openCandidate_safe (not_not.mp hdev) hown deviceids

/-- An operation that opens and closes nothing and leaves the record as it is. -/
theorem safe_of_keeps {p : WinApi (Outcome Left)} (hown : OwnsOnly dev own)
    (hp : p.AllCalls (QuietApi own))
    (hkeep : p.Answers fun o => left o = some .crashed ∨ left o = some (.returned dev)) :
    p.Safe handles (fun o own' => World.Ends Fits (left o) own') own := by
  refine Prog.AllCalls.safe (hp.mono fun _ hc => hc.deals) (fun _ h => h) (hkeep.mono ?_)
  rintro o (ho | ho)
  · rw [ho]
    trivial
  · rw [ho]
    exact hown

/-- The same of one that goes on with what such a function answers. -/
theorem safe_of_answer {α : Type} {p : WinApi α} {f : α → WinApi (Outcome Left)}
    (hown : OwnsOnly dev own) (hp : p.AllCalls (QuietApi own))
    (hcalls : ∀ a, (f a).AllCalls (QuietApi own))
    (hkeep : ∀ a, (f a).Answers fun o => left o = some .crashed ∨ left o = some (.returned dev)) :
    (p >>= f).Safe handles (fun o own' => World.Ends Fits (left o) own') own := by
  have hany : p.Answers fun _ => True := Prog.answers_of_forall (fun _ => trivial) p
  exact safe_of_keeps hown (hp.bind hcalls) (hany.bind fun a _ => hkeep a)

theorem lift_quiet {α : Type} {p : Win α} {keep : Int → Prop} (hp : p.AllCalls (Quiet keep)) :
    (Prog.lift p : WinApi α).AllCalls (QuietApi keep) := (Prog.allCalls_lift p).mpr hp

theorem tuntapGetMtu_quiet {keep : Int → Prop} (h : Held keep dev.tunFd) :
    (tuntapGetMtu dev).AllCalls (QuietApi keep) := by
  refine ⟨rfl, fun mtu => lift_quiet ⟨quiet_of_held h rfl nofun, fun r => ?_⟩⟩
  exact (Prog.allCalls_ite ..).mpr ⟨fun _ => requestFailed_quiet, fun _ => trivial⟩

theorem netmaskWord_quiet {keep : Int → Prop} (netmask : Int) :
    (netmaskWord netmask).AllCalls (QuietApi keep) := by
  refine (Prog.allCalls_ite ..).mpr ⟨fun _ => trivial, fun _ => ?_⟩
  refine Prog.AllCalls.bind ?_ fun _ => trivial
  exact (Prog.allCalls_ite ..).mpr ⟨fun _ => ⟨rfl, fun _ => trivial⟩, fun _ => trivial⟩

theorem tuntapSetIp_quiet (libc : Libc) (hown : OwnsOnly dev own) (addr : Option CString)
    (netmask : Int) : (tuntapSetIp libc dev addr netmask).AllCalls (QuietApi own) := by
  have hlog : ∀ (level : Level) (msg : String),
      (Prog.lift (tuntapLog level msg) : WinApi Unit).AllCalls (QuietApi own) :=
    fun _ _ => lift_quiet ⟨quiet_log .., fun _ => trivial⟩
  unfold tuntapSetIp
  refine (Prog.allCalls_ite ..).mpr ⟨fun _ => (hlog ..).bind fun _ => trivial, fun _ => ?_⟩
  cases addr with
  | none => exact (hlog ..).bind fun _ => trivial
  | some addr =>
      dsimp only
      refine (Prog.allCalls_ite ..).mpr ⟨fun _ => (hlog ..).bind fun _ => trivial, fun _ => ?_⟩
      cases libc.inetPton4 addr with
      | some baddr4 =>
          exact (netmaskWord_quiet netmask).bind fun mask =>
            lift_quiet (tuntapSysSetIpv4_quiet hown.held baddr4 mask)
      | none =>
          cases libc.inetPton6 addr with
          | some baddr6 => exact lift_quiet (unsupported_quiet _)
          | none => exact (hlog ..).bind fun _ => trivial

theorem tuntapRelease_safe (hown : OwnsOnly dev own) :
    (tuntapRelease dev).Safe handles (fun _ own' => ∀ n, ¬ own' n) own := by
  refine ⟨hown.held, fun closed _ => ⟨nofun, fun _ _ n hn => ?_⟩⟩
  -- what is left is what was owned, without the one handle that was
  rcases hn with hn | ⟨hn | ⟨hn, hne⟩, -⟩
  · cases hn
  · cases hn
  · exact hne ((hown n).mp hn)

theorem prog_safe (libc : Libc) (hwaddr : Buf 6) (op : Op) (hown : OwnsOnly dev own) :
    (prog libc hwaddr dev op).Safe handles (fun o own' => World.Ends Fits (left o) own') own := by
  have hint : ∀ {p : WinApi Int}, p.AllCalls (QuietApi own) → _ := fun {p} hp =>
    safe_of_answer (p := p) (f := fun n => .ret (keepInt dev n)) hown hp (fun _ => trivial)
      fun _ => Or.inr rfl
  have hquiet : ∀ {p : Win Int}, p.AllCalls (Quiet own) → _ := fun hp => hint (lift_quiet hp)
  cases op with
  | start mode tun =>
      refine (HandleSig.safe_lift.mpr (tuntapStart_safe mode tun hown)).bind fun o own' ho => ?_
      cases o with
      | crashed => trivial
      | returned r => exact ho r.1 r.2 rfl
  | release | destroy => exact (tuntapRelease_safe hown).bind fun _ _ h => h
  | setDescr | setIfname | setHwaddr | setMtu | getReadable | setNonblocking | setDebug =>
      exact hquiet (unsupported_quiet _)
  | getDescr => exact safe_of_keeps hown ⟨quiet_log .., fun _ => trivial⟩ fun _ => Or.inr rfl
  | getIfname | getFd => exact hown
  | getHwaddr =>
      refine safe_of_answer hown (lift_quiet (tuntapGetHwaddr_quiet hown.held hwaddr))
        (fun o => ?_) fun o => ?_
      · cases o with
        | crashed => trivial
        | returned a => trivial
      · cases o with
        | crashed => exact Or.inl rfl
        | returned a => exact Or.inr rfl
  | up | down =>
      refine safe_of_answer hown (lift_quiet (tuntapSysSetUpdown_quiet hown.held _))
        (fun _ => trivial) fun o => ?_
      cases o with
      | crashed => exact Or.inl rfl
      | returned n => exact Or.inr rfl
  | getMtu => exact hint (tuntapGetMtu_quiet hown.held)
  | setIp addr netmask => exact hint (tuntapSetIp_quiet libc hown addr netmask)
  | read size => exact hquiet (tuntapRead_quiet hown.held size)
  | readTm size timeoutMs => exact hquiet (tuntapReadTm_quiet hown.held size timeoutMs)
  | write buf => exact hquiet (tuntapWrite_quiet hown.held buf)
  | writeTm buf timeoutMs => exact hquiet (tuntapWriteTm_quiet hown.held buf timeoutMs)

end Operations

/-! ## Runs -/

theorem client_accounts (libc : Libc) :
    World.Accounts handles (client libc) Fits fun _ _ => True where
  boot := by
    refine ⟨nofun, fun found _ => ?_⟩
    rw [show handles.next (fun _ => False) (.inr .mallocDevice) found = fun _ => False from
      HandleSig.next_eq rfl rfl]
    cases found with
    | false => exact fun _ => id
    | true => exact fun n => iff_of_false id nofun
  op o life own hinv _ := by
    obtain ⟨op, hwaddr⟩ := o
    cases life with
    | crashed => trivial
    | returned dev => exact (prog_safe libc hwaddr op hinv).bind fun _ _ h => h

/-- In every run of any number of devices each handle passed is the device's own
and open. A device owns the handle in its record and no other, and one that is
freed owns none. -/
theorem handles_owned_in_runs {ι : Type} [DecidableEq ι] (libc : Libc)
    {w w' : World ι (Call ⊕ MoreCall) (Both Resp MoreResp) Int (Outcome Device)}
    {tr : List (World ι (Call ⊕ MoreCall) (Both Resp MoreResp) Int (Outcome Device) ×
      Label ι (Call ⊕ MoreCall) (Both Resp MoreResp) Int (Op × Buf 6) ×
      World ι (Call ⊕ MoreCall) (Both Resp MoreResp) Int (Outcome Device))}
    (hr : Run (World.Step handles (client libc)) w tr w') (h0 : ∀ i, w.slot i = .fresh)
    (hnone : ∀ i n, w.table n ≠ some (.client i)) :
    (∀ x ∈ tr, ∀ i e, x.2.1 = .event i e → ∀ n, handles.uses e.1 n →
      x.1.table n = some (.client i)) ∧
    ∀ i, (∀ dev, w'.slot i = .idle (.returned dev) →
        ∀ n, w'.table n = some (.client i) ↔ valid dev.tunFd = some n) ∧
      (w'.slot i = .gone → ∀ n, w'.table n ≠ some (.client i)) := by
  have hstart : World.All (World.Accounted handles Fits) w := by
    intro i
    rw [h0 i]
    exact hnone i
  obtain ⟨hend, huses⟩ := World.local_run (client_accounts libc).local handles_uses_of_drops hr
    hstart fun _ _ _ _ _ _ _ => trivial
  refine ⟨huses, fun i => ⟨fun dev hdev n => ?_, fun hgone n => ?_⟩⟩
  · have h := hend i
    rw [hdev] at h
    exact h n
  · have h := hend i
    rw [hgone] at h
    exact h n

/-- An adapter is found and opened, at the number the first key had, and the
device is released. -/
theorem handles_owned_in_released_run :
    ∃ tr w', Run (World.Step (ι := Unit) handles (client Libc.refusing))
        ⟨fun _ => none, fun _ => .fresh⟩ tr w' ∧ tr.length = 24 ∧
      (∀ x ∈ tr, ∀ i e, x.2.1 = .event i e → ∀ n, handles.uses e.1 n →
        x.1.table n = some (.client i)) ∧
      ∀ i, (∀ dev, w'.slot i = .idle (.returned dev) →
          ∀ n, w'.table n = some (.client i) ↔ valid dev.tunFd = some n) ∧
        (w'.slot i = .gone → ∀ n, w'.table n ≠ some (.client i)) := by
  obtain ⟨tr, w', hr, hlen⟩ :
      ∃ tr w', Run (World.Step (ι := Unit) handles (client Libc.refusing))
          ⟨fun _ => none, fun _ => .fresh⟩ tr w' ∧ tr.length = 24 := by
    refine ⟨_, _,
      .cons (.create (i := ()) rfl) <|
      .cons (.event (i := ()) (r := true) rfl nofun) <|
      .cons (.finish (i := ()) rfl) <|
      .cons (.begin (i := ()) (o := (.start tuntapModeEthernet 0, Buf.zero)) rfl) <|
      .cons (.event (i := ()) (c := .inl (.malloc _)) (r := (8 : Nat)) rfl nofun) <|
      .cons (.event (i := ()) (c := .inl (.regOpenKeyEx _)) (r := .ok (3 : Int)) rfl
        fun _ _ => rfl) <|
      .cons (.event (i := ()) (c := .inl (.regQueryInfoKey _)) (r := .ok (1 : Nat)) rfl nofun) <|
      .cons (.event (i := ()) (c := .inl (.regEnumKeyEx ..)) (r := .ok (CString.lit "0001"))
        rfl nofun) <|
      .cons (.event (i := ()) (c := .inl (.regOpenKeyEx _)) (r := .ok (4 : Int)) rfl
        (by intro n hn; cases hn; rfl)) <|
      .cons (.event (i := ()) (c := .inl (.regQueryValueEx ..)) (r := .ok (CString.lit "tap0901"))
        rfl nofun) <|
      .cons (.event (i := ()) (c := .inl (.regQueryValueEx ..))
        (r := .ok (CString.lit "ROOT\\NET\\0000")) rfl nofun) <|
      .cons (.event (i := ()) (c := .inl (.regQueryValueEx ..)) (r := .ok (CString.lit "id"))
        rfl nofun) <|
      .cons (.event (i := ()) (c := .inl (.strdup _)) (r := (16 : Nat)) rfl nofun) <|
      .cons (.event (i := ()) (c := .inl (.realloc ..)) (r := (24 : Nat)) rfl nofun) <|
      .cons (.event (i := ()) (c := .inl (.regCloseKey _)) (r := (0 : Nat)) rfl nofun) <|
      .cons (.event (i := ()) (c := .inl (.regCloseKey _)) (r := (0 : Nat)) rfl nofun) <|
      .cons (.event (i := ()) (c := .inl (.createFile _)) (r := (3 : Int)) rfl
        (by intro n hn; cases hn; rfl)) <|
      .cons (.event (i := ()) (c := .inl (.free _)) (r := ()) rfl nofun) <|
      .cons (.event (i := ()) (c := .inl (.free _)) (r := ()) rfl nofun) <|
      .cons (.finish (i := ()) rfl) <|
      .cons (.begin (i := ()) (o := (.release, Buf.zero)) rfl) <|
      .cons (.event (i := ()) (c := .inr (.closeHandle _)) (r := true) rfl nofun) <|
      .cons (.event (i := ()) (c := .inr .freeDevice) (r := ()) rfl nofun) <|
      .cons (.finish (i := ()) rfl) <| .nil _, ?_⟩
    rfl
  exact ⟨tr, w', hr, hlen, handles_owned_in_runs Libc.refusing hr (fun _ => rfl) fun _ _ => nofun⟩

end Libtuntap.Windows
