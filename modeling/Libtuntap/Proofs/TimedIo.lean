import Libtuntap.Windows.Driver

/-!
# Timed transfers

A timed transfer that runs into its timeout asks for the cancellation of its
request and returns at once. What it leaves behind is the driver's choice: the
request may still be pending, with the buffer and the `OVERLAPPED` of a frame
that is gone, or it may have been completed after all, and its packet is lost.
Only where the driver has cancelled or failed it by then is the -1 the truth.

Where the wait is not cut short, the answer is the number of bytes, as long as
an `int` holds it.
-/

namespace Libtuntap.Windows

open Effect CMem

/-- The timed transfers. -/
inductive Timed (dev : Device) (timeoutMs : Int) : Win Int → Prop where
  | read (size : Nat) : Timed dev timeoutMs (tuntapReadTm dev size timeoutMs)
  | write (buf : List UInt8) : Timed dev timeoutMs (tuntapWriteTm dev buf timeoutMs)

/-- The request is not outstanding, and the answer is what became of it. -/
structure Settled (v : Int) (s : Io) : Prop where
  done : s.request ≠ .pending
  completed : ∀ len, s.request = .completed len → v = len.toNat
  refused : v = -1 → ∀ len, s.request ≠ .completed len

/-- The request is settled before the wait ends, or the driver cancels or fails
it before the function returns; and an `int` holds the number of bytes. -/
def InTime (s : Io) : Prop :=
  (s.timedOut = true → s.request = .cancelled ∨ s.request = .failed) ∧
    ∀ len, s.request = .completed len → len.toNat < 2 ^ 31

/-- What a timed transfer answers. -/
def Answered (v : Int) (s : Io) : Prop :=
  s.timedOut = true ∧ v = -1 ∧ s.request ≠ .unissued ∨
    s.timedOut = false ∧ ((∃ len, s.request = .completed len ∧ v = len.toInt) ∨
      (s.request = .failed ∨ s.request = .cancelled) ∧ v = -1)

section Transfer

variable {s s' : Io} {v : Int} {fd : Int} {timeoutMs : Int}

/-- The driver moves only a request that is pending. -/
theorem Driver.pending (h : Driver s s') : s.request = .pending := by
  cases h <;> assumption

theorem Answered.driver (h : Answered v s) (hstep : Driver s s') : Answered v s' := by
  have hpending := hstep.pending
  rcases h with ⟨htimed, hv, -⟩ | ⟨-, ⟨len, hdone, -⟩ | ⟨hdone | hdone, -⟩⟩
  · refine Or.inl ?_
    cases hstep <;> exact ⟨htimed, hv, by simp⟩
  · rw [hpending] at hdone
    cases hdone
  · rw [hpending] at hdone
    cases hdone
  · rw [hpending] at hdone
    cases hdone

/-- A request that came to nothing. -/
theorem Settled.of_ended (h : s.request = .cancelled ∨ s.request = .failed) : Settled v s := by
  have hne : s.request ≠ .pending ∧ ∀ len, s.request ≠ .completed len := by
    rcases h with h | h
    · rw [h]
      exact ⟨by decide, fun _ hno => by cases hno⟩
    · rw [h]
      exact ⟨by decide, fun _ hno => by cases hno⟩
  exact ⟨hne.1, fun len hdone => absurd hdone (hne.2 len), fun _ => hne.2⟩

/-- A request that was completed in time. -/
theorem settled_completed_iff {len : BitVec 32} (hdone : s.request = .completed len)
    (hv : v = len.toInt) : Settled v s ↔ len.toNat < 2 ^ 31 := by
  have hint := BitVec.toInt_eq_toNat_cond len
  constructor
  · intro h
    have heq := h.completed len hdone
    by_contra hge
    rw [if_neg (by omega)] at hint
    omega
  · intro hlt
    rw [if_pos (by omega)] at hint
    have hnat : v = len.toNat := hv.trans hint
    refine ⟨?_, fun len' hdone' => ?_, fun hneg => by omega⟩
    · rw [hdone]
      intro hno
      cases hno
    · obtain rfl := Request.completed.inj (hdone.symm.trans hdone')
      exact hnat

theorem settled_iff (h : Answered v s) : Settled v s ↔ InTime s := by
  rcases h with ⟨htimed, hv, hissued⟩ | ⟨htimed, ⟨len, hdone, hv⟩ | ⟨hended, hv⟩⟩
  · constructor
    · intro hsettled
      have hnot := hsettled.refused hv
      refine ⟨fun _ => ?_, fun len hlen => absurd hlen (hnot len)⟩
      cases hrequest : s.request with
      | unissued => exact absurd hrequest hissued
      | pending => exact absurd hrequest hsettled.done
      | completed len => exact absurd hrequest (hnot len)
      | failed => exact Or.inr rfl
      | cancelled => exact Or.inl rfl
    · exact fun hin => .of_ended (hin.1 htimed)
  · rw [settled_completed_iff hdone hv]
    constructor
    · refine fun hlt => ⟨fun hexpired => ?_, fun len' hdone' => ?_⟩
      · rw [htimed] at hexpired
        cases hexpired
      · obtain rfl := Request.completed.inj (hdone.symm.trans hdone')
        exact hlt
    · exact fun hin => hin.2 len hdone
  · have hend : s.request = .cancelled ∨ s.request = .failed := hended.symm
    refine iff_of_true (.of_ended hend) ⟨fun _ => hend, fun len hdone => ?_⟩
    rcases hend with hend | hend
    · rw [hend] at hdone
      cases hdone
    · rw [hend] at hdone
      cases hdone

end Transfer

/-! ## The run -/

section Run

variable {s s' : Io} {v : Int} {fd : Int} {timeoutMs : Int}

abbrev amid : Kernel Call Resp Io := io.interleaved Driver

/-- The driver's moves keep what it does not touch. -/
theorem steps_keep (h : Relation.ReflTransGen Driver s s') : s'.timedOut = s.timedOut ∧
    s'.lastError = s.lastError ∧ (s.request ≠ .unissued → s'.request ≠ .unissued) ∧
      (s.request ≠ .pending → s' = s) := by
  induction h with
  | refl => exact ⟨rfl, rfl, id, fun _ => rfl⟩
  | tail _ hstep ih =>
      obtain ⟨htimed, herror, hissued, hsame⟩ := ih
      have hpending := hstep.pending
      have hno : s.request = .pending := by
        by_contra hne
        rw [hsame hne] at hpending
        exact hne hpending
      cases hstep <;> exact ⟨htimed, herror, fun _ => by simp, fun hne => absurd hno hne⟩

/-- Before the call the driver has nothing to move. -/
theorem steps_start (h : Relation.ReflTransGen Driver Io.start s) : s = Io.start :=
  (steps_keep h).2.2.2 (by decide)

/-- The request is out, and no wait has ended before it. -/
structure Issued (s : Io) : Prop where
  issued : s.request ≠ .unissued
  waiting : s.timedOut = false

theorem Issued.steps (h : Issued s) (hsteps : Relation.ReflTransGen Driver s s') : Issued s' := by
  obtain ⟨htimed, -, hissued, -⟩ := steps_keep hsteps
  exact ⟨hissued h.issued, htimed.trans h.waiting⟩

/-- What is returned after a message. -/
theorem logged_wp {level : Level} {code : Nat} (h : Answered (-1) s) :
    (logError level code >>= fun _ => Prog.ret (-1 : Int) : Win Int).Wp amid Answered s := by
  intro _ t hlog
  obtain ⟨m, hsteps, rfl⟩ := hlog
  exact stable_of_steps (fun _ _ hstep hm => hm.driver hstep) hsteps h

/-- The wait has ended first, with one of the two codes that say so. -/
theorem giveUp_wp_expired (hexpired : s.timedOut = true) (hissued : s.request ≠ .unissued)
    (hcode : s.lastError = errorIoIncomplete ∨ s.lastError = waitTimeout) :
    (giveUp fd).Wp amid Answered s := by
  unfold giveUp
  refine (Prog.wp_call_bind _ _).mpr fun code t hlast => ?_
  obtain ⟨m, hsteps, rfl, rfl⟩ := hlast
  obtain ⟨htimed, herror, hkept, -⟩ := steps_keep hsteps
  rw [herror]
  refine (Prog.wp_ite _ _ _).mpr ⟨fun _ => ?_, fun hno => absurd hcode hno⟩
  intro _ u hcancel
  obtain ⟨n, hsteps', rfl⟩ := hcancel
  obtain ⟨htimed', -, hkept', -⟩ := steps_keep hsteps'
  exact Or.inl ⟨(htimed'.trans htimed).trans hexpired, rfl, hkept' (hkept hissued)⟩

/-- The request has come to nothing, with a code of its own. -/
theorem giveUp_wp_refused (hs : Answered (-1) s) (hrequest : s.request ≠ .pending)
    (hcode : ¬ (s.lastError = errorIoIncomplete ∨ s.lastError = waitTimeout)) :
    (giveUp fd).Wp amid Answered s := by
  unfold giveUp
  refine (Prog.wp_call_bind _ _).mpr fun code t hlast => ?_
  obtain ⟨m, hsteps, rfl, rfl⟩ := hlast
  obtain rfl := (steps_keep hsteps).2.2.2 hrequest
  refine (Prog.wp_ite _ _ _).mpr ⟨fun hyes => absurd hyes hcode, fun _ => ?_⟩
  exact logged_wp hs

/-- The request has come to nothing. -/
def Io.Ended (s : Io) : Prop := s.request = .failed ∨ s.request = .cancelled

theorem Io.Ended.ne_pending (h : s.Ended) : s.request ≠ .pending := by
  rcases h with hrequest | hrequest
  · rw [hrequest]
    decide
  · rw [hrequest]
    decide

/-- A report is one of a completed request or of one that has ended. -/
theorem Io.Reports.cases {r : IoRet} (h : Issued s) (hreports : s.Reports r s') :
    (∃ len, s.request = .completed len ∧ r = ⟨true, len⟩ ∧ s' = s) ∨
      s.Ended ∧ r.ok = false ∧ ∃ code : Nat, code ≠ errorIoIncomplete ∧ code ≠ waitTimeout ∧
        s' = { s with lastError := code } := by
  unfold Io.Reports at hreports
  cases hrequest : s.request with
  | unissued => exact absurd hrequest h.issued
  | pending =>
      rw [hrequest] at hreports
      exact hreports.elim
  | completed len =>
      rw [hrequest] at hreports
      exact Or.inl ⟨len, rfl, hreports⟩
  | failed =>
      simp only [hrequest] at hreports
      exact Or.inr ⟨Or.inl hrequest, hreports⟩
  | cancelled =>
      simp only [hrequest] at hreports
      exact Or.inr ⟨Or.inr hrequest, hreports⟩

theorem waitCompletionOrTimeout_wp (h : Issued s) :
    (waitCompletionOrTimeout fd timeoutMs).Wp amid Answered s := by
  unfold waitCompletionOrTimeout
  refine (Prog.wp_call_bind _ _).mpr fun r t hwait => ?_
  obtain ⟨m, hsteps, hreply⟩ := hwait
  have hm := h.steps hsteps
  rcases hreply with hreports | ⟨hpending, -, hok, rfl⟩
  · rcases hreports.cases hm with ⟨len, hdone, rfl, rfl⟩ |
      ⟨hended, hok, code, hincomplete, htimeout, rfl⟩
    · exact Or.inr ⟨hm.waiting, Or.inl ⟨len, hdone, rfl⟩⟩
    · rw [if_pos hok]
      exact giveUp_wp_refused (Or.inr ⟨hm.waiting, Or.inr ⟨hended, rfl⟩⟩) hended.ne_pending
        (not_or.mpr ⟨hincomplete, htimeout⟩)
  · rw [if_pos hok]
    refine giveUp_wp_expired rfl ?_ (ite_eq_or_eq _ _ _)
    show m.request ≠ .unissued
    rw [hpending]
    decide

/-- From the reply to `ReadFile` or `WriteFile` on. -/
theorem finishTransferTm_wp {started : IoRet} (h : Io.start.Starts started s) :
    (finishTransferTm fd started timeoutMs).Wp amid Answered s := by
  unfold finishTransferTm
  rcases h with ⟨hok, rfl⟩ | ⟨hok, rfl⟩ | ⟨hok, code, hcode, rfl⟩
  · rw [if_pos hok]
    exact Or.inr ⟨rfl, Or.inl ⟨started.len, rfl, rfl⟩⟩
  · rw [if_neg (by rw [hok]; decide)]
    refine (Prog.wp_call_bind _ _).mpr fun errcode t hlast => ?_
    obtain ⟨m, hsteps, rfl, rfl⟩ := hlast
    have hissued : Issued { Io.start with request := .pending, lastError := errorIoPending } :=
      ⟨by decide, rfl⟩
    have herror := (steps_keep hsteps).2.1
    refine (Prog.wp_ite _ _ _).mpr ⟨fun hno => absurd herror hno, fun _ => ?_⟩
    exact waitCompletionOrTimeout_wp (hissued.steps hsteps)
  · rw [if_neg (by rw [hok]; decide)]
    refine (Prog.wp_call_bind _ _).mpr fun errcode t hlast => ?_
    obtain ⟨m, hsteps, rfl, rfl⟩ := hlast
    obtain rfl := (steps_keep hsteps).2.2.2 (show Request.failed ≠ .pending by decide)
    refine (Prog.wp_ite _ _ _).mpr ⟨fun _ => ?_, fun hno => absurd hcode hno⟩
    exact logged_wp (Or.inr ⟨rfl, Or.inr ⟨Or.inl rfl, rfl⟩⟩)

theorem timed_wp {dev : Device} {p : Win Int} (h : Timed dev timeoutMs p) :
    p.Wp amid Answered Io.start := by
  cases h with
  | read size =>
      refine (Prog.wp_call_bind _ _).mpr fun started s hstarts => ?_
      obtain ⟨m, hsteps, hstarts⟩ := hstarts
      obtain rfl := steps_start hsteps
      exact finishTransferTm_wp hstarts
  | write buf =>
      refine (Prog.wp_call_bind _ _).mpr fun started s hstarts => ?_
      obtain ⟨m, hsteps, hstarts⟩ := hstarts
      obtain rfl := steps_start hsteps
      exact finishTransferTm_wp hstarts

end Run

section Settling

variable {s : Io} {v : Int} {timeoutMs : Int} {dev : Device} {p : Win Int}

/-- For every order in which the driver, the timeout and the cancellation come,
a timed transfer settles its request and tells its outcome exactly when the
request is settled in time. -/
theorem timed_settled_iff (hp : Timed dev timeoutMs p) (hr : p.RunsAmid Driver io Io.start v s) :
    Settled v s ↔ InTime s :=
  settled_iff (hr.of_wp (timed_wp hp) fun _ hm _ hstep => hm.driver hstep)

/-- The program may end like this, with nothing more happening before the
return. -/
theorem runsAmid_of_may {Q : Int → Io → Prop} (h : p.May amid Q Io.start) :
    ∃ v s, p.RunsAmid Driver io Io.start v s ∧ Q v s := by
  obtain ⟨tr, v, s, hr, hs, hQ⟩ := (Prog.may_iff p).mp h
  exact ⟨v, s, ⟨tr, s, hr, hs, .refl⟩, hQ⟩

/-- A read left to the driver. -/
def Io.reading : Io := { Io.start with request := .pending, lastError := errorIoPending }

/-- A packet of 60 bytes arrives during the wait. -/
theorem timed_settled_packet : ∃ v s,
    (tuntapReadTm Device.init 1500 100).RunsAmid Driver io Io.start v s ∧
      s.request = .completed 60 ∧ Settled v s := by
  have hmay : (tuntapReadTm Device.init 1500 100).May amid
      (fun _ s => s = { Io.reading with request := .completed 60 }) Io.start := by
    refine ⟨⟨false, 0⟩, Io.reading, ⟨_, .refl, Or.inr (Or.inl ⟨rfl, rfl⟩)⟩, ?_⟩
    refine ⟨errorIoPending, Io.reading, ⟨_, .refl, rfl, rfl⟩, ?_⟩
    refine ⟨⟨true, 60⟩, _, ⟨_, .single (.complete 60 rfl), Or.inl ⟨rfl, rfl⟩⟩, ?_⟩
    rfl
  obtain ⟨v, s, hr, rfl⟩ := runsAmid_of_may hmay
  refine ⟨v, _, hr, rfl, (timed_settled_iff (.read 1500) hr).mpr ⟨fun hexpired => ?_, ?_⟩⟩
  · cases hexpired
  · intro len hlen
    obtain rfl := Request.completed.inj hlen
    decide

/-- A packet that arrives between the timeout and the cancellation is lost. -/
theorem timed_loses_packet : ¬ ∀ (dev : Device) (timeoutMs : Int) (p : Win Int) (v : Int)
    (s : Io), Timed dev timeoutMs p → p.RunsAmid Driver io Io.start v s → Settled v s := by
  intro hclaim
  have hmay : (tuntapReadTm Device.init 1500 100).May amid
      (fun v s => v = -1 ∧ s.request = .completed 60) Io.start := by
    refine ⟨⟨false, 0⟩, Io.reading, ⟨_, .refl, Or.inr (Or.inl ⟨rfl, rfl⟩)⟩, ?_⟩
    refine ⟨errorIoPending, Io.reading, ⟨_, .refl, rfl, rfl⟩, ?_⟩
    refine ⟨⟨false, 0⟩, _, ⟨_, .refl, Or.inr ⟨rfl, by decide, rfl, rfl⟩⟩, ?_⟩
    refine ⟨waitTimeout, _, ⟨_, .single (.complete 60 rfl), rfl, rfl⟩, ?_⟩
    refine ⟨true, _, ⟨_, .refl, rfl⟩, ?_⟩
    exact ⟨rfl, rfl⟩
  obtain ⟨v, s, hr, hv, hdone⟩ := runsAmid_of_may hmay
  exact (hclaim _ _ _ _ _ (.read 1500) hr).refused hv 60 hdone

end Settling

end Libtuntap.Windows
