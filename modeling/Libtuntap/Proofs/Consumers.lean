import Libtuntap.Effect.Run
import Libtuntap.Effect.Threads
import Libtuntap.Unix.Api
import Libtuntap.Unix.Kernel

/-!
# Consumers of one device

`tuntap_read_tm` waits with `select` and then reads. What `select` has seen is
true when it returns, and the `read` comes later. A thread that is alone with
the device finds its packet still there. Another consumer may take it in
between, and a descriptor in blocking mode then waits for the next packet, with
no timeout left to end it.

A consumer is in one of four phases, and the phase is all that the invariant has
to know of it: before its `select`, before its `read`, or behind it, where
nothing but messages is left. An untimed read starts in the second. Since a
thread gets to its read over a `select` that has seen a packet, the queue is
empty there only if somebody has emptied it since, and the step that does so is
the one the condition is about.
-/

namespace Libtuntap

open Effect CMem

/-- The calls that take packets from a device. -/
inductive Consumer where
  | readTm (size timeoutMs : Nat)
  | read (size : Nat)

def Consumer.op : Consumer → Op
  | .readTm size timeoutMs => .readTm size timeoutMs
  | .read size => .read size

def Consumer.IsTimed : Consumer → Prop
  | .readTm .. => True
  | .read _ => False

/-- What a descriptor in blocking mode promises: `select` reports it readable
only when a packet waits on it, and a `read` never says that it would block. -/
def Blocking (k : Kern) : (c : Call) → Resp c → Prop
  | .select _ fd true .., res => 0 < res → ∃ i f, k.Attached fd i f ∧ f.queue ≠ []
  | .read .., r => r.ret = -1 → r.errno ≠ .eagain
  | _, _ => True

/-- The kernel under descriptors in blocking mode. -/
def blocking (R : Rules) : Kernel Call Resp Kern := fun k c r k' =>
  Blocking k c r ∧ kernel R k c r k'

/-- A packet arrives. -/
def Arrives (fd : Int) (k k' : Kern) : Prop :=
  ∃ i f packet, k.Attached fd i f ∧ k.Put k' i { f with queue := f.queue ++ [packet] }

section Pool

variable (ι : Type)

/-- The threads that consume from one device. -/
abbrev Consumers := Pool ι Consumer Call Resp (Ret × Option Device) Kern

abbrev ConsumerMove := Move ι Consumer Call Resp (Ret × Option Device)

end Pool

/-- The next call of the program is its `read`. -/
def AtRead : Sys (Ret × Option Device) → Prop
  | .sys (.read ..) _ => True
  | _ => False

section Consumers

variable {ι : Type} {R : Rules} {libc : Libc} {dev : Device}

/-- A timed call is at its read. -/
def TimedAtRead (s : Consumers ι) (i : ι) : Prop :=
  ∃ c p, s.thread i = some (c, p) ∧ c.IsTimed ∧ AtRead p

/-- The packets that wait on a descriptor. -/
def Kern.Queued (k : Kern) (fd : Int) (packets : List (List UInt8)) : Prop :=
  ∃ i f, k.Attached fd i f ∧ f.queue = packets

/-- A timed call is at its read while the queue is empty. -/
def Overdue (dev : Device) (s : Consumers ι) : Prop :=
  s.kern.Queued dev.tunFd [] ∧ ∃ i, TimedAtRead s i

/-- If the step takes the last packet, no timed call of another thread is at its
read. -/
def SparesOthers (dev : Device) (s : Consumers ι) : ConsumerMove ι → Prop
  | .call i ⟨.read _ size, r⟩ => size ≠ 0 → r.ret ≠ -1 →
      (∃ packet, s.kern.Queued dev.tunFd [packet]) → ∀ j, j ≠ i → ¬ TimedAtRead s j
  | _ => True

/-- The steps of the consumers, with packets arriving between them. -/
abbrev ConsumerStep [DecidableEq ι] (R : Rules) (libc : Libc) (dev : Device) :
    Consumers ι → ConsumerMove ι → Consumers ι → Prop :=
  Pool.Step (fun c => c.op.prog R.os libc dev) (blocking R) (Arrives dev.tunFd)

/-! ## The phases of a consumer -/

/-- What is left of a call that was made to consume from `fd`. -/
inductive Phase (fd : Int) : Sys (Ret × Option Device) → Prop where
  | waiting {nfds sec usec : Int} {k : Int → Sys (Ret × Option Device)} :
      (∀ res, Phase fd (k res)) → (∀ res, AtRead (k res) → 0 < res) →
      Phase fd (.sys (.select nfds fd true sec usec) k)
  | reading {size : Nat} {k : ReadRet → Sys (Ret × Option Device)} :
      (∀ r, Phase fd (k r)) → (∀ r, ¬ AtRead (k r)) → Phase fd (.sys (.read fd size) k)
  | logging {level : Level} {msg : CString} {k : Unit → Sys (Ret × Option Device)} :
      Phase fd (k ()) → ¬ AtRead (k ()) → Phase fd (.sys (.log level msg) k)
  | done (a : Ret × Option Device) : Phase fd (.ret a)

section Phases

/-- A message, then an answer. -/
theorem phase_logged (fd : Int) (level : Level) (msg : String) (a : Ret × Option Device) :
    Phase fd (tuntapLog level msg >>= fun _ => Prog.ret a) :=
  .logging (.done a) id

/-- From the `read` on. -/
theorem readPacket_bind (size : Nat) (f : Int × List UInt8 → Ret × Option Device) :
    (readPacket dev size >>= fun r => Prog.ret (f r)) =
      .sys (.read dev.tunFd size) fun r =>
        if r.ret = -1 then
          if r.errno ≠ .eagain then
            tuntapLog .warn "Can't to read from device" >>= fun _ => Prog.ret (f (-1, r.data))
          else Prog.ret (f (-1, r.data))
        else Prog.ret (f (r.ret, r.data)) := by
  simp only [readPacket, Prog.pure_eq, Prog.bind_assoc, Prog.ite_bind, Prog.ret_bind]
  rfl

theorem phase_readPacket (size : Nat) (f : Int × List UInt8 → Ret × Option Device) :
    Phase dev.tunFd (readPacket dev size >>= fun r => Prog.ret (f r)) := by
  rw [readPacket_bind]
  refine .reading (fun r => ?_) fun r => ?_
  · split
    · split
      · exact phase_logged ..
      · exact .done _
    · exact .done _
  · split
    · split <;> exact id
    · exact id

/-- The wait of a started device, in front of its read. -/
theorem readTm_bind {os : Os} (hdev : dev.tunFd ≠ -1) (size timeoutMs : Nat) :
    (Op.readTm size timeoutMs).prog os libc dev =
      .sys (.select (dev.tunFd + 1) dev.tunFd true ((timeoutMs : Int) / 1000)
          ((timeoutMs : Int) % 1000 * 1000)) fun res =>
        if res < 0 then
          tuntapLog .notice "Can't run select on device" >>= fun _ =>
            Prog.ret (keep dev (.bytes (-1) []))
        else if res = 0 then Prog.ret (keep dev (.bytes (-1) []))
        else readPacket dev size >>= fun r => Prog.ret (keep dev (.bytes r.1 r.2)) := by
  have htimeout : ¬ (timeoutMs : Int) < 0 := by omega
  simp only [Op.prog, tuntapReadTm, waitReadyEventOrTimeout, if_neg hdev, if_neg htimeout,
    Prog.pure_eq, Prog.bind_assoc, Prog.ite_bind, Prog.ret_bind]
  rfl

theorem read_bind {os : Os} (hdev : dev.tunFd ≠ -1) (size : Nat) :
    (Op.read size).prog os libc dev =
      readPacket dev size >>= fun r => Prog.ret (keep dev (.bytes r.1 r.2)) := by
  simp only [Op.prog, tuntapRead, if_neg hdev, Prog.pure_eq]

theorem phase_readTm (hdev : dev.tunFd ≠ -1) (size timeoutMs : Nat) :
    Phase dev.tunFd ((Op.readTm size timeoutMs).prog R.os libc dev) := by
  rw [readTm_bind hdev]
  refine .waiting (fun res => ?_) fun res hread => ?_
  · split
    · exact phase_logged ..
    · split
      · exact .done _
      · exact phase_readPacket ..
  · by_contra hle
    by_cases hneg : res < 0
    · rw [if_pos hneg] at hread
      exact hread
    · rw [if_neg hneg, if_pos (show res = 0 by omega)] at hread
      exact hread

/-- Every consumer of a started device starts in a phase. -/
theorem phase_entry (hdev : dev.tunFd ≠ -1) (c : Consumer) :
    Phase dev.tunFd (c.op.prog R.os libc dev) := by
  cases c with
  | readTm size timeoutMs => exact phase_readTm hdev size timeoutMs
  | read size =>
      show Phase dev.tunFd ((Op.read size).prog R.os libc dev)
      rw [read_bind hdev]
      exact phase_readPacket ..

/-- No timed call starts with its read. -/
theorem not_atRead_entry (hdev : dev.tunFd ≠ -1) {c : Consumer} (hc : c.IsTimed) :
    ¬ AtRead (c.op.prog R.os libc dev) := by
  cases c with
  | readTm size timeoutMs =>
      show ¬ AtRead ((Op.readTm size timeoutMs).prog R.os libc dev)
      rw [readTm_bind hdev]
      exact id
  | read size => exact absurd hc id

/-- A reply leads from a phase to a phase. -/
theorem Phase.reply {fd : Int} {c : Call} {k : Resp c → Sys (Ret × Option Device)}
    (h : Phase fd (.sys c k)) (r : Resp c) : Phase fd (k r) := by
  cases h with
  | waiting hk _ => exact hk r
  | reading hk _ => exact hk r
  | logging hk _ => exact hk

end Phases

/-! ## The queue -/

section Queue

variable {k k' : Kern} {fd : Int} {q q' : List (List UInt8)}

theorem Kern.Queued.unique (h : k.Queued fd q) (h' : k.Queued fd q') : q = q' := by
  obtain ⟨i, f, hf, rfl⟩ := h
  obtain ⟨j, g, hg, rfl⟩ := h'
  obtain ⟨-, rfl⟩ := hf.unique hg
  rfl

theorem Kern.Queued.put {i : Nat} {f g : Iface} (h : k.Attached fd i f) (hput : k.Put k' i g) :
    k'.Queued fd g.queue := by
  refine ⟨i, g, ⟨?_, ?_⟩, rfl⟩
  · rw [hput.1]
    exact h.1
  · rw [hput.2]
    exact Function.update_self ..

theorem Arrives.queued (h : Arrives fd k k') : ∃ q, k'.Queued fd q ∧ q ≠ [] := by
  obtain ⟨i, f, packet, hf, hput⟩ := h
  exact ⟨_, .put hf hput, by simp⟩

/-- A `read` that is not refused and has room takes the first packet. -/
theorem read_takes {size : Nat} {r : ReadRet} (h : blocking R k (.read fd size) r k') :
    (size ≠ 0 → r.ret = -1) ∧ k' = k ∨
      size ≠ 0 ∧ r.ret ≠ -1 ∧ ∃ packet rest, k.Queued fd (packet :: rest) ∧ k'.Queued fd rest := by
  rcases h.2 with ⟨hrefused, hk⟩ | ⟨hsize, -, -, hk⟩ |
    ⟨hsize, i, f, packet, rest, hf, hqueue, -, hret, hput⟩
  · exact Or.inl ⟨fun _ => hrefused, hk⟩
  · exact Or.inl ⟨fun hne => absurd hsize hne, hk⟩
  · have hne : r.ret ≠ -1 := by omega
    exact Or.inr ⟨hsize, hne, packet, rest, ⟨i, f, hf, hqueue⟩, .put hf hput⟩

end Queue

/-! ## One step -/

section Step

variable {s s' : Consumers ι} {l : ConsumerMove ι}

/-- The consumers are in their phases, and the device is attached. -/
structure Consuming (dev : Device) (s : Consumers ι) : Prop where
  phases : s.Each fun _ p => Phase dev.tunFd p
  attached : ∃ q, s.kern.Queued dev.tunFd q

theorem not_overdue_of_queued {q : List (List UInt8)} (h : s.kern.Queued dev.tunFd q)
    (hq : q ≠ []) : ¬ Overdue dev s := fun hs => hq (h.unique hs.1)

variable [DecidableEq ι]

/-- A thread that is not at a timed read now leaves the question to the
others. -/
theorem timedAtRead_moved {i j : ι} {t : Option (Consumer × Sys (Ret × Option Device))} {k : Kern}
    (ht : ∀ c p, t = some (c, p) → c.IsTimed → ¬ AtRead p) :
    TimedAtRead { s.setThread i t with kern := k } j ↔ j ≠ i ∧ TimedAtRead s j := by
  constructor
  · rintro ⟨c, p, hj, hc, hp⟩
    by_cases hji : j = i
    · subst hji
      dsimp only at hj
      rw [Pool.thread_setThread] at hj
      exact absurd hp (ht c p hj hc)
    · dsimp only at hj
      rw [Pool.thread_setThread_of_ne hji] at hj
      exact ⟨hji, c, p, hj, hc, hp⟩
  · rintro ⟨hji, c, p, hj, hc, hp⟩
    refine ⟨c, p, ?_, hc, hp⟩
    dsimp only
    rw [Pool.thread_setThread_of_ne hji]
    exact hj

theorem not_overdue_moved {i : ι} {t : Option (Consumer × Sys (Ret × Option Device))}
    (hs : ¬ Overdue dev s) (ht : ∀ c p, t = some (c, p) → c.IsTimed → ¬ AtRead p) :
    ¬ Overdue dev (s.setThread i t) := by
  rintro ⟨hempty, j, hj⟩
  exact hs ⟨hempty, j, ((timedAtRead_moved (k := s.kern) ht).mp hj).2⟩

/-- The steps of a consumer inside its call. -/
theorem call_overdue_iff {i : ι} {c : Consumer} {call : Call} {r : Resp call}
    {p : Resp call → Sys (Ret × Option Device)} {k : Kern} (hs : Consuming dev s)
    (hgood : ¬ Overdue dev s) (hi : s.thread i = some (c, .sys call p))
    (hk : blocking R s.kern call r k) :
    ¬ Overdue dev { s.setThread i (some (c, p r)) with kern := k } ↔
      SparesOthers dev s (.call i ⟨call, r⟩) := by
  have hmoved : ¬ AtRead (p r) → ∀ c' p', some (c, p r) = some (c', p') → c'.IsTimed →
      ¬ AtRead p' := by
    rintro hp c' p' hcp -
    obtain ⟨-, rfl⟩ := Prod.mk.inj (Option.some.inj hcp)
    exact hp
  have hphase := hs.phases i c _ hi
  cases hphase with
  | @waiting _ _ _ p _ hready =>
      refine iff_of_true ?_ trivial
      by_cases hp : AtRead (p r)
      · -- `select` has seen a packet, and it is still there
        obtain ⟨j, f, hf, hqueue⟩ := hk.1 (hready r hp)
        obtain rfl : k = s.kern := hk.2
        exact not_overdue_of_queued ⟨j, f, hf, rfl⟩ hqueue
      · obtain rfl : k = s.kern := hk.2
        exact not_overdue_moved hgood (hmoved hp)
  | logging _ hp =>
      obtain rfl : k = s.kern := hk.2
      exact iff_of_true (not_overdue_moved hgood (hmoved hp)) trivial
  | reading _ hp =>
      rcases read_takes hk with ⟨hnone, rfl⟩ | ⟨hsize, hret, packet, rest, hqueue, hrest⟩
      · exact iff_of_true (not_overdue_moved hgood (hmoved (hp r)))
          fun hsize hret => absurd (hnone hsize) hret
      · constructor
        · rintro hleft - - ⟨last, hlast⟩ j hji hj
          obtain ⟨rfl, rfl⟩ := List.cons.inj (hqueue.unique hlast)
          exact hleft ⟨hrest, j, (timedAtRead_moved (hmoved (hp r))).mpr ⟨hji, hj⟩⟩
        · rintro hspares ⟨hempty, j, hj⟩
          obtain rfl := hrest.unique hempty
          obtain ⟨hji, hj⟩ := (timedAtRead_moved (hmoved (hp r))).mp hj
          exact hspares hsize hret ⟨packet, hqueue⟩ j hji hj

theorem overdue_step_iff (hdev : dev.tunFd ≠ -1) (hs : Consuming dev s)
    (hgood : ¬ Overdue dev s) (hstep : ConsumerStep R libc dev s l s') :
    ¬ Overdue dev s' ↔ SparesOthers dev s l := by
  cases hstep with
  | enter _ =>
      refine iff_of_true (not_overdue_moved hgood fun c p hcp hc => ?_) trivial
      obtain ⟨rfl, rfl⟩ := Prod.mk.inj (Option.some.inj hcp)
      exact not_atRead_entry hdev hc
  | call hi hk => exact call_overdue_iff hs hgood hi hk
  | leave _ =>
      refine iff_of_true (not_overdue_moved hgood fun c p hcp => ?_) trivial
      cases hcp
  | world harrives =>
      obtain ⟨q, hq, hne⟩ := harrives.queued
      exact iff_of_true (not_overdue_of_queued hq hne) trivial

/-- Every step keeps the consumers in their phases and the device attached. -/
theorem Consuming.step (hdev : dev.tunFd ≠ -1) (hs : Consuming dev s)
    (hstep : ConsumerStep R libc dev s l s') : Consuming dev s' := by
  refine ⟨hs.phases.step (phase_entry hdev) (fun _ _ _ r h => h.reply r) hstep, ?_⟩
  obtain ⟨q, hq⟩ := hs.attached
  cases hstep with
  | enter _ => exact ⟨q, hq⟩
  | leave _ => exact ⟨q, hq⟩
  | world harrives =>
      obtain ⟨q', hq', -⟩ := harrives.queued
      exact ⟨q', hq'⟩
  | call hi hk =>
      have hphase := hs.phases _ _ _ hi
      cases hphase with
      | waiting _ _ =>
          obtain rfl := hk.2
          exact ⟨q, hq⟩
      | logging _ _ =>
          obtain rfl := hk.2
          exact ⟨q, hq⟩
      | reading _ _ =>
          rcases read_takes hk with ⟨-, rfl⟩ | ⟨-, -, _, rest, -, hrest⟩
          · exact ⟨q, hq⟩
          · exact ⟨rest, hrest⟩

end Step

/-! ## Runs -/

section Runs

/-- A consumer that is alone takes no packet from under another. -/
theorem sparesOthers_of_alone [Subsingleton ι] (s : Consumers ι) (l : ConsumerMove ι) :
    SparesOthers dev s l := by
  unfold SparesOthers
  split
  · exact fun _ _ _ j hji => absurd (Subsingleton.elim j _) hji
  · trivial

variable [DecidableEq ι] {k : Kern} {s : Consumers ι}
  {tr : List (Consumers ι × ConsumerMove ι × Consumers ι)}

/-- In a run of consumers no timed read ever stands before an empty queue
exactly when no packet that is the last one is taken from under a timed call
that stands between its `select` and its `read`. -/
theorem timed_reads_ready_iff (hdev : dev.tunFd ≠ -1)
    (hdesc : ∃ i f, k.Attached dev.tunFd i f)
    (hrun : Run (ConsumerStep R libc dev) (Pool.idle k) tr s) :
    (∀ x ∈ tr, ¬ Overdue dev x.2.2) ↔ ∀ x ∈ tr, SparesOthers dev x.1 x.2.1 := by
  obtain ⟨i, f, hf⟩ := hdesc
  have hstart : Consuming dev (Pool.idle k : Consumers ι) := ⟨Pool.each_idle _ _, _, i, f, hf, rfl⟩
  have hidle : ¬ Overdue dev (Pool.idle k : Consumers ι) := by
    rintro ⟨-, j, c, p, hj, -⟩
    cases hj
  have hkept : ∀ x ∈ tr, Consuming dev x.1 ∧ Consuming dev x.2.2 :=
    (hrun.invariant hstart fun x _ hx hs => hs.step hdev hx).2
  have hiff := hrun.inv_iff (I := fun s => Consuming dev s ∧ ¬ Overdue dev s)
    (G := fun s l _ => SparesOthers dev s l) ⟨hstart, hidle⟩
    fun hstep hs => by
      rw [← overdue_step_iff hdev hs.1 hs.2 hstep]
      exact and_iff_right (hs.1.step hdev hstep)
  rw [← hiff]
  exact forall₂_congr fun x hx => (and_iff_right (hkept x hx).2).symm

end Runs

end Consumers

/-! ## Two consumers and one packet -/

/-- An interface on which one packet waits. -/
def Iface.holding : Iface := { Iface.named (CString.lit "tun0") with queue := [[0x45]] }

theorem Iface.holding_short : Iface.holding.name.strlen ≤ 15 := by decide

/-- The descriptor is attached to the interface. -/
def Kern.holding : Kern :=
  (Kern.single Iface.holding Iface.holding_short).setFd 4 (some (.tun (some 0)))

/-- The packet is taken. -/
def Kern.taken : Kern :=
  Kern.holding.setIface 0 Iface.holding { Iface.holding with queue := [] } rfl rfl

def Device.onFour : Device := { Device.init with tunFd := 4 }

theorem holding_attached : Kern.holding.Attached Device.onFour.tunFd 0 Iface.holding := ⟨rfl, rfl⟩

theorem taken_queued : Kern.taken.Queued Device.onFour.tunFd [] :=
  ⟨0, { Iface.holding with queue := [] }, ⟨rfl, rfl⟩, rfl⟩

/-- The packet is there for whoever reads first. -/
theorem holding_read : blocking (Rules.plain .linux) Kern.holding (.read 4 1500)
    ⟨1, .other, [0x45]⟩ Kern.taken :=
  ⟨fun _ => by decide,
    Or.inr (Or.inr ⟨by decide, 0, Iface.holding, [0x45], [], holding_attached, rfl, rfl, rfl, rfl,
      rfl⟩)⟩

theorem holding_select : blocking (Rules.plain .linux) Kern.holding (.select 5 4 true 0 100000)
    (1 : Int) Kern.holding :=
  ⟨fun _ => ⟨0, Iface.holding, holding_attached, by decide⟩, rfl⟩

/-- The rest of a timed read, after a `select` that reports the packet. -/
def readRest (size : Nat) : Sys (Ret × Option Device) :=
  readPacket Device.onFour size >>= fun r => Prog.ret (keep Device.onFour (.bytes r.1 r.2))

section Race

variable {ι : Type} [DecidableEq ι] {s : Consumers ι} {i : ι} {libc : Libc}

/-- The steps of the host on which the consumers race. -/
abbrev RaceStep (libc : Libc) : Consumers ι → ConsumerMove ι → Consumers ι → Prop :=
  ConsumerStep (Rules.plain .linux) libc Device.onFour

/-- A timed read that is entered. -/
def timedEntry (libc : Libc) : Sys (Ret × Option Device) :=
  (Consumer.readTm 1500 100).op.prog .linux libc Device.onFour

theorem race_enter (libc : Libc) (hi : s.thread i = none) :
    RaceStep libc s (.enter i (.readTm 1500 100))
      (s.setThread i (some (.readTm 1500 100, timedEntry libc))) := Pool.Step.enter hi

theorem race_select (hkern : s.kern = Kern.holding)
    (hi : s.thread i = some (.readTm 1500 100, timedEntry libc)) :
    RaceStep libc s (.call i ⟨.select 5 4 true 0 100000, (1 : Int)⟩)
      { s.setThread i (some (.readTm 1500 100, readRest 1500)) with kern := Kern.holding } := by
  have hentry : timedEntry libc = _ := readTm_bind (by decide) 1500 100
  rw [hentry] at hi
  refine Pool.Step.call hi ?_
  rw [hkern]
  exact holding_select

theorem race_read (hkern : s.kern = Kern.holding)
    (hi : s.thread i = some (.readTm 1500 100, readRest 1500)) :
    RaceStep libc s (.call i ⟨.read 4 1500, ⟨1, .other, [0x45]⟩⟩)
      { s.setThread i (some (.readTm 1500 100,
        .ret (keep Device.onFour (.bytes 1 [0x45])))) with kern := Kern.taken } := by
  unfold readRest at hi
  rw [readPacket_bind] at hi
  refine Pool.Step.call hi ?_
  rw [hkern]
  exact holding_read

end Race

/-- Both consumers see the packet, one takes it, and the other stands before an
empty queue with nothing but a `read` left. -/
theorem timed_read_overtaken : ¬ ∀ (ι : Type) [DecidableEq ι] (R : Rules) (libc : Libc)
    (dev : Device) (k : Kern) (tr : List (Consumers ι × ConsumerMove ι × Consumers ι))
    (s : Consumers ι), dev.tunFd ≠ -1 → (∃ i f, k.Attached dev.tunFd i f) →
      Run (ConsumerStep R libc dev) (Pool.idle k) tr s → ∀ x ∈ tr, ¬ Overdue dev x.2.2 := by
  intro hclaim
  have hmeets : Meets (RaceStep Libc.refusing) (fun x => Overdue Device.onFour x.2.2)
      (Pool.idle Kern.holding : Consumers Bool) := by
    refine .later (race_enter (i := false) _ rfl) (.later (race_enter (i := true) _ rfl) ?_)
    refine .later (race_select (i := false) rfl rfl) (.later (race_select (i := true) rfl rfl) ?_)
    refine .now (race_read (i := false) rfl rfl) ⟨taken_queued, true, ?_⟩
    exact ⟨.readTm 1500 100, readRest 1500, rfl, trivial, trivial⟩
  obtain ⟨tr, s, hrun, x, hx, hover⟩ := hmeets
  exact hclaim Bool _ _ _ _ tr s (by decide) ⟨0, _, holding_attached⟩ hrun x hx hover

/-- A consumer that is alone reads the packet it has waited for. -/
theorem timed_read_alone : ∃ (tr : List (Consumers Unit × ConsumerMove Unit × Consumers Unit))
    (s : Consumers Unit), Run (RaceStep Libc.refusing) (Pool.idle Kern.holding) tr s ∧
      s.kern.Queued Device.onFour.tunFd [] ∧ ∀ x ∈ tr, ¬ Overdue Device.onFour x.2.2 := by
  have hrun := Run.cons (race_enter (s := (Pool.idle Kern.holding : Consumers Unit)) (i := ())
    Libc.refusing rfl)
    (.cons (race_select (i := ()) rfl rfl) (.cons (race_read (i := ()) rfl rfl) (.nil _)))
  exact ⟨_, _, hrun, taken_queued, (timed_reads_ready_iff (by decide)
    ⟨0, _, holding_attached⟩ hrun).mpr fun x _ => sparesOthers_of_alone x.1 x.2.1⟩

end Libtuntap
