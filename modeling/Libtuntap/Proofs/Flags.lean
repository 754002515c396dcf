import Libtuntap.Proofs.Requests
import Libtuntap.Unix.Session

/-!
# Up, down, and the flags of others

`tuntap_up` and `tuntap_down` write a whole flag word. They compute it from
`dev->flags`, a copy taken at the start and kept by their own successes, and
never ask the kernel for the word it holds. The kernel takes from it the bits a
process may set. So a bit another process has changed since then goes back to
what the copy says, and nothing is lost only as long as copy and kernel agree
on those bits, `IFF_UP` aside.

That is a statement about each call, and the runs only add that the device
keeps reaching its interface. What a run adds beyond that is where the agreement
comes from: an accepted call restores it, a refused one leaves it, and only
others can end it.
-/

namespace Libtuntap

open Effect CMem

/-! ## The word the kernel ends with -/

section Words

variable {R : Rules} {flags saved : BitVec 16}

/-- The bits a process may set, `IFF_UP` aside. -/
def Rules.others (R : Rules) : BitVec 16 := R.settable &&& ~~~iffUp

/-- Two words that agree on the settable bits, `IFF_UP` aside. -/
def Rules.Agree (R : Rules) (flags saved : BitVec 16) : Prop :=
  saved &&& R.others = flags &&& R.others

/-- A bit the kernel takes is the bit asked for, and the rest stay. -/
theorem Rules.getLsbD_mergeFlags (asked : BitVec 16) (i : Nat) :
    (R.mergeFlags flags asked).getLsbD i =
      if R.settable.getLsbD i then asked.getLsbD i else flags.getLsbD i := by
  simp only [Rules.mergeFlags, BitVec.getLsbD_or, BitVec.getLsbD_and, BitVec.getLsbD_not]
  by_cases hi : i < 16
  · cases R.settable.getLsbD i <;> simp [hi]
  · simp [BitVec.getLsbD_of_ge _ _ (Nat.not_lt.mp hi)]

theorem Rules.getLsbD_settable_of_up (R : Rules) {i : Nat} (h : iffUp.getLsbD i = true) :
    R.settable.getLsbD i = true := by
  have hup := congrArg (fun w => w.getLsbD i) R.settable_up
  simp only [BitVec.getLsbD_and, h, Bool.and_true] at hup
  exact hup

theorem Rules.agree_iff : R.Agree flags saved ↔ ∀ i, R.settable.getLsbD i = true →
    iffUp.getLsbD i = false → saved.getLsbD i = flags.getLsbD i := by
  unfold Rules.Agree Rules.others
  constructor
  · intro h i hs hup
    have hi : i < 16 := by
      by_contra hge
      rw [BitVec.getLsbD_of_ge _ _ (Nat.not_lt.mp hge)] at hs
      cases hs
    have hbit := congrArg (fun w => w.getLsbD i) h
    simp only [BitVec.getLsbD_and, BitVec.getLsbD_not, hs, hup, hi, decide_true, Bool.not_false,
      Bool.and_self, Bool.and_true] at hbit
    exact hbit
  · intro h
    refine BitVec.eq_of_getLsbD_eq fun i hi => ?_
    simp only [BitVec.getLsbD_and, BitVec.getLsbD_not, hi, decide_true, Bool.true_and]
    cases hs : R.settable.getLsbD i with
    | false => simp
    | true =>
        cases hup : iffUp.getLsbD i with
        | true => simp
        | false => rw [h i hs hup]

/-- A change that decides `IFF_UP` and leaves every other bit. -/
structure OnUp (change : BitVec 16 → BitVec 16) : Prop where
  up : ∀ w w' i, iffUp.getLsbD i = true → (change w).getLsbD i = (change w').getLsbD i
  rest : ∀ w i, iffUp.getLsbD i = false → (change w).getLsbD i = w.getLsbD i

theorem onUp_or : OnUp fun w => w ||| iffUp where
  up w w' i h := by simp [BitVec.getLsbD_or, h]
  rest w i h := by simp [BitVec.getLsbD_or, h]

theorem onUp_andNot : OnUp fun w => w &&& ~~~iffUp where
  up w w' i h := by simp [BitVec.getLsbD_and, BitVec.getLsbD_not, h]
  rest w i h := by
    by_cases hi : i < 16
    · simp only [BitVec.getLsbD_and, BitVec.getLsbD_not, h, hi, decide_true, Bool.not_false,
        Bool.and_true]
    · simp [BitVec.getLsbD_of_ge _ _ (Nat.not_lt.mp hi)]

/-- The change is what the kernel's word undergoes exactly when the copy it was
applied to agrees with that word. -/
theorem OnUp.mergeFlags_eq_iff {change : BitVec 16 → BitVec 16} (h : OnUp change) :
    R.mergeFlags flags (change saved) = change flags ↔ R.Agree flags saved := by
  rw [Rules.agree_iff]
  constructor
  · intro heq i hs hup
    have hbit := congrArg (fun w => w.getLsbD i) heq
    rw [Rules.getLsbD_mergeFlags, if_pos hs, h.rest _ i hup, h.rest _ i hup] at hbit
    exact hbit
  · intro hag
    refine BitVec.eq_of_getLsbD_eq fun i _ => ?_
    rw [Rules.getLsbD_mergeFlags]
    cases hup : iffUp.getLsbD i with
    | true =>
        rw [if_pos (R.getLsbD_settable_of_up hup)]
        exact h.up saved flags i hup
    | false =>
        cases hs : R.settable.getLsbD i with
        | true =>
            rw [if_pos rfl, h.rest _ i hup, h.rest _ i hup]
            exact hag i hs hup
        | false =>
            rw [if_neg (by decide)]
            exact (h.rest flags i hup).symm

/-- A word the change was put into agrees with the copy that is then kept. -/
theorem OnUp.agree_after {change : BitVec 16 → BitVec 16} :
    R.Agree (R.mergeFlags flags (change saved)) (change saved) := by
  rw [Rules.agree_iff]
  intro i hs _
  rw [Rules.getLsbD_mergeFlags, if_pos hs]

/-- The copy is kept as an `int` and read back as a `short`. -/
theorem setWidth_signExtend (w : BitVec 16) : (w.signExtend 32).setWidth 16 = w := by
  refine BitVec.eq_of_getLsbD_eq fun i hi => ?_
  simp only [BitVec.getLsbD_setWidth, BitVec.getLsbD_signExtend, hi, if_true,
    show i < 32 by omega, decide_true, Bool.true_and]

end Words

/-! ## One call -/

section Call

variable {R : Rules} {k : Kern} {dev : Device} {i : Nat} {f : Iface}

/-- Refused, and nothing has changed; or granted, and both the copy and the
kernel's word have taken the change of the copy. -/
def FlagsSet (R : Rules) (dev : Device) (k : Kern) (i : Nat) (f : Iface)
    (change : BitVec 16 → BitVec 16) (r : Int × Device) (k' : Kern) : Prop :=
  r = (-1, dev) ∧ k' = k ∨
    r = (0, { dev with flags := (change (dev.flags.setWidth 16)).signExtend 32 }) ∧
      k.Put k' i { f with flags := R.mergeFlags f.flags (change (dev.flags.setWidth 16)) }

theorem setFlags_wp (h : k.Reaches dev i f) (os : Os) (change : BitVec 16 → BitVec 16) :
    (setFlags os dev change).Wp (kernel R) (FlagsSet R dev k i f change) k := by
  have hn : Names dev os.sizeofIfreq (setIfrFlags (ifreqNamed os dev)
      (change (dev.flags.setWidth 16))) :=
    (names_ifreqNamed os).of_eq (ifrName_setIfrFlags _ _)
  have hflags := ifrFlags_setIfrFlags (ifreqNamed os dev) (change (dev.flags.setWidth 16))
    (Nat.le_trans (by decide) os.le_sizeofIfreq)
  simp only [setFlags, Prog.wp_call_bind, Prog.wp_ite, Prog.pure_eq, Prog.wp_ret]
  intro r k' hs
  rcases hs with ⟨hr, rfl⟩ | ⟨hr, hs⟩
  · exact ⟨fun _ => Or.inl ⟨rfl, rfl⟩, fun hne => absurd hr hne⟩
  · refine ⟨fun h0 => absurd h0 (by omega), fun _ => Or.inr ⟨rfl, ?_⟩⟩
    have hput := h.alters hn hs
    rw [hflags] at hput
    exact hput

end Call

/-! ## Sessions of ups and downs -/

/-- What a call makes of the flag word. -/
def Op.onFlags : Op → BitVec 16 → BitVec 16
  | .up, w => w ||| iffUp
  | .down, w => w &&& ~~~iffUp
  | _, w => w

/-- A step of the others, or one of the two calls. -/
def Act.UpOrDown : Act → Prop
  | .call op .. => op = .up ∨ op = .down
  | .others => True

def Act.Succeeds (a : Act) : Prop := ∃ op tr, a = .call op tr (.int 0)

/-- Others leave the control socket and the name of the interface, and change
whatever else they like. -/
def OthersKeepName (i : Nat) : Rely := fun dev k k' =>
  k'.fds dev.ctrlSock = k.fds dev.ctrlSock ∧
    ∀ f, k.ifs i = some f → ∃ f', k'.ifs i = some f' ∧ f'.name = f.name

/-- A call that succeeds does to the kernel's word what it is for and nothing
else; a call that fails changes neither the word nor the copy. -/
def FlagsKept (i : Nat) : Session × Act × Session → Prop
  | (s, .call op _ ret, s') => ∃ f f', s.kern.ifs i = some f ∧ s'.kern.ifs i = some f' ∧
      (ret = .int 0 → f'.flags = op.onFlags f.flags) ∧
      (ret ≠ .int 0 → f'.flags = f.flags ∧ s'.dev.flags = s.dev.flags)
  | _ => True

/-- The copy agrees with the word the kernel holds. -/
def SavedCurrent (R : Rules) (i : Nat) (s : Session) : Prop :=
  ∃ f, s.kern.ifs i = some f ∧ R.Agree f.flags (s.dev.flags.setWidth 16)

section Sessions

variable {R : Rules} {libc : Libc} {i : Nat} {s s' : Session} {a : Act} {f : Iface}

/-- Up and down end alike. -/
theorem upOrDown_wp {op : Op} (hop : op = .up ∨ op = .down)
    (h : s.kern.Reaches s.dev i f) :
    (op.prog R.os libc s.dev).Wp (kernel R) (fun r k' => ∃ r', r = back r' ∧
      FlagsSet R s.dev s.kern i f op.onFlags r' k') s.kern := by
  rcases hop with rfl | rfl
  · exact (setFlags_wp h R.os _).bind fun r k' hr => ⟨r, rfl, hr⟩
  · exact (setFlags_wp h R.os _).bind fun r k' hr => ⟨r, rfl, hr⟩

theorem onUp_onFlags {op : Op} (hop : op = .up ∨ op = .down) : OnUp op.onFlags := by
  rcases hop with rfl | rfl
  · exact onUp_or
  · exact onUp_andNot

/-- One step: the device still reaches its interface, and the flags were kept
if the copy was current where it was used. -/
theorem Session.Step.flags (hs : Session.Step R libc (OthersKeepName i) s a s')
    (ha : a.UpOrDown) (h : s.kern.Reaches s.dev i f) :
    (∃ f', s'.kern.Reaches s'.dev i f') ∧
      (FlagsKept i (s, a, s') ↔ (a.Succeeds → SavedCurrent R i s)) := by
  cases a with
  | others =>
      cases hs with
      | others hrely =>
          obtain ⟨f', hf', hname⟩ := hrely.2 f h.iface
          refine ⟨⟨f', hrely.1.trans h.sock, hf', hname.trans h.name⟩, ?_⟩
          refine iff_of_true trivial fun hsucc => ?_
          obtain ⟨op, tr, hop⟩ := hsucc
          cases hop
  | call op tr ret =>
      obtain ⟨⟨n, dev'⟩, hback, hset⟩ := hs.of_wp (upOrDown_wp ha h)
      obtain ⟨rfl, hsame⟩ := Prod.mk.inj hback
      obtain rfl := Option.some.inj hsame
      rcases hset with ⟨hr, hk⟩ | ⟨hr, hput⟩
      · obtain ⟨rfl, hdev⟩ := Prod.mk.inj hr
        rw [hk, hdev]
        refine ⟨⟨f, h⟩, iff_of_true ⟨f, f, h.iface, ?_, ?_, ?_⟩ ?_⟩
        · rw [hk]
          exact h.iface
        · intro h0
          cases h0
        · intro _
          rw [hdev]
          exact ⟨rfl, rfl⟩
        · intro hsucc
          obtain ⟨op, tr, hop⟩ := hsucc
          cases hop
      · obtain ⟨rfl, hdev⟩ := Prod.mk.inj hr
        have hreach := h.put hput rfl
        refine ⟨?_, ?_⟩
        · rw [hdev]
          exact ⟨_, hreach.sock, hreach.iface, hreach.name⟩
        · have hiff := @OnUp.mergeFlags_eq_iff R f.flags (s.dev.flags.setWidth 16) _
            (onUp_onFlags ha)
          constructor
          · intro hkept _
            obtain ⟨g, g', hg, hg', heq, -⟩ := hkept
            obtain rfl : f = g := Option.some.inj (h.iface.symm.trans hg)
            have hg'' := Option.some.inj (hreach.iface.symm.trans hg')
            refine ⟨f, h.iface, hiff.mp ?_⟩
            rw [← heq rfl, ← hg'']
          · intro hcur
            obtain ⟨g, hg, hag⟩ := hcur ⟨op, tr, rfl⟩
            obtain rfl : f = g := Option.some.inj (h.iface.symm.trans hg)
            exact ⟨f, _, h.iface, hreach.iface, fun _ => hiff.mpr hag, fun hne => absurd rfl hne⟩

/-- A call that succeeds makes the copy current, one that fails leaves it so. -/
theorem Session.Step.current {op : Op} {tr : List (Event Call Resp)} {ret : Ret}
    (hs : Session.Step R libc (OthersKeepName i) s (.call op tr ret) s')
    (hop : op = .up ∨ op = .down) (h : s.kern.Reaches s.dev i f) (hcur : SavedCurrent R i s) :
    SavedCurrent R i s' := by
  obtain ⟨⟨n, dev'⟩, hback, hset⟩ := hs.of_wp (upOrDown_wp hop h)
  obtain rfl := Option.some.inj (Prod.mk.inj hback).2
  rcases hset with ⟨hr, hk⟩ | ⟨hr, hput⟩
  · have hdev : s'.dev = s.dev := (Prod.mk.inj hr).2
    unfold SavedCurrent
    rw [hk, hdev]
    exact hcur
  · have hdev := (Prod.mk.inj hr).2
    refine ⟨_, (h.put hput rfl).iface, ?_⟩
    rw [hdev, setWidth_signExtend]
    exact OnUp.agree_after

end Sessions

/-- The others leave the bits a process may set, `IFF_UP` aside. -/
def OthersKeepBits (R : Rules) (i : Nat) : Rely := fun dev k k' =>
  OthersKeepName i dev k k' ∧ ∀ f f', k.ifs i = some f → k'.ifs i = some f' →
    f'.flags &&& R.others = f.flags &&& R.others

/-- Only others make the copy stale. -/
theorem saved_current_in_runs {R : Rules} {libc : Libc} {i : Nat} {f : Iface} {s s' : Session}
    {tr : List (Session × Act × Session)} (hs : s.kern.Reaches s.dev i f)
    (hcur : SavedCurrent R i s) (hr : Run (Session.Step R libc (OthersKeepBits R i)) s tr s')
    (hacts : ∀ x ∈ tr, x.2.1.UpOrDown) : ∀ x ∈ tr, SavedCurrent R i x.1 := by
  have hinv := hr.invariant (I := fun s => (∃ f, s.kern.Reaches s.dev i f) ∧
    SavedCurrent R i s) ⟨⟨f, hs⟩, hcur⟩ ?_
  · exact fun x hx => (hinv.2 x hx).1.2
  · rintro ⟨s, a, s'⟩ hx hstep ⟨⟨g, hg⟩, hcur⟩
    cases hstep with
    | call hr hk =>
        have hstep : Session.Step R libc (OthersKeepName i) s (.call _ _ _) s' := .call hr hk
        exact ⟨(hstep.flags (hacts _ hx) hg).1, hstep.current (hacts _ hx) hg hcur⟩
    | @others dev k k' hrely =>
        have hstep : Session.Step R libc (OthersKeepName i) ⟨dev, k⟩ .others ⟨dev, k'⟩ :=
          .others hrely.1
        refine ⟨(hstep.flags trivial hg).1, ?_⟩
        obtain ⟨g', hg', hag⟩ := hcur
        obtain ⟨g'', hg'', -⟩ := hrely.1.2 g' hg'
        exact ⟨g'', hg'', hag.trans (hrely.2 g' g'' hg' hg'').symm⟩

/-- Ups and downs between the changes of others: nobody's change is lost
exactly when each call that succeeded found the copy current. -/
theorem up_down_keep_flags_iff (R : Rules) (libc : Libc) (i : Nat) (f : Iface) (s s' : Session)
    (tr : List (Session × Act × Session)) (hs : s.kern.Reaches s.dev i f)
    (hr : Run (Session.Step R libc (OthersKeepName i)) s tr s')
    (hacts : ∀ x ∈ tr, x.2.1.UpOrDown) :
    (∀ x ∈ tr, FlagsKept i x) ↔ ∀ x ∈ tr, x.2.1.Succeeds → SavedCurrent R i x.1 := by
  have hinv := hr.invariant (I := fun s => ∃ f, s.kern.Reaches s.dev i f) ⟨f, hs⟩
    fun x hx hstep hreach => by
      obtain ⟨g, hg⟩ := hreach
      exact (hstep.flags (hacts x hx) hg).1
  refine forall₂_congr fun x hx => ?_
  obtain ⟨⟨g, hg⟩, -⟩ := hinv.2 x hx
  exact ((hr.step_of_mem x hx).flags (hacts x hx) hg).2

/-- `tun0` is brought up, and nobody else does anything. -/
theorem up_keeps_flags_tun0 :
    ∃ s' tr, tr ≠ [] ∧ Run (Session.Step (Rules.plain .linux) Libc.refusing (OthersKeepName 0))
        ⟨Device.tun0, Kern.tun0⟩ tr s' ∧ ∀ x ∈ tr, FlagsKept 0 x := by
  have hn : Names Device.tun0 40 (setIfrFlags (ifreqNamed .linux Device.tun0) iffUp) :=
    (names_ifreqNamed .linux).of_eq (ifrName_setIfrFlags _ _)
  have hstep : ∃ tr s', Session.Step (Rules.plain .linux) Libc.refusing (OthersKeepName 0)
      ⟨Device.tun0, Kern.tun0⟩ (.call .up tr (.int 0)) s' :=
    ⟨_, ⟨{ Device.tun0 with flags := 1 }, _⟩, .call ⟨⟨0, .other⟩, _, rfl, rfl, rfl⟩
      ⟨_, Or.inr ⟨rfl, Kern.tun0_reaches.altered hn rfl⟩, rfl⟩⟩
  obtain ⟨tr, s', hstep⟩ := hstep
  have hr := Run.cons hstep (.nil s')
  refine ⟨s', _, by simp, hr, ?_⟩
  refine (up_down_keep_flags_iff (Rules.plain .linux) Libc.refusing 0 _ _ s' _ Kern.tun0_reaches
    hr ?_).mpr ?_
  · intro x hx
    obtain rfl := List.mem_singleton.mp hx
    exact Or.inl rfl
  · intro x hx _
    obtain rfl := List.mem_singleton.mp hx
    exact ⟨_, rfl, rfl⟩

/-- Another process sets `IFF_PROMISC`, and `tuntap_up` clears it. -/
theorem up_clears_promisc :
    ¬ ∀ (R : Rules) (libc : Libc) (i : Nat) (f : Iface) (s s' : Session)
      (tr : List (Session × Act × Session)), s.kern.Reaches s.dev i f →
        Run (Session.Step R libc (OthersKeepName i)) s tr s' → (∀ x ∈ tr, x.2.1.UpOrDown) →
          ∀ x ∈ tr, FlagsKept i x := by
  intro hclaim
  have hn : Names Device.tun0 40 (setIfrFlags (ifreqNamed .linux Device.tun0) iffUp) :=
    (names_ifreqNamed .linux).of_eq (ifrName_setIfrFlags _ _)
  have hput : Kern.tun0.Put (Kern.tun0.setIface 0 _
      { Iface.named (CString.lit "tun0") with flags := 0x100 } rfl rfl) 0
      { Iface.named (CString.lit "tun0") with flags := 0x100 } := ⟨rfl, rfl⟩
  have hreach := Kern.tun0_reaches.put hput rfl
  have hothers : Session.Step (Rules.plain .linux) Libc.refusing (OthersKeepName 0)
      ⟨Device.tun0, Kern.tun0⟩ .others ⟨Device.tun0, Kern.tun0.setIface 0 _
        { Iface.named (CString.lit "tun0") with flags := 0x100 } rfl rfl⟩ := by
    refine .others ⟨rfl, fun f hf => ⟨_, rfl, ?_⟩⟩
    rw [← Option.some.inj hf]
  have hup : ∃ tr s', Session.Step (Rules.plain .linux) Libc.refusing (OthersKeepName 0)
      ⟨Device.tun0, Kern.tun0.setIface 0 _
        { Iface.named (CString.lit "tun0") with flags := 0x100 } rfl rfl⟩
        (.call .up tr (.int 0)) s' ∧
        ∀ f, s'.kern.ifs 0 = some f → f.flags = 1 := by
    refine ⟨_, ⟨{ Device.tun0 with flags := 1 }, _⟩, .call ⟨⟨0, .other⟩, _, rfl, rfl, rfl⟩
      ⟨_, Or.inr ⟨rfl, hreach.altered hn rfl⟩, rfl⟩, fun f hf => ?_⟩
    rw [← Option.some.inj hf]
    decide
  obtain ⟨tr, s', hup, hflags⟩ := hup
  obtain ⟨f, f', hf, hf', hkept, -⟩ := hclaim _ _ 0 _ _ _ _ Kern.tun0_reaches
    (.cons hothers (.cons hup (.nil s'))) (by simp [Act.UpOrDown]) _
    (List.mem_cons_of_mem _ (List.mem_cons_self ..))
  have hword := (hflags f' hf').symm.trans (hkept rfl)
  rw [← Option.some.inj hf] at hword
  exact absurd hword (by decide)

end Libtuntap
