import Libtuntap.Effect.Trace
import Libtuntap.Effect.Run
import Mathlib.Logic.Function.Basic

/-!
# Handles and who owns them

A kernel hands out handles from one table, closes them on request and reuses
their names. Several clients share that table with a host that opens and closes
handles of its own. Each client runs one program at a time; the events of
different clients, and the host, interleave freely.

Nothing in such a system stops a client from passing a handle it does not own:
the kernel looks a number up, not its owner. Ownership is a discipline of the
programs. `Prog.Safe` states it on one program alone, as a recursion over its
calls with the set of handles owned so far, and `World.safe_run` is what the
discipline buys: if every operation a client begins is safe from what it owns,
then in every run, whatever the others do, every handle passed is the client's
own and open.

The reason one program can be judged alone is that nobody else changes what a
client owns. Others open only closed handles, and they close only their own.
-/

universe u v w

namespace Effect

/-- How a call deals in handles: the ones it is passed, the one its reply hands
out, the one it gives back. -/
structure HandleSig (C : Type u) (R : C → Type v) (N : Type) where
  uses : C → N → Prop
  gives : (c : C) → R c → Option N
  drops : C → Option N

section Safe

variable {C : Type u} {R : C → Type v} {N : Type} (H : HandleSig C R N) {α β : Type v}

/-- What is owned after a call. -/
def HandleSig.next (own : N → Prop) (c : C) (r : R c) (n : N) : Prop :=
  H.gives c r = some n ∨ (own n ∧ H.drops c ≠ some n)

/-- Every call of the program is passed owned handles only, whichever fresh
handles the replies hand out, and `Q` holds of the answer and the handles owned
at the end. -/
def Prog.Safe (Q : α → (N → Prop) → Prop) : Prog C R α → (N → Prop) → Prop
  | .ret a, own => Q a own
  | .sys c k, own =>
      (∀ n, H.uses c n → own n) ∧
        ∀ r, (∀ n, H.gives c r = some n → ¬ own n) → (k r).Safe Q (H.next own c r)

variable {H}

@[simp] theorem Prog.safe_ite {Q : α → (N → Prop) → Prop} (c : Prop) [Decidable c]
    (p q : Prog C R α) (own : N → Prop) :
    (if c then p else q).Safe H Q own ↔ (c → p.Safe H Q own) ∧ (¬ c → q.Safe H Q own) := by
  by_cases h : c <;> simp [h]

theorem Prog.Safe.bind {Q : β → (N → Prop) → Prop} {S : α → (N → Prop) → Prop}
    {p : Prog C R α} {f : α → Prog C R β} {own : N → Prop} (hp : p.Safe H S own)
    (hf : ∀ a own', S a own' → (f a).Safe H Q own') : (p >>= f).Safe H Q own := by
  induction p generalizing own with
  | ret a => exact hf a own hp
  | sys c k ih => exact ⟨hp.1, fun r hr => ih r (hp.2 r hr)⟩

theorem Prog.Safe.mono {Q S : α → (N → Prop) → Prop} {p : Prog C R α} {own : N → Prop}
    (hp : p.Safe H Q own) (hQS : ∀ a own', Q a own' → S a own') : p.Safe H S own := by
  induction p generalizing own with
  | ret a => exact hQS a own hp
  | sys c k ih => exact ⟨hp.1, fun r hr => ih r (hp.2 r hr)⟩

/-- A call that deals in no handle leaves what is owned as it was. -/
theorem HandleSig.next_eq {own : N → Prop} {c : C} {r : R c} (hg : H.gives c r = none)
    (hd : H.drops c = none) : H.next own c r = own := by
  funext n
  simp [HandleSig.next, hg, hd]

/-- A program whose calls only use handles from `keep`, and open and close
none, is safe while those are owned. -/
theorem Prog.AllCalls.safe {keep : N → Prop} {Q : α → (N → Prop) → Prop} {p : Prog C R α}
    (hp : p.AllCalls fun c =>
      (∀ n, H.uses c n → keep n) ∧ (∀ r, H.gives c r = none) ∧ H.drops c = none)
    {own : N → Prop} (hown : ∀ n, keep n → own n)
    (hQ : p.Answers fun a => Q a own) : p.Safe H Q own := by
  induction p with
  | ret a => exact hQ
  | sys c k ih =>
      refine ⟨fun n hn => hown n (hp.1.1 n hn), fun r _ => ?_⟩
      rw [HandleSig.next_eq (hp.1.2.1 r) hp.1.2.2]
      exact ih r (hp.2 r) (hQ r)

/-- What follows a program that opens and closes nothing is judged with what
was owned before it. -/
theorem Prog.Safe.after [∀ c, Nonempty (R c)] {Q : β → (N → Prop) → Prop} {S : α → Prop}
    {p : Prog C R α} {f : α → Prog C R β} {own : N → Prop}
    (hp : p.AllCalls fun c => (∀ r, H.gives c r = none) ∧ H.drops c = none)
    (hS : p.Answers S) (h : (p >>= f).Safe H Q own) : ∃ a, S a ∧ (f a).Safe H Q own := by
  induction p with
  | ret a => exact ⟨a, hS, h⟩
  | sys c k ih =>
      obtain ⟨r⟩ : Nonempty (R c) := inferInstance
      have hr := h.2 r fun n hn => by simp [hp.1.1 r] at hn
      rw [HandleSig.next_eq (hp.1.1 r) hp.1.2] at hr
      exact ih r (hp.2 r) (hS r) hr

end Safe

/-! ## Clients, the host and the table -/

/-- Who opened a handle. -/
inductive Owner (ι : Type) where
  | host
  | client (i : ι)
deriving DecidableEq

/-- What a client is doing. -/
inductive Slot (C : Type u) (R : C → Type v) (D : Type v) where
  | fresh
  | idle (d : D)
  | busy (p : Prog C R (Option D))
  | gone

/-- The operations of a client: how it comes to be, and what each operation
does to it. An operation that answers nothing is the client's last. -/
structure Client (C : Type u) (R : C → Type v) (D : Type v) (O : Type w) where
  boot : Prog C R (Option D)
  op : O → D → Prog C R (Option D)

/-- The table and the clients. -/
structure World (ι : Type) (C : Type u) (R : C → Type v) (N : Type) (D : Type v) where
  table : N → Option (Owner ι)
  slot : ι → Slot C R D

/-- What happens in one step. -/
inductive Label (ι : Type) (C : Type u) (R : C → Type v) (N : Type) (O : Type w) where
  | create (i : ι)
  | begin (i : ι) (o : O)
  | event (i : ι) (e : Event C R)
  | finish (i : ι)
  | hostOpen (n : N)
  | hostClose (n : N)

variable {C : Type u} {R : C → Type v} {N : Type} {D : Type v} {O : Type w} {ι : Type}
  [DecidableEq N] [DecidableEq ι]

/-- The table after an event of client `i`. -/
def HandleSig.after (H : HandleSig C R N) (table : N → Option (Owner ι)) (i : ι)
    (c : C) (r : R c) (n : N) : Option (Owner ι) :=
  if H.gives c r = some n then some (.client i)
  else if H.drops c = some n then none
  else table n

/-- The interleaving steps. The kernel hands out closed handles only, and that
is all it checks. -/
inductive World.Step (H : HandleSig C R N) (cl : Client C R D O) :
    World ι C R N D → Label ι C R N O → World ι C R N D → Prop where
  | create {w : World ι C R N D} {i : ι} : w.slot i = .fresh →
      Step H cl w (.create i) ⟨w.table, Function.update w.slot i (.busy cl.boot)⟩
  | begin {w : World ι C R N D} {i : ι} {o : O} {d : D} : w.slot i = .idle d →
      Step H cl w (.begin i o) ⟨w.table, Function.update w.slot i (.busy (cl.op o d))⟩
  | event {w : World ι C R N D} {i : ι} {c : C} {k : R c → Prog C R (Option D)} {r : R c} :
      w.slot i = .busy (.sys c k) → (∀ n, H.gives c r = some n → w.table n = none) →
      Step H cl w (.event i ⟨c, r⟩)
        ⟨H.after w.table i c r, Function.update w.slot i (.busy (k r))⟩
  | finish {w : World ι C R N D} {i : ι} {res : Option D} : w.slot i = .busy (.ret res) →
      Step H cl w (.finish i)
        ⟨w.table, Function.update w.slot i (res.elim .gone .idle)⟩
  | hostOpen {w : World ι C R N D} {n : N} : w.table n = none →
      Step H cl w (.hostOpen n) ⟨Function.update w.table n (some .host), w.slot⟩
  | hostClose {w : World ι C R N D} {n : N} : w.table n = some .host →
      Step H cl w (.hostClose n) ⟨Function.update w.table n none, w.slot⟩

namespace World

/-- The handles client `i` owns. -/
def owned (w : World ι C R N D) (i : ι) (n : N) : Prop := w.table n = some (.client i)

variable (H : HandleSig C R N) (cl : Client C R D O)

/-- The discipline of one client: an invariant between operations, under which
every operation that is allowed is safe and restores it. -/
structure Discipline (Inv : D → (N → Prop) → Prop) (Pre : O → D → Prop) : Prop where
  boot : ∀ own, cl.boot.Safe H (fun res own' => ∀ d, res = some d → Inv d own') own
  op : ∀ o d own, Inv d own → Pre o d →
    (cl.op o d).Safe H (fun res own' => ∀ d', res = some d' → Inv d' own') own

/-- Every client is inside its discipline. -/
def Disciplined (Inv : D → (N → Prop) → Prop) (w : World ι C R N D) : Prop :=
  ∀ i, match w.slot i with
    | .idle d => Inv d (w.owned i)
    | .busy p => p.Safe H (fun res own' => ∀ d, res = some d → Inv d own') (w.owned i)
    | .fresh | .gone => True

variable {H cl} {Inv : D → (N → Prop) → Prop} {Pre : O → D → Prop}

omit [DecidableEq N] in
/-- The state of one client changed, and nobody else's handles did. -/
theorem Disciplined.update {w : World ι C R N D} (h : Disciplined H Inv w)
    {t : N → Option (Owner ι)} {i : ι} {s : Slot C R D}
    (ht : ∀ j, j ≠ i → ∀ n, t n = some (.client j) ↔ w.table n = some (.client j))
    (hs : match s with
      | .idle d => Inv d fun n => t n = some (.client i)
      | .busy p => p.Safe H (fun res own' => ∀ d, res = some d → Inv d own')
          fun n => t n = some (.client i)
      | .fresh | .gone => True) :
    Disciplined H Inv ⟨t, Function.update w.slot i s⟩ := by
  intro j
  by_cases hj : j = i
  · subst hj
    simp only [Function.update_self]
    exact hs
  · have howned : (World.mk t (Function.update w.slot i s)).owned j = w.owned j := by
      funext n
      exact propext (ht j hj n)
    simp only [Function.update_of_ne hj, howned]
    exact h j

omit [DecidableEq N] [DecidableEq ι] in
theorem Disciplined.host {w : World ι C R N D} (h : Disciplined H Inv w)
    {t : N → Option (Owner ι)}
    (ht : ∀ j n, t n = some (.client j) ↔ w.table n = some (.client j)) :
    Disciplined H Inv ⟨t, w.slot⟩ := by
  intro j
  have howned : (World.mk t w.slot).owned j = w.owned j := by
    funext n
    exact propext (ht j n)
  simp only [howned]
  exact h j

omit [DecidableEq ι] in
/-- The handles of a client after its own event are those its program was
judged with. -/
theorem after_self {table : N → Option (Owner ι)} {i : ι} {c : C} {r : R c} :
    (fun n => H.after table i c r n = some (.client i)) =
      H.next (fun n => table n = some (.client i)) c r := by
  funext n
  refine propext ?_
  unfold HandleSig.after HandleSig.next
  by_cases hg : H.gives c r = some n
  · simp [hg]
  · by_cases hd : H.drops c = some n
    · simp [hg, hd]
    · simp [hg, hd]

omit [DecidableEq ι] in
/-- An event passed owned handles only, and handed a closed one, leaves the
handles of everybody else alone. -/
theorem after_other {table : N → Option (Owner ι)} {i j : ι} {c : C} {r : R c}
    (hji : j ≠ i) (hg : ∀ n, H.gives c r = some n → table n = none)
    (hd : ∀ n, H.drops c = some n → table n = some (.client i)) (n : N) :
    H.after table i c r n = some (.client j) ↔ table n = some (.client j) := by
  unfold HandleSig.after
  split
  · next hgn => simp [hg n hgn, Ne.symm hji]
  · split
    · next hdn => simp [hd n hdn, Ne.symm hji]
    · exact Iff.rfl

/-- One step keeps the discipline, and an event of it is passed owned handles
only. The step begins an operation only where it is allowed. -/
theorem Disciplined.step (hD : Discipline H cl Inv Pre)
    (hdrops : ∀ c n, H.drops c = some n → H.uses c n) {w w' : World ι C R N D}
    {l : Label ι C R N O} (hs : Step H cl w l w') (h : Disciplined H Inv w)
    (hpre : ∀ i o d, l = .begin i o → w.slot i = .idle d → Pre o d) :
    Disciplined H Inv w' ∧
      ∀ i e, l = .event i e → ∀ n, H.uses e.1 n → w.owned i n := by
  cases hs with
  | @create i hslot =>
      refine ⟨h.update (fun _ _ _ => Iff.rfl) (hD.boot _), ?_⟩
      intro j e hl
      cases hl
  | @begin i o d hslot =>
      have hi := h i
      rw [hslot] at hi
      refine ⟨h.update (fun _ _ _ => Iff.rfl) (hD.op o d _ hi (hpre i o d rfl hslot)), ?_⟩
      intro j e hl
      cases hl
  | @event i c k r hslot hfresh =>
      have hi := h i
      rw [hslot] at hi
      obtain ⟨huse, hk⟩ := hi
      constructor
      · refine h.update (fun j hj => after_other hj hfresh ?_) ?_
        · exact fun n hn => huse n (hdrops c n hn)
        · have hnext := hk r fun n hn hown => by
            have := hfresh n hn
            rw [show w.table n = some (.client i) from hown] at this
            cases this
          simp only [after_self]
          exact hnext
      · intro j e hl n hn
        cases hl
        exact huse n hn
  | @finish i res hslot =>
      have hi := h i
      rw [hslot] at hi
      refine ⟨h.update (fun _ _ _ => Iff.rfl) ?_, ?_⟩
      · cases res with
        | none => trivial
        | some d => exact hi d rfl
      · intro j e hl
        cases hl
  | @hostOpen n hn =>
      refine ⟨h.host fun j m => ?_, ?_⟩
      · by_cases hm : m = n
        · subst hm
          simp [hn]
        · simp [Function.update_of_ne hm]
      · intro j e hl
        cases hl
  | @hostClose n hn =>
      refine ⟨h.host fun j m => ?_, ?_⟩
      · by_cases hm : m = n
        · subst hm
          simp [hn]
        · simp [Function.update_of_ne hm]
      · intro j e hl
        cases hl

/-- In every run from a disciplined world that begins operations only where
they are allowed, every event is passed handles its client owns. -/
theorem safe_run (hD : Discipline H cl Inv Pre)
    (hdrops : ∀ c n, H.drops c = some n → H.uses c n) {w w' : World ι C R N D}
    {tr : List (World ι C R N D × Label ι C R N O × World ι C R N D)}
    (hr : Run (Step H cl) w tr w') (h0 : Disciplined H Inv w)
    (hpre : ∀ x ∈ tr, ∀ i o d, x.2.1 = .begin i o → x.1.slot i = .idle d → Pre o d) :
    ∀ x ∈ tr, ∀ i e, x.2.1 = .event i e → ∀ n, H.uses e.1 n → x.1.owned i n := by
  have hall := (hr.invariant h0 fun x hx hs hx1 =>
    (Disciplined.step hD hdrops hs hx1 (hpre x hx)).1).2
  intro x hx
  exact (Disciplined.step hD hdrops (hr.step_of_mem x hx) (hall x hx).1 (hpre x hx)).2

end World

end Effect
