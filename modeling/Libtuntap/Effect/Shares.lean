import Libtuntap.Effect.Handle
import Libtuntap.Effect.Wp

/-!
# Clients that keep to their share

Several clients run programs on one kernel, one call at a time and in any order.
A share is a part of the kernel's state that a client counts on. Nothing in the
kernel knows of shares: it serves every call the same. What keeps the clients
apart is that each of their calls, made in a state in which the caller has its
share, leaves all shares alone that are apart from it. `Prog.Local` asks this of
one program, as a recursion over its calls with the share it has so far, and a
call may enlarge the share by what was nobody's, or give some of it up.

One program is judged alone and against any state that has its share. That is
why nothing has to be said about how calls of different clients interleave:
`Site.settled_run` is about every run, down to single calls.
-/

universe u v w x y z

namespace Effect

/-- What a share is: when a state has it, which shares are apart, and when two
states are the same as far as it goes. -/
structure Shares (σ : Type w) (V : Type x) where
  Sat : V → σ → Prop
  Apart : V → V → Prop
  Same : V → σ → σ → Prop
  empty : V
  sat_of_same : ∀ {v s s'}, Sat v s → Same v s s' → Sat v s'
  apart_symm : ∀ {v w}, Apart v w → Apart w v
  apart_empty : ∀ v, Apart empty v

section Local

variable {C : Type u} {R : C → Type v} {σ : Type w} {V : Type x} {α β : Type v}

/-- A client with the share `v` has gone from `s` to `s'`, where its share is
`v'`, and everybody else's is untouched. -/
structure Shares.Moves (F : Shares σ V) (v : V) (s : σ) (v' : V) (s' : σ) : Prop where
  sat : F.Sat v' s'
  others : ∀ w, F.Apart v w → F.Sat w s → F.Same w s s' ∧ F.Apart v' w

variable (F : Shares σ V) (K : Kernel C R σ)

/-- Every call of the program is a move from the share it has, and `Q` holds of
the answer and the share at the end. -/
def Prog.Local (Q : α → V → Prop) : Prog C R α → V → Prop
  | .ret a, v => Q a v
  | .sys c k, v => ∀ s r s', F.Sat v s → K s c r s' →
      ∃ v', F.Moves v s v' s' ∧ (k r).Local Q v'

variable {F K} {Q : α → V → Prop} {v : V}

namespace Prog

theorem Local.mono {S : α → V → Prop} {p : Prog C R α} (hp : p.Local F K Q v)
    (hQS : ∀ a v', Q a v' → S a v') : p.Local F K S v := by
  induction p generalizing v with
  | ret a => exact hQS a v hp
  | sys c k ih =>
      intro s r s' hs hK
      obtain ⟨v', hmove, hk⟩ := hp s r s' hs hK
      exact ⟨v', hmove, ih r hk⟩

theorem Local.bind {S : β → V → Prop} {p : Prog C R α} {f : α → Prog C R β}
    (hp : p.Local F K Q v) (hf : ∀ a v', Q a v' → (f a).Local F K S v') :
    (p >>= f).Local F K S v := by
  induction p generalizing v with
  | ret a => exact hf a v hp
  | sys c k ih =>
      intro s r s' hs hK
      obtain ⟨v', hmove, hk⟩ := hp s r s' hs hK
      exact ⟨v', hmove, ih r hk⟩

/-- A program whose calls all leave its share as it is. -/
theorem AllCalls.local {P : C → Prop} {A : α → Prop} {p : Prog C R α} (hp : p.AllCalls P)
    (hA : p.Answers A) (hstep : ∀ c, P c → ∀ s r s', F.Sat v s → K s c r s' → F.Moves v s v s') :
    p.Local F K (fun a v' => A a ∧ v' = v) v := by
  induction p with
  | ret a => exact ⟨hA, rfl⟩
  | sys c k ih =>
      intro s r s' hs hK
      exact ⟨v, hstep c hp.1 s r s' hs hK, ih r (hp.2 r) (hA r)⟩

end Prog

end Local

/-! ## Clients on one kernel -/

/-- The clients and the kernel under them. -/
structure Site (ι : Type y) (C : Type u) (R : C → Type v) (D : Type v) (σ : Type w) where
  slot : ι → Slot C R D
  kern : σ

/-- What happens in one step. -/
inductive Turn (ι : Type y) (C : Type u) (R : C → Type v) (O : Type z) where
  | create (i : ι)
  | begin (i : ι) (o : O)
  | event (i : ι) (e : Event C R)
  | finish (i : ι)
  | world

namespace Site

variable {ι : Type y} {C : Type u} {R : C → Type v} {D : Type v} {O : Type z} {σ : Type w}
  {V : Type x} [DecidableEq ι]

/-- The interleaving steps, with steps of the environment `E` between them. -/
inductive Step (cl : Client C R D O) (K : Kernel C R σ) (E : σ → σ → Prop) :
    Site ι C R D σ → Turn ι C R O → Site ι C R D σ → Prop where
  | create {w : Site ι C R D σ} {i : ι} : w.slot i = .fresh →
      Step cl K E w (.create i) ⟨Function.update w.slot i (.busy cl.boot), w.kern⟩
  | begin {w : Site ι C R D σ} {i : ι} {o : O} {d : D} : w.slot i = .idle d →
      Step cl K E w (.begin i o) ⟨Function.update w.slot i (.busy (cl.op o d)), w.kern⟩
  | event {w : Site ι C R D σ} {i : ι} {c : C} {k : R c → Prog C R (Option D)} {r : R c} {s : σ} :
      w.slot i = .busy (.sys c k) → K w.kern c r s →
      Step cl K E w (.event i ⟨c, r⟩) ⟨Function.update w.slot i (.busy (k r)), s⟩
  | finish {w : Site ι C R D σ} {i : ι} {res : Option D} : w.slot i = .busy (.ret res) →
      Step cl K E w (.finish i) ⟨Function.update w.slot i (res.elim .gone .idle), w.kern⟩
  | world {w : Site ι C R D σ} {s : σ} : E w.kern s → Step cl K E w .world ⟨w.slot, s⟩

/-- All clients are still to come. -/
def fresh (s : σ) : Site ι C R D σ := ⟨fun _ => .fresh, s⟩

variable (F : Shares σ V) (K : Kernel C R σ) (cl : Client C R D O)

/-- What the program of a client comes to under the invariant. -/
def Restores (Inv : D → V → Prop) (p : Prog C R (Option D)) (v : V) : Prop :=
  p.Local F K (fun res v' => ∀ d, res = some d → Inv d v') v

/-- The discipline of one client: an invariant between operations, under which
every operation that is allowed keeps to its share and restores it. -/
structure Keeps (Inv : D → V → Prop) (Pre : O → D → Prop) : Prop where
  boot : Restores F K Inv cl.boot F.empty
  op : ∀ o d v, Inv d v → Pre o d → Restores F K Inv (cl.op o d) v

/-- A share fits what a client is doing. -/
def Fits (Inv : D → V → Prop) (slot : Slot C R D) (v : V) : Prop :=
  match slot with
  | .fresh => v = F.empty
  | .idle d => Inv d v
  | .busy p => Restores F K Inv p v
  | .gone => True

/-- Every client has its share, and the shares are apart. -/
structure Settled (Inv : D → V → Prop) (w : Site ι C R D σ) (v : ι → V) : Prop where
  sat : ∀ i, F.Sat (v i) w.kern
  apart : ∀ i j, i ≠ j → F.Apart (v i) (v j)
  fits : ∀ i, Fits F K Inv (w.slot i) (v i)

variable {F K cl} {E : σ → σ → Prop} {Inv : D → V → Prop} {Pre : O → D → Prop}

/-- One client goes on to something its share fits. -/
theorem Settled.slot {w : Site ι C R D σ} {v : ι → V} (h : Settled F K Inv w v) {i : ι}
    {t : Slot C R D} (ht : Fits F K Inv t (v i)) :
    Settled F K Inv ⟨Function.update w.slot i t, w.kern⟩ v where
  sat := h.sat
  apart := h.apart
  fits j := by
    by_cases hj : j = i
    · subst hj
      simp only [Function.update_self]
      exact ht
    · simp only [Function.update_of_ne hj]
      exact h.fits j

/-- One client moves. -/
theorem Settled.moves {w : Site ι C R D σ} {v : ι → V} (h : Settled F K Inv w v) {i : ι}
    {t : Slot C R D} {s : σ} {v' : V} (hmove : F.Moves (v i) w.kern v' s)
    (ht : Fits F K Inv t v') :
    Settled F K Inv ⟨Function.update w.slot i t, s⟩ (Function.update v i v') where
  sat j := by
    by_cases hj : j = i
    · subst hj
      rw [Function.update_self]
      exact hmove.sat
    · rw [Function.update_of_ne hj]
      exact F.sat_of_same (h.sat j) (hmove.others _ (h.apart i j (Ne.symm hj)) (h.sat j)).1
  apart j j' hne := by
    have hother : ∀ {a}, a ≠ i → F.Apart v' (v a) := fun ha =>
      (hmove.others _ (h.apart i _ (Ne.symm ha)) (h.sat _)).2
    by_cases hj : j = i
    · subst hj
      rw [Function.update_self, Function.update_of_ne (Ne.symm hne)]
      exact hother (Ne.symm hne)
    · rw [Function.update_of_ne hj]
      by_cases hj' : j' = i
      · subst hj'
        rw [Function.update_self]
        exact F.apart_symm (hother hj)
      · rw [Function.update_of_ne hj']
        exact h.apart j j' hne
  fits j := by
    by_cases hj : j = i
    · subst hj
      simp only [Function.update_self]
      exact ht
    · simp only [Function.update_of_ne hj]
      exact h.fits j

/-- One step keeps the shares apart, and an event leaves the shares of all but
its own client as they are. -/
theorem Settled.step (hD : Keeps F K cl Inv Pre) (hE : ∀ s s' v, E s s' → F.Sat v s → F.Sat v s')
    {w w' : Site ι C R D σ} {l : Turn ι C R O} {v : ι → V} (hs : Step cl K E w l w')
    (h : Settled F K Inv w v)
    (hpre : ∀ i o d, l = .begin i o → w.slot i = .idle d → Pre o d) :
    ∃ v', Settled F K Inv w' v' ∧
      ∀ i e, l = .event i e → ∀ j, j ≠ i → v' j = v j ∧ F.Same (v j) w.kern w'.kern := by
  cases hs with
  | @create i hslot =>
      have hempty : v i = F.empty := by
        have hfits := h.fits i
        rw [hslot] at hfits
        exact hfits
      refine ⟨v, h.slot ?_, fun _ _ hl => by cases hl⟩
      rw [hempty]
      exact hD.boot
  | @begin i o d hslot =>
      have hinv : Inv d (v i) := by
        have hfits := h.fits i
        rw [hslot] at hfits
        exact hfits
      exact ⟨v, h.slot (hD.op o d _ hinv (hpre i o d rfl hslot)), fun _ _ hl => by cases hl⟩
  | @event i c k r s hslot hK =>
      have hlocal : Restores F K Inv (.sys c k) (v i) := by
        have hfits := h.fits i
        rw [hslot] at hfits
        exact hfits
      obtain ⟨v', hmove, hk⟩ := hlocal _ r s (h.sat i) hK
      refine ⟨Function.update v i v', h.moves hmove hk, fun j e hl j' hne => ?_⟩
      cases hl
      exact ⟨Function.update_of_ne hne .., (hmove.others _ (h.apart _ _ (Ne.symm hne)) (h.sat _)).1⟩
  | @finish i res hslot =>
      have hret : ∀ d, res = some d → Inv d (v i) := by
        have hfits := h.fits i
        rw [hslot] at hfits
        exact hfits
      refine ⟨v, h.slot ?_, fun _ _ hl => by cases hl⟩
      cases res with
      | none => trivial
      | some d => exact hret d rfl
  | @world s hE' =>
      exact ⟨v, ⟨fun i => hE _ _ _ hE' (h.sat i), h.apart, h.fits⟩, fun _ _ hl => by cases hl⟩

end Site

end Effect
