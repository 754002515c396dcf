import Libtuntap.Effect.Handle

/-!
# Handles accounted for

The discipline of `Effect.World` says that a client passes its own handles. It
does not say that the client gives them back. Here a client is judged by an
exact account: what it owns between operations is what its invariant says it
owns, and once it is gone it owns nothing.

A judgment of one client by what it is doing and what it owns holds of all of
them in every run, if what the client does itself keeps it. `LocalInv` is that
statement and `local_run` is the induction, and an account is the instance.
-/

universe u v w

namespace Effect

section Next

variable {C : Type u} {R : C → Type v} {N : Type} {H : HandleSig C R N}

/-- A fresh handle that is given back leaves what was owned. -/
theorem HandleSig.next_back {own : N → Prop} {c c' : C} {r : R c} {r' : R c'}
    (hd : H.drops c = none) (hg : H.gives c' r' = none) (hback : H.drops c' = H.gives c r)
    (hfresh : ∀ n, H.gives c r = some n → ¬ own n) :
    H.next (H.next own c r) c' r' = own := by
  funext n
  refine propext ?_
  unfold HandleSig.next
  rw [hg, hback, hd]
  constructor
  · rintro (hn | ⟨hn | ⟨hown, -⟩, hne⟩)
    · cases hn
    · exact absurd hn hne
    · exact hown
  · intro hown
    exact Or.inr ⟨Or.inr ⟨hown, nofun⟩, fun hn => hfresh n hn hown⟩

end Next

namespace World

variable {C : Type u} {R : C → Type v} {N : Type} {D : Type v} {O : Type w} {ι : Type}

/-- A judgment of one client that the client's own steps keep. -/
structure LocalInv (H : HandleSig C R N) (cl : Client C R D O) (Pre : O → D → Prop)
    (J : Slot C R D → (N → Prop) → Prop) : Prop where
  create : ∀ {own}, J .fresh own → J (.busy cl.boot) own
  begin : ∀ {o d own}, J (.idle d) own → Pre o d → J (.busy (cl.op o d)) own
  uses : ∀ {c k own}, J (.busy (.sys c k)) own → ∀ n, H.uses c n → own n
  event : ∀ {c k own r}, J (.busy (.sys c k)) own →
    (∀ n, H.gives c r = some n → ¬ own n) → J (.busy (k r)) (H.next own c r)
  finish : ∀ {res own}, J (.busy (.ret res)) own → J (res.elim .gone .idle) own

/-- Every client is judged so. -/
def All (J : Slot C R D → (N → Prop) → Prop) (w : World ι C R N D) : Prop :=
  ∀ i, J (w.slot i) (w.owned i)

variable {H : HandleSig C R N} {cl : Client C R D O} {Pre : O → D → Prop}
  {J : Slot C R D → (N → Prop) → Prop}

theorem All.table {w : World ι C R N D} (h : All J w) {t : N → Option (Owner ι)}
    (ht : ∀ j n, t n = some (.client j) ↔ w.table n = some (.client j)) : All J ⟨t, w.slot⟩ := by
  intro j
  have howned : (World.mk t w.slot).owned j = w.owned j := by
    funext n
    exact propext (ht j n)
  rw [howned]
  exact h j

variable [DecidableEq ι]

theorem All.update {w : World ι C R N D} (h : All J w) {t : N → Option (Owner ι)} {i : ι}
    {s : Slot C R D}
    (ht : ∀ j, j ≠ i → ∀ n, t n = some (.client j) ↔ w.table n = some (.client j))
    (hs : J s fun n => t n = some (.client i)) : All J ⟨t, Function.update w.slot i s⟩ := by
  intro j
  by_cases hj : j = i
  · subst hj
    dsimp only
    rw [Function.update_self]
    exact hs
  · have howned : (World.mk t (Function.update w.slot i s)).owned j = w.owned j := by
      funext n
      exact propext (ht j hj n)
    rw [howned]
    dsimp only
    rw [Function.update_of_ne hj]
    exact h j

variable [DecidableEq N]

/-- One step keeps the judgment of every client, and an event is passed owned
handles only. -/
theorem All.step (hJ : LocalInv H cl Pre J) (hdrops : ∀ c n, H.drops c = some n → H.uses c n)
    {w w' : World ι C R N D} {l : Label ι C R N O} (hs : Step H cl w l w') (h : All J w)
    (hpre : ∀ i o d, l = .begin i o → w.slot i = .idle d → Pre o d) :
    All J w' ∧ ∀ i e, l = .event i e → ∀ n, H.uses e.1 n → w.owned i n := by
  -- a step changes one slot, and what it does to the table concerns that client
  have hat : ∀ {i s}, w.slot i = s → J s (w.owned i) := fun {i _} hslot => hslot ▸ h i
  cases hs with
  | @create i hslot =>
      exact ⟨h.update (fun _ _ _ => Iff.rfl) (hJ.create (hat hslot)), fun _ _ hl => by cases hl⟩
  | @begin i o d hslot =>
      have hbusy := hJ.begin (hat hslot) (hpre i o d rfl hslot)
      exact ⟨h.update (fun _ _ _ => Iff.rfl) hbusy, fun _ _ hl => by cases hl⟩
  | @event i c k r hslot hfresh =>
      have huse := hJ.uses (hat hslot)
      refine ⟨h.update (fun j hj => after_other hj hfresh ?_) ?_, ?_⟩
      · exact fun n hn => huse n (hdrops c n hn)
      · rw [after_self]
        refine hJ.event (hat hslot) fun n hn hown => ?_
        have htable : w.table n = some (.client i) := hown
        rw [hfresh n hn] at htable
        cases htable
      · intro j e hl n hn
        cases hl
        exact huse n hn
  | @finish i res hslot =>
      exact ⟨h.update (fun _ _ _ => Iff.rfl) (hJ.finish (hat hslot)), fun _ _ hl => by cases hl⟩
  | @hostOpen n hn =>
      refine ⟨h.table fun j m => ?_, fun _ _ hl => by cases hl⟩
      by_cases hm : m = n
      · subst hm
        simp [hn]
      · rw [Function.update_of_ne hm]
  | @hostClose n hn =>
      refine ⟨h.table fun j m => ?_, fun _ _ hl => by cases hl⟩
      by_cases hm : m = n
      · subst hm
        simp [hn]
      · rw [Function.update_of_ne hm]

/-- In every run that begins operations only where they are allowed, the
judgment holds at the end and every event is passed owned handles only. -/
theorem local_run (hJ : LocalInv H cl Pre J) (hdrops : ∀ c n, H.drops c = some n → H.uses c n)
    {w w' : World ι C R N D}
    {tr : List (World ι C R N D × Label ι C R N O × World ι C R N D)}
    (hr : Run (Step H cl) w tr w') (h0 : All J w)
    (hpre : ∀ x ∈ tr, ∀ i o d, x.2.1 = .begin i o → x.1.slot i = .idle d → Pre o d) :
    All J w' ∧ ∀ x ∈ tr, ∀ i e, x.2.1 = .event i e → ∀ n, H.uses e.1 n → x.1.owned i n := by
  obtain ⟨hend, hall⟩ := hr.invariant h0 fun x hx hs hx1 =>
    (All.step hJ hdrops hs hx1 (hpre x hx)).1
  refine ⟨hend, fun x hx => ?_⟩
  exact (All.step hJ hdrops (hr.step_of_mem x hx) (hall x hx).1 (hpre x hx)).2

/-! ## Accounts -/

/-- What is owned at the end of an operation. -/
def Ends (Inv : D → (N → Prop) → Prop) : Option D → (N → Prop) → Prop
  | some d, own => Inv d own
  | none, own => ∀ n, ¬ own n

/-- What a client owns, by what it is doing. -/
def Accounted (H : HandleSig C R N) (Inv : D → (N → Prop) → Prop) :
    Slot C R D → (N → Prop) → Prop
  | .idle d, own => Inv d own
  | .busy p, own => p.Safe H (Ends Inv) own
  | .fresh, own | .gone, own => ∀ n, ¬ own n

/-- Every operation that is allowed is safe and restores the account. -/
structure Accounts (H : HandleSig C R N) (cl : Client C R D O)
    (Inv : D → (N → Prop) → Prop) (Pre : O → D → Prop) : Prop where
  boot : cl.boot.Safe H (Ends Inv) fun _ => False
  op : ∀ o d own, Inv d own → Pre o d → (cl.op o d).Safe H (Ends Inv) own

omit [DecidableEq ι] [DecidableEq N] in
theorem Accounts.local {Inv : D → (N → Prop) → Prop} (h : Accounts H cl Inv Pre) :
    LocalInv H cl Pre (Accounted H Inv) where
  create {own} hown := by
    have hnone : own = fun _ => False := funext fun n => eq_false (hown n)
    rw [hnone]
    exact h.boot
  begin hinv hpre := h.op _ _ _ hinv hpre
  uses hsafe := hsafe.1
  event hsafe hfresh := hsafe.2 _ hfresh
  finish {res _} hsafe := by
    cases res with
    | none => exact hsafe
    | some d => exact hsafe

end World

end Effect
