import Libtuntap.Effect.Handle

/-!
# A hook in a library

What a library has to say goes through a function of the host's choice. The
function stands in a global, and the global is empty when the process starts.
The host may set it at any time, before there is any client and while the
programs of several are under way. The library itself fills it once, with a
function of its own, when a boot gets far enough; it leaves alone what it finds
there. A call through the empty global has no meaning.

Nothing in a client's operations looks at the global, so whether a run ever
calls through it empty is decided by the order of things. `Prog.FillsFirst` is
the condition on the boot alone: until the global is filled the boot says
nothing, and if it never fills it there is no client. That is enough, because
no client comes to be otherwise, and no operation runs without a client.

`heard_run` says where every message of a run went, from what the host did
only: to the function it set last, and to the library's own before that.
-/

universe u v w

namespace Effect

/-- What a call says through the hook, the replies after which the library fills
an empty one, the function it fills it with, and what the host sets. -/
structure HookSig (C : Type u) (R : C → Type v) (M A F : Type) where
  message : C → Option M
  fills : (c : C) → R c → Bool
  own : F
  choose : A → F

/-- Clients on a table of handles, and the hook they share. -/
structure Hooked (ι : Type) (C : Type u) (R : C → Type v) (N : Type) (D : Type v)
    (F : Type) where
  world : World ι C R N D
  hook : Option F

/-- What happens in one step. -/
inductive HookLabel (ι : Type) (C : Type u) (R : C → Type v) (N : Type) (O : Type w)
    (A : Type) where
  | within (l : Label ι C R N O)
  | choose (a : A)

variable {C : Type u} {R : C → Type v} {N : Type} {D : Type v} {O : Type w} {ι : Type}
  {M A F : Type}

namespace HookSig

variable (S : HookSig C R M A F)

/-- The hook after a step of the clients. -/
def after (hook : Option F) : Label ι C R N O → Option F
  | .event _ e => if S.fills e.1 e.2 then some (hook.getD S.own) else hook
  | _ => hook

/-- What one step says, with what the hook held. -/
def heardAt (hook : Option F) : HookLabel ι C R N O A → Option (Option F × M)
  | .within (.event _ e) => (S.message e.1).map fun m => (hook, m)
  | _ => none

/-- What a run says, in order, each with what the hook held then. -/
def heard (tr : List (Hooked ι C R N D F × HookLabel ι C R N O A × Hooked ι C R N D F)) :
    List (Option F × M) :=
  tr.filterMap fun x => S.heardAt x.1.hook x.2.1

/-- The function that messages go to after a step of the host. -/
def chosenAfter (f : F) : HookLabel ι C R N O A → F
  | .choose a => S.choose a
  | .within _ => f

/-- What is said along some labels, each with the function that the host chose
last, or `f` before the first choice. -/
def chosen : F → List (HookLabel ι C R N O A) → List (Option F × M)
  | _, [] => []
  | f, l :: rest => (S.heardAt (some f) l).toList ++ chosen (S.chosenAfter f l) rest

end HookSig

/-- Until the hook is filled nothing is said, and if it never is there is no
client. -/
def Prog.FillsFirst (S : HookSig C R M A F) : Prog C R (Option D) → Prop
  | .ret res => res = none
  | .sys c k => S.message c = none ∧ ∀ r, S.fills c r = false → (k r).FillsFirst S

/-- No client is further than a boot that has yet to fill the hook. -/
def Slot.Unborn (S : HookSig C R M A F) : Slot C R D → Prop
  | .fresh | .gone => True
  | .idle _ => False
  | .busy p => p.FillsFirst S

namespace Hooked

variable [DecidableEq N] [DecidableEq ι]

/-- One step of the clients, or a choice of the host. -/
inductive Step (S : HookSig C R M A F) (H : HandleSig C R N) (cl : Client C R D O) :
    Hooked ι C R N D F → HookLabel ι C R N O A → Hooked ι C R N D F → Prop where
  | within {h : Hooked ι C R N D F} {l : Label ι C R N O} {w : World ι C R N D} :
      World.Step H cl h.world l w → Step S H cl h (.within l) ⟨w, S.after h.hook l⟩
  | choose {h : Hooked ι C R N D F} (a : A) :
      Step S H cl h (.choose a) ⟨h.world, some (S.choose a)⟩

/-- The hook holds the function that was chosen last, or it is empty, nothing was
chosen, and there is no client yet. -/
def Holds (S : HookSig C R M A F) (f : F) (h : Hooked ι C R N D F) : Prop :=
  h.hook = some f ∨ h.hook = none ∧ f = S.own ∧ ∀ i, (h.world.slot i).Unborn S

variable {S : HookSig C R M A F} {H : HandleSig C R N} {cl : Client C R D O}

omit [DecidableEq N] in
/-- One slot of a world without clients changed, and there is still none. -/
theorem unborn_update {slot : ι → Slot C R D} {i : ι} {s : Slot C R D}
    (h : ∀ j, (slot j).Unborn S) (hs : s.Unborn S) :
    ∀ j, (Function.update slot i s j).Unborn S := by
  intro j
  by_cases hj : j = i
  · subst hj
    rw [Function.update_self]
    exact hs
  · rw [Function.update_of_ne hj]
    exact h j

/-- While there is no client, a step says nothing, and fills the hook or leaves
it that way. -/
theorem unborn_step (hboot : cl.boot.FillsFirst S) {w w' : World ι C R N D}
    {l : Label ι C R N O} (hs : World.Step H cl w l w') (h : ∀ i, (w.slot i).Unborn S)
    (hook : Option F) :
    S.heardAt hook (.within l : HookLabel ι C R N O A) = none ∧
      (S.after none l = some S.own ∨
        S.after none l = none ∧ ∀ i, (w'.slot i).Unborn S) := by
  cases hs with
  | @create i hslot => exact ⟨rfl, Or.inr ⟨rfl, unborn_update h hboot⟩⟩
  | @begin i o d hslot =>
      have hidle := h i
      rw [hslot] at hidle
      exact hidle.elim
  | @event i c k r hslot hfresh =>
      have hbusy := h i
      rw [hslot] at hbusy
      obtain ⟨hsilent, hk⟩ := hbusy
      refine ⟨by simp [HookSig.heardAt, hsilent], ?_⟩
      cases hfills : S.fills c r with
      | true => exact Or.inl (by simp [HookSig.after, hfills])
      | false =>
          refine Or.inr ⟨by simp [HookSig.after, hfills], ?_⟩
          exact unborn_update h (hk r hfills)
  | @finish i res hslot =>
      have hbusy := h i
      rw [hslot] at hbusy
      obtain rfl : res = none := hbusy
      exact ⟨rfl, Or.inr ⟨rfl, unborn_update h trivial⟩⟩
  | hostOpen hn => exact ⟨rfl, Or.inr ⟨rfl, h⟩⟩
  | hostClose hn => exact ⟨rfl, Or.inr ⟨rfl, h⟩⟩

omit [DecidableEq N] [DecidableEq ι] in
/-- A hook that is filled is left alone. -/
theorem after_some (S : HookSig C R M A F) (f : F) (l : Label ι C R N O) :
    S.after (some f) l = some f := by
  cases l with
  | event i e =>
      simp only [HookSig.after, Option.getD_some]
      exact ite_self _
  | create | begin | finish | hostOpen | hostClose => rfl

/-- One step says what it says through the function chosen last. -/
theorem Holds.step (hboot : cl.boot.FillsFirst S) {h h' : Hooked ι C R N D F}
    {l : HookLabel ι C R N O A} (hs : Step S H cl h l h') {f : F} (hh : h.Holds S f) :
    h'.Holds S (S.chosenAfter f l) ∧ S.heardAt h.hook l = S.heardAt (some f) l := by
  cases hs with
  | choose a => exact ⟨Or.inl rfl, rfl⟩
  | @within l w hw =>
      rcases hh with hsome | ⟨hnone, rfl, hunborn⟩
      · rw [hsome]
        exact ⟨Or.inl (after_some S f l), rfl⟩
      · rw [hnone]
        obtain ⟨hsilent, hafter⟩ := unborn_step (A := A) hboot hw hunborn (some S.own)
        have hsilent' := (unborn_step (A := A) hboot hw hunborn none).1
        refine ⟨?_, hsilent'.trans hsilent.symm⟩
        rcases hafter with hfilled | hstill
        · exact Or.inl hfilled
        · exact Or.inr ⟨hstill.1, rfl, hstill.2⟩

/-- Along a run every message goes to the function chosen last. -/
theorem Holds.run (hboot : cl.boot.FillsFirst S) {h h' : Hooked ι C R N D F}
    {tr : List (Hooked ι C R N D F × HookLabel ι C R N O A × Hooked ι C R N D F)}
    (hr : Run (Step S H cl) h tr h') {f : F} (hh : h.Holds S f) :
    S.heard tr = S.chosen f (tr.map fun x => x.2.1) := by
  induction hr generalizing f with
  | nil => rfl
  | cons hs _ ih =>
      obtain ⟨hnext, hheard⟩ := hh.step hboot hs
      have hrest := ih hnext
      unfold HookSig.heard at hrest ⊢
      rw [List.filterMap_cons, List.map_cons, HookSig.chosen, ← hrest, hheard]
      cases S.heardAt (some f) _ with
      | none => rfl
      | some m => rfl

/-- From an empty hook and without clients, every message of a run goes to the
function the host chose last, or to the library's own. -/
theorem heard_run (hboot : cl.boot.FillsFirst S) {h h' : Hooked ι C R N D F}
    {tr : List (Hooked ι C R N D F × HookLabel ι C R N O A × Hooked ι C R N D F)}
    (hr : Run (Step S H cl) h tr h') (hhook : h.hook = none)
    (hfresh : ∀ i, h.world.slot i = .fresh) :
    S.heard tr = S.chosen S.own (tr.map fun x => x.2.1) := by
  refine Holds.run hboot hr (Or.inr ⟨hhook, rfl, fun i => ?_⟩)
  rw [hfresh i]
  trivial

/-! ## What is said -/

/-- Every program under way only says what satisfies `P`. -/
def Speaks (S : HookSig C R M A F) (P : M → Prop) (w : World ι C R N D) : Prop :=
  ∀ i p, w.slot i = .busy p → p.AllCalls fun c => ∀ m, S.message c = some m → P m

variable {P : M → Prop}

omit [DecidableEq N] in
theorem Speaks.update {w : World ι C R N D} (h : Speaks S P w) {t : N → Option (Owner ι)}
    {i : ι} {s : Slot C R D}
    (hs : ∀ p, s = .busy p → p.AllCalls fun c => ∀ m, S.message c = some m → P m) :
    Speaks S P ⟨t, Function.update w.slot i s⟩ := by
  intro j p hj
  dsimp only at hj
  by_cases hji : j = i
  · subst hji
    rw [Function.update_self] at hj
    exact hs p hj
  · rw [Function.update_of_ne hji] at hj
    exact h j p hj

/-- What a step says satisfies what every program's messages do. -/
theorem Speaks.step (hboot : cl.boot.AllCalls fun c => ∀ m, S.message c = some m → P m)
    (hop : ∀ o d, (cl.op o d).AllCalls fun c => ∀ m, S.message c = some m → P m)
    {h h' : Hooked ι C R N D F} {l : HookLabel ι C R N O A} (hs : Step S H cl h l h')
    (hw : Speaks S P h.world) :
    Speaks S P h'.world ∧ ∀ x, S.heardAt h.hook l = some x → P x.2 := by
  cases hs with
  | choose a => exact ⟨hw, nofun⟩
  | @within l w hstep =>
      cases hstep with
      | @create i hslot =>
          exact ⟨hw.update fun p hp => Slot.busy.inj hp ▸ hboot, nofun⟩
      | @begin i o d hslot =>
          exact ⟨hw.update fun p hp => Slot.busy.inj hp ▸ hop o d, nofun⟩
      | @event i c k r hslot hfresh =>
          have hbusy := hw i _ hslot
          refine ⟨hw.update fun p hp => Slot.busy.inj hp ▸ hbusy.2 r, fun x hx => ?_⟩
          obtain ⟨m, hm, rfl⟩ := Option.map_eq_some_iff.mp hx
          exact hbusy.1 m hm
      | @finish i res hslot =>
          refine ⟨hw.update fun p hp => ?_, nofun⟩
          cases res with
          | none => cases hp
          | some d => cases hp
      | hostOpen hn => exact ⟨hw, nofun⟩
      | hostClose hn => exact ⟨hw, nofun⟩

/-- From a world without clients, every message of a run satisfies what the
messages of the boot and of every operation do. -/
theorem heard_satisfies (hboot : cl.boot.AllCalls fun c => ∀ m, S.message c = some m → P m)
    (hop : ∀ o d, (cl.op o d).AllCalls fun c => ∀ m, S.message c = some m → P m)
    {h h' : Hooked ι C R N D F}
    {tr : List (Hooked ι C R N D F × HookLabel ι C R N O A × Hooked ι C R N D F)}
    (hr : Run (Step S H cl) h tr h') (hfresh : ∀ i, h.world.slot i = .fresh) :
    ∀ x ∈ S.heard tr, P x.2 := by
  have h0 : Speaks S P h.world := by
    intro i p hp
    rw [hfresh i] at hp
    cases hp
  have hall := (hr.invariant (I := fun h => Speaks S P h.world) h0 fun _ _ hs hw =>
    (Speaks.step hboot hop hs hw).1).2
  intro x hx
  obtain ⟨y, hy, hxy⟩ := List.mem_filterMap.mp hx
  exact (Speaks.step hboot hop (hr.step_of_mem y hy) (hall y hy).1).2 x hxy

end Hooked

end Effect
