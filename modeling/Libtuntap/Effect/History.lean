import Libtuntap.Effect.Handle

/-!
# What a client is told, and what it saw

An operation answers its caller, and on the way to the answer it makes calls.
Whether the two agree is a matter of one operation. Over a run it becomes a
statement about histories: everything a client's operations answered so far, in
order, against all the calls it made so far, whoever else was running in
between.

`told_run` is the step from one to the other. An answer is read as a list of
facts, a call with its reply too, and if every operation tells what it saw, then
so does every history.
-/

universe u v w

namespace Effect

variable {C : Type u} {R : C → Type v} {N : Type} {D A : Type v} {O : Type v} {ι : Type}

/-- A client that remembers its operations, the state each found and what it
answered. -/
def Client.recording (boot : Prog C R (Option D)) (op : O → D → Prog C R (A × Option D)) :
    Client C R (D × List (O × D × A)) O where
  boot := boot >>= fun res => .ret (res.map (·, []))
  op o s := op o s.1 >>= fun r => .ret (r.2.map (·, s.2 ++ [(o, s.1, r.1)]))

/-- The event of one client that a step is. -/
def Label.eventOf [DecidableEq ι] (i : ι) : Label ι C R N O → List (Event C R)
  | .event j e => if j = i then [e] else []
  | _ => []

namespace World

variable [DecidableEq ι]

/-- The events of one client in a run. -/
def eventsOf {σ : Type*} (i : ι) (tr : List (σ × Label ι C R N O × σ)) : List (Event C R) :=
  tr.flatMap fun x => x.2.1.eventOf i

section Local

variable {E : Type v} {H : HandleSig C R N} {cl : Client C R E O}
  {J : Slot C R E → List (Event C R) → Prop}

/-- A judgment of one client by what it is doing and the events it has had, which
its own steps keep. -/
structure TraceInv (cl : Client C R E O) (J : Slot C R E → List (Event C R) → Prop) :
    Prop where
  create : ∀ {evs}, J .fresh evs → J (.busy cl.boot) evs
  begin : ∀ {s evs} o, J (.idle s) evs → J (.busy (cl.op o s)) evs
  event : ∀ {c k evs} r, J (.busy (.sys c k)) evs → J (.busy (k r)) (evs ++ [⟨c, r⟩])
  finish : ∀ {res evs}, J (.busy (.ret res)) evs → J (res.elim .gone .idle) evs

variable [DecidableEq N]

/-- One step keeps the judgment of every client. -/
theorem TraceInv.step (hJ : TraceInv cl J) {w w' : World ι C R N E} {l : Label ι C R N O}
    (hs : Step H cl w l w') {evs : ι → List (Event C R)} (h : ∀ i, J (w.slot i) (evs i)) (j : ι) :
    J (w'.slot j) (evs j ++ l.eventOf j) := by
  -- a step that is no event leaves the events of everybody as they are
  have hquiet : ∀ {slot : ι → Slot C R E} {i : ι} {s : Slot C R E}, (∀ j, J (slot j) (evs j)) →
      J s (evs i) → J (Function.update slot i s j) (evs j ++ []) := by
    intro slot i s hslot hs
    rw [List.append_nil]
    by_cases hj : j = i
    · subst hj
      rwa [Function.update_self]
    · rw [Function.update_of_ne hj]
      exact hslot j
  cases hs with
  | @create i hslot => exact hquiet h (hJ.create (hslot ▸ h i))
  | @begin i o d hslot => exact hquiet h (hJ.begin o (hslot ▸ h i))
  | @finish i res hslot => exact hquiet h (hJ.finish (hslot ▸ h i))
  | @event i c k r hslot hfresh =>
      have hi := h i
      rw [hslot] at hi
      have hnext := hJ.event r hi
      by_cases hj : j = i
      · subst hj
        simpa [Label.eventOf] using hnext
      · simpa [Label.eventOf, Ne.symm hj, Function.update_of_ne hj] using h j
  | hostOpen hn => simpa [Label.eventOf] using h j
  | hostClose hn => simpa [Label.eventOf] using h j

/-- The judgment at the end of a run. -/
theorem trace_run (hJ : TraceInv cl J) {w w' : World ι C R N E}
    {tr : List (World ι C R N E × Label ι C R N O × World ι C R N E)}
    (hr : Run (Step H cl) w tr w') {evs : ι → List (Event C R)}
    (h0 : ∀ i, J (w.slot i) (evs i)) (i : ι) : J (w'.slot i) (evs i ++ eventsOf i tr) := by
  induction hr generalizing evs with
  | nil w =>
      simpa [eventsOf] using h0 i
  | cons hs _ ih =>
      have hnext := ih fun j => hJ.step hs h0 j
      rwa [List.append_assoc] at hnext

end Local

/-! ## Histories -/

section Told

variable {X : Type*} {boot : Prog C R (Option D)} {op : O → D → Prog C R (A × Option D)}
  {told : O × D × A → List X} {seen : Event C R → List X}

/-- What has been told is what was seen, or will be at the end of the program
under way. -/
def Tells (told : O × D × A → List X) (seen : Event C R → List X) :
    Slot C R (D × List (O × D × A)) → List (Event C R) → Prop
  | .fresh, evs => evs = []
  | .idle s, evs => s.2.flatMap told = evs.flatMap seen
  | .busy p, evs => p.Ensures fun tr res =>
      ∀ s, res = some s → s.2.flatMap told = (evs ++ tr).flatMap seen
  | .gone, _ => True

theorem tells (hboot : boot.Ensures fun tr _ => tr.flatMap seen = [])
    (hop : ∀ o d, (op o d).Ensures fun tr r => told (o, d, r.1) = tr.flatMap seen) :
    TraceInv (Client.recording boot op) (Tells told seen) where
  create {evs} hevs := by
    obtain rfl : evs = [] := hevs
    refine hboot.bind fun tr res htr s hs => ?_
    obtain ⟨d, -, rfl⟩ := Option.map_eq_some_iff.mp hs
    simpa using htr.symm
  begin {s evs} o hs := by
    refine (hop o s.1).bind fun tr r hr s' hs' => ?_
    obtain ⟨d, -, rfl⟩ := Option.map_eq_some_iff.mp hs'
    have hidle : s.2.flatMap told = evs.flatMap seen := hs
    simp [hidle, hr]
  event {c k evs} r hp := by
    refine (hp r).mono fun tr res h s hs => ?_
    simpa using h s hs
  finish {res evs} hp := by
    cases res with
    | none => trivial
    | some s =>
        have htold := hp s rfl
        rwa [List.append_nil] at htold

variable [DecidableEq N]

/-- In every state of a run, a client between two operations has been told what
it saw. -/
theorem told_run {H : HandleSig C R N} (hboot : boot.Ensures fun tr _ => tr.flatMap seen = [])
    (hop : ∀ o d, (op o d).Ensures fun tr r => told (o, d, r.1) = tr.flatMap seen)
    {w w' : World ι C R N (D × List (O × D × A))}
    {tr : List (World ι C R N (D × List (O × D × A)) × Label ι C R N O ×
      World ι C R N (D × List (O × D × A)))}
    (hr : Run (Step H (Client.recording boot op)) w tr w') (h0 : ∀ i, w.slot i = .fresh)
    {i : ι} {d : D} {history : List (O × D × A)} (hi : w'.slot i = .idle (d, history)) :
    history.flatMap told = (eventsOf i tr).flatMap seen := by
  have hstart : ∀ i, Tells told seen (w.slot i) [] := by
    intro i
    rw [h0 i]
    rfl
  have hend := trace_run (tells hboot hop) hr hstart i
  rw [hi] at hend
  exact hend

end Told

end World

end Effect
