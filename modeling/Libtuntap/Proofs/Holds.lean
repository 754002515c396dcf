import Libtuntap.Effect.Shares
import Libtuntap.Proofs.Idle
import Libtuntap.Proofs.Ownership
import Libtuntap.Proofs.Started

/-!
# What a device holds of the machine

A Linux device holds descriptors, and through a descriptor that is attached it
holds an interface, which it knows by name. That is its share of the machine. The
kernel below knows nothing of it: a request goes to whichever interface has the
name, and a `close` to whichever descriptor has the number.

Each lemma here is about one call on a machine that has the share. It says what
becomes of the share and that whatever is held apart from it is left alone, the
interface with its flags, addresses and packets included. No two descriptors are
ever attached to one interface and no two interfaces have one name, and this is
all that is needed of the kernel to keep devices apart.
-/

namespace Libtuntap

open Effect CMem

/-- A machine: no negative number is a descriptor, and the indices of interfaces
are positive `int`s. -/
structure Host extends Kern where
  negative : ∀ fd, fd < 0 → fds fd = none
  indexed : ∀ i f, ifs i = some f → i < 2 ^ 31

/-- The kernel on machines. -/
def Host.kernel (R : Rules) : Kernel Call Resp Host := fun s c r s' =>
  Kern.Step R s.toKern c r s'.toKern

/-- What a descriptor is held as. -/
inductive Hold where
  | socket (domain : Domain)
  | node
  | link (i : Nat) (name : CString)

def Hold.desc : Hold → Desc
  | .socket domain => .socket domain
  | .node => .tun none
  | .link i _ => .tun (some i)

/-- What a device holds, by descriptor. -/
abbrev Share := Int → Option Hold

namespace Share

/-- The machine has it: every descriptor is what it is held as, every interface
is there under its name, and none is attached twice. -/
structure Sat (v : Share) (s : Host) : Prop where
  desc : ∀ fd h, v fd = some h → s.fds fd = some h.desc
  iface : ∀ fd i name, v fd = some (.link i name) → ∃ f, s.ifs i = some f ∧ f.name = name
  once : ∀ fd fd' i name name', v fd = some (.link i name) → v fd' = some (.link i name') →
    fd = fd'

/-- Descriptors and interfaces are different ones. -/
structure Apart (v w : Share) : Prop where
  desc : ∀ fd h h', v fd = some h → w fd ≠ some h'
  iface : ∀ fd fd' i name name', v fd = some (.link i name) → w fd' ≠ some (.link i name')

/-- Nothing in it has changed. -/
structure Same (v : Share) (s s' : Host) : Prop where
  desc : ∀ fd h, v fd = some h → s'.fds fd = s.fds fd
  iface : ∀ fd i name, v fd = some (.link i name) → s'.ifs i = s.ifs i

end Share

/-- The shares of a machine. -/
def shares : Shares Host Share where
  Sat := Share.Sat
  Apart := Share.Apart
  Same := Share.Same
  empty _ := none
  sat_of_same h hsame :=
    { desc := fun fd x hx => (hsame.desc fd x hx).trans (h.desc fd x hx)
      iface := fun fd i name hx => by
        obtain ⟨f, hf, hname⟩ := h.iface fd i name hx
        exact ⟨f, (hsame.iface fd i name hx).trans hf, hname⟩
      once := h.once }
  apart_symm h :=
    { desc := fun fd x x' hx hx' => h.desc fd x' x hx' hx
      iface := fun fd fd' i name name' hx hx' => h.iface fd' fd i name' name hx' hx }
  apart_empty v :=
    { desc := fun _ _ _ h => by cases h
      iface := fun _ _ _ _ _ h => by cases h }

/-! ## Moves -/

section Moves

variable {R : Rules} {v : Share} {s s' : Host} {fd : Int} {i : Nat} {name : CString}

/-- An interface that no descriptor can be attached to and held with. -/
def Kern.Unheld (s : Kern) (i : Nat) : Prop :=
  s.ifs i = none ∨ ∀ fd, s.fds fd ≠ some (.tun (some i))

theorem Share.Sat.not_unheld (hs : v.Sat s) (hv : v fd = some (.link i name)) : ¬ s.Unheld i := by
  rintro (hnone | hfree)
  · obtain ⟨f, hf, -⟩ := hs.iface fd i name hv
    rw [hnone] at hf
    cases hf
  · exact hfree fd (hs.desc fd _ hv)

/-- What a call may do to the machine so that nobody else is disturbed: it
changes descriptors that are closed or held, and interfaces that are unheld or
held, and afterwards holds no others. -/
theorem Share.Sat.moves {v' : Share} (h' : v'.Sat s')
    (hfds : ∀ fd, v fd = none → s.fds fd ≠ none → s'.fds fd = s.fds fd)
    (hifs : ∀ i, (∀ fd name, v fd ≠ some (.link i name)) → ¬ s.Unheld i → s'.ifs i = s.ifs i)
    (hdesc : ∀ fd h, v' fd = some h → v fd ≠ none ∨ s.fds fd = none)
    (hiface : ∀ fd i name, v' fd = some (.link i name) →
      (∃ fd' name', v fd' = some (.link i name')) ∨ s.Unheld i) :
    shares.Moves v s v' s' where
  sat := h'
  others w hapart hw := by
    have hnone : ∀ {fd h}, w fd = some h → v fd = none := by
      intro fd h hwfd
      cases hv : v fd with
      | none => rfl
      | some h' => exact absurd hwfd (hapart.desc fd h' h hv)
    refine ⟨⟨fun fd h hwfd => ?_, fun fd i name hwfd => ?_⟩, ⟨fun fd h h' hv' hwfd => ?_,
      fun fd fd' i name name' hv' hwfd => ?_⟩⟩
    · refine hfds fd (hnone hwfd) ?_
      rw [hw.desc fd h hwfd]
      simp
    · refine hifs i (fun fd' name' hv => ?_) (hw.not_unheld hwfd)
      exact hapart.iface fd' fd i name' name hv hwfd
    · rcases hdesc fd h hv' with hv | hclosed
      · exact hv (hnone hwfd)
      · rw [hw.desc fd h' hwfd] at hclosed
        cases hclosed
    · rcases hiface fd i name hv' with ⟨fd'', name'', hv⟩ | hunheld
      · exact hapart.iface fd'' fd' i name'' name' hv hwfd
      · exact hw.not_unheld hwfd hunheld

/-- Nothing happens. -/
theorem Share.Sat.stay (hs : v.Sat s) (hfds : s'.fds = s.fds) (hifs : s'.ifs = s.ifs) :
    shares.Moves v s v s' := by
  refine Share.Sat.moves ⟨fun fd h hv => ?_, fun fd i name hv => ?_, hs.once⟩
    (fun fd _ _ => congrFun hfds fd) (fun i _ _ => congrFun hifs i)
    (fun fd h hv => Or.inl (by simp [hv])) (fun fd i name hv => Or.inl ⟨fd, name, hv⟩)
  · rw [hfds]
    exact hs.desc fd h hv
  · rw [hifs]
    exact hs.iface fd i name hv

/-- An interface that is held is changed. -/
theorem Share.Sat.put (hs : v.Sat s) (hv : v fd = some (.link i name)) {g : Iface}
    (hput : s.Put s'.toKern i g) :
    shares.Moves v s (Function.update v fd (some (.link i g.name))) s' := by
  obtain ⟨hfds, hifs⟩ := hput
  have hlink : ∀ {fd' j c}, Function.update v fd (some (.link i g.name)) fd' = some (.link j c) →
      ∃ c', v fd' = some (.link j c') := by
    intro fd' j c h
    by_cases hfd : fd' = fd
    · subst hfd
      rw [Function.update_self] at h
      cases h
      exact ⟨name, hv⟩
    · rw [Function.update_of_ne hfd] at h
      exact ⟨c, h⟩
  refine Share.Sat.moves ⟨fun fd' h h' => ?desc, fun fd' j c h => ?iface, ?once⟩
    (fun fd' _ _ => congrFun hfds fd') (fun j hj _ => ?other) (fun fd' h h' => ?held)
    (fun fd' j c h => ?kept)
  case desc =>
    rw [hfds]
    by_cases hfd : fd' = fd
    · subst hfd
      rw [Function.update_self] at h'
      obtain rfl := Option.some.inj h'
      exact hs.desc fd' (.link i name) hv
    · rw [Function.update_of_ne hfd] at h'
      exact hs.desc _ _ h'
  case iface =>
    by_cases hfd : fd' = fd
    · subst hfd
      rw [Function.update_self] at h
      cases h
      exact ⟨g, by rw [hifs, Function.update_self], rfl⟩
    · rw [Function.update_of_ne hfd] at h
      have hji : j ≠ i := fun heq => hfd (hs.once _ _ _ _ _ (heq ▸ h) hv)
      rw [hifs, Function.update_of_ne hji]
      exact hs.iface _ _ _ h
  case once =>
    intro a b j c c' ha hb
    obtain ⟨_, ha⟩ := hlink ha
    obtain ⟨_, hb⟩ := hlink hb
    exact hs.once _ _ _ _ _ ha hb
  case other =>
    have hji : j ≠ i := fun heq => hj fd name (heq ▸ hv)
    rw [hifs, Function.update_of_ne hji]
  case held =>
    refine Or.inl ?_
    by_cases hfd : fd' = fd
    · rw [hfd, hv]
      simp
    · rw [Function.update_of_ne hfd] at h'
      simp [h']
  case kept =>
    obtain ⟨c', h⟩ := hlink h
    exact Or.inl ⟨fd', c', h⟩

/-- And keeps its name. -/
theorem Share.Sat.put_same (hs : v.Sat s) (hv : v fd = some (.link i name)) {g : Iface}
    (hput : s.Put s'.toKern i g) (hname : g.name = name) : shares.Moves v s v s' := by
  have h := hs.put hv hput
  rw [hname, Function.update_eq_self_iff.mpr hv.symm] at h
  exact h

/-- A closed descriptor is opened, or one that is held is attached to an unheld
interface. -/
theorem Share.Sat.gain (hs : v.Sat s) {h : Hold} (hfd : v fd ≠ none ∨ s.fds fd = none)
    (hv : ∀ i name, v fd ≠ some (.link i name))
    (hfds : s'.fds = Function.update s.fds fd (some h.desc))
    (hifs : ∀ i, ¬ s.Unheld i → s'.ifs i = s.ifs i)
    (hlink : ∀ i name, h = .link i name → s.Unheld i ∧ ∃ f, s'.ifs i = some f ∧ f.name = name) :
    shares.Moves v s (Function.update v fd (some h)) s' := by
  have hold : ∀ {fd' i name}, v fd' = some (.link i name) → fd' ≠ fd := by
    rintro fd' i name hv' rfl
    exact hv i name hv'
  have hcases : ∀ {fd' h'}, Function.update v fd (some h) fd' = some h' →
      fd' = fd ∧ h = h' ∨ fd' ≠ fd ∧ v fd' = some h' := by
    intro fd' h' hu
    by_cases hfd' : fd' = fd
    · subst hfd'
      rw [Function.update_self] at hu
      exact Or.inl ⟨rfl, Option.some.inj hu⟩
    · rw [Function.update_of_ne hfd'] at hu
      exact Or.inr ⟨hfd', hu⟩
  refine Share.Sat.moves ⟨fun fd' h' hu => ?desc, fun fd' i name hu => ?iface, ?once⟩
    (fun fd' hnone hopen => ?fds) (fun i _ hi => hifs i hi) (fun fd' h' hu => ?held)
    (fun fd' i name hu => ?kept)
  case desc =>
    rcases hcases hu with ⟨rfl, rfl⟩ | ⟨hne, hv'⟩
    · rw [hfds, Function.update_self]
    · rw [hfds, Function.update_of_ne hne]
      exact hs.desc _ _ hv'
  case iface =>
    rcases hcases hu with ⟨rfl, rfl⟩ | ⟨hne, hv'⟩
    · exact (hlink i name rfl).2
    · rw [hifs i (hs.not_unheld hv')]
      exact hs.iface _ _ _ hv'
  case once =>
    intro a b j c c' ha hb
    rcases hcases ha with ⟨rfl, rfl⟩ | ⟨-, hva⟩
    · rcases hcases hb with ⟨rfl, -⟩ | ⟨-, hvb⟩
      · rfl
      · exact absurd (hlink _ _ rfl).1 (hs.not_unheld hvb)
    · rcases hcases hb with ⟨rfl, rfl⟩ | ⟨-, hvb⟩
      · exact absurd (hlink _ _ rfl).1 (hs.not_unheld hva)
      · exact hs.once _ _ _ _ _ hva hvb
  case fds =>
    have hne : fd' ≠ fd := by
      rintro rfl
      rcases hfd with hv' | hclosed
      · exact hv' hnone
      · exact hopen hclosed
    rw [hfds, Function.update_of_ne hne]
  case held =>
    rcases hcases hu with ⟨rfl, -⟩ | ⟨-, hv'⟩
    · exact hfd
    · exact Or.inl (by simp [hv'])
  case kept =>
    rcases hcases hu with ⟨-, rfl⟩ | ⟨-, hv'⟩
    · exact Or.inr (hlink _ _ rfl).1
    · exact Or.inl ⟨fd', name, hv'⟩

/-- A descriptor that is held is closed, and the interface it was attached to
may go with it. -/
theorem Share.Sat.lose (hs : v.Sat s) {h : Hold} (hv : v fd = some h)
    (hfds : s'.fds = Function.update s.fds fd none)
    (hifs : ∀ i, (∀ name, h ≠ .link i name) → s'.ifs i = s.ifs i) :
    shares.Moves v s (Function.update v fd none) s' := by
  have hcases : ∀ {fd' h'}, Function.update v fd none fd' = some h' →
      fd' ≠ fd ∧ v fd' = some h' := by
    intro fd' h' hu
    by_cases hfd' : fd' = fd
    · subst hfd'
      rw [Function.update_self] at hu
      cases hu
    · rw [Function.update_of_ne hfd'] at hu
      exact ⟨hfd', hu⟩
  refine Share.Sat.moves ⟨fun fd' h' hu => ?desc, fun fd' i name hu => ?iface, ?once⟩
    (fun fd' hnone _ => ?fds) (fun i hi _ => hifs i fun name heq => hi fd name (heq ▸ hv))
    (fun fd' h' hu => Or.inl (by simp [(hcases hu).2]))
    (fun fd' i name hu => Or.inl ⟨fd', name, (hcases hu).2⟩)
  case desc =>
    rw [hfds, Function.update_of_ne (hcases hu).1]
    exact hs.desc _ _ (hcases hu).2
  case iface =>
    obtain ⟨hne, hv'⟩ := hcases hu
    rw [hifs i fun name' heq => hne (hs.once _ _ _ _ _ hv' (heq ▸ hv))]
    exact hs.iface _ _ _ hv'
  case once =>
    intro a b j c c' ha hb
    exact hs.once _ _ _ _ _ (hcases ha).2 (hcases hb).2
  case fds =>
    have hne : fd' ≠ fd := by
      rintro rfl
      rw [hv] at hnone
      cases hnone
    rw [hfds, Function.update_of_ne hne]

end Moves

/-! ## Calls that leave the share -/

/-- What the record of a started device says of its share. -/
def Share.Has (v : Share) (dev : Device) : Prop :=
  v dev.ctrlSock = some (.socket .inet) ∧
    ∃ i, v dev.tunFd = some (.link i (dev.ifName.cstr.take 15))

/-- A device holds what its record says, once it is started. -/
def Device.Holds (dev : Device) (v : Share) : Prop := dev.tunFd ≠ -1 → v.Has dev

section Calls

variable {R : Rules} {v : Share} {s s' : Host} {dev : Device} {fd : Int} {n : Nat} {arg : Buf n}

/-- What the record says is so. -/
theorem Share.Has.linked (h : v.Has dev) (hs : v.Sat s) :
    ∃ i f, v dev.tunFd = some (.link i f.name) ∧ Linked dev s.toKern i f := by
  obtain ⟨hsock, i, htun⟩ := h
  obtain ⟨f, hf, hname⟩ := hs.iface _ _ _ htun
  exact ⟨i, f, hname ▸ htun, hs.desc _ _ htun, hs.desc _ _ hsock, hf, hname⟩

/-- What refers to something is no negative number. -/
theorem Host.nonneg {d : Desc} (h : s.fds fd = some d) : 0 ≤ fd := by
  by_contra hneg
  rw [s.negative fd (by omega)] at h
  cases h

/-- A request in the name of the device is about the interface it holds. -/
theorem Share.Sat.alters (hs : v.Sat s) (hhas : 0 ≤ dev.ctrlSock → v.Has dev)
    (hn : Names dev n arg) {change : Iface → Iface}
    (ha : s.Alters dev.ctrlSock arg change s'.toKern) :
    ∃ i f, v dev.tunFd = some (.link i f.name) ∧ f.name = dev.ifName.cstr.take 15 ∧
      s.Put s'.toKern i (change f) := by
  obtain ⟨domain, hsock⟩ := ha.1
  obtain ⟨i, f, hv, hlink⟩ := (hhas (Host.nonneg hsock)).linked hs
  exact ⟨i, f, hv, hlink.reaches.name, hlink.reaches.alters hn ha⟩

/-- A request that leaves the name leaves the share. -/
theorem Share.Sat.altered (hs : v.Sat s) (hhas : 0 ≤ dev.ctrlSock → v.Has dev)
    (hn : Names dev n arg) {change : Iface → Iface}
    (ha : s.Alters dev.ctrlSock arg change s'.toKern) (hc : ∀ f, (change f).name = f.name) :
    shares.Moves v s v s' := by
  obtain ⟨i, f, hv, -, hput⟩ := hs.alters hhas hn ha
  exact hs.put_same hv hput (hc f)

end Calls

/-! ## Calls that change it -/

section Local

variable {R : Rules} {α : Type} {Q : α → Share → Prop} {v : Share}

/-- A closed number is not held. -/
theorem Share.Sat.closed {s : Host} {fd : Int} (hs : v.Sat s) (hfd : s.fds fd = none) :
    v fd = none := by
  cases hv : v fd with
  | none => rfl
  | some h =>
      rw [hs.desc fd h hv] at hfd
      cases hfd

end Local

end Libtuntap
