import Libtuntap.Proofs.Holds
import Libtuntap.Proofs.Inet6

/-!
# Devices do not meet

Any number of Linux devices live in one process. Their calls come in any order,
and between two calls of one operation may come any calls of the others. A
device that is started counts on three things it never looks at again: that
`tun_fd` is still its tunnel, that `ctrl_sock` is still a socket, and that the
name it has in the record is still the name of the interface behind `tun_fd`.

Nothing in the library compares devices. It keeps them apart all the same, for
each call of an operation is about what the device holds: it opens what was
closed, attaches what nobody is attached to, names the interface it holds, and
closes what it opened. So the record of one device is right whatever the others
are in the middle of, and nothing they do changes its interface.

The calls left out are those of `Op.Allowed`, on a device whose start failed.
-/

namespace Libtuntap

open Effect CMem

/-! ## The operations that hold what they held -/

section InPlace

variable {R : Rules} {v : Share} {libc : Libc} {dev : Device}

end InPlace

/-! ## The operations that change what is held -/

section Start

variable {R : Rules} {v : Share} {dev : Device}

end Start

section Ends

variable {R : Rules} {v : Share} {dev : Device} {α : Type} {Q : α → Share → Prop}

end Ends

/-! ## The rename and IPv6 -/

section Changes

variable {R : Rules} {v : Share} {libc : Libc} {dev : Device}

end Changes

/-! ## Runs of any number of devices -/

section Discipline

variable {R : Rules} {libc : Libc}

theorem Device.Holds.of_comes {v : Share} {dev : Device} {fields : List Field}
    {r : Ret × Option Device} (h : dev.Holds v) (hname : .name ∉ fields) (hr : Comes fields dev r) :
    ∀ d, r.2 = some d → d.Holds v := by
  intro d hd
  obtain ⟨d', hd', hframe⟩ := hr
  obtain rfl := Option.some.inj (hd.symm.trans hd')
  unfold Device.Holds Share.Has
  rw [hframe.tunFd, hframe.ctrlSock, hframe.name hname]
  exact h

end Discipline

/-- What the rest of the process and of the machine does: it leaves sockets and
tunnels open and interfaces that are attached where they are, under the name
they have. -/
structure OtherMove (s s' : Host) : Prop where
  fds : ∀ fd d, s.fds fd = some d → d ≠ .host → s'.fds fd = some d
  ifs : ∀ fd i f, s.fds fd = some (.tun (some i)) → s.ifs i = some f →
    ∃ f', s'.ifs i = some f' ∧ f'.name = f.name

theorem OtherMove.sat {s s' : Host} (h : OtherMove s s') {v : Share} (hs : v.Sat s) : v.Sat s' where
  desc fd x hv := h.fds fd _ (hs.desc fd x hv) (by cases x <;> simp [Hold.desc])
  iface fd i name hv := by
    obtain ⟨f, hf, hname⟩ := hs.iface fd i name hv
    obtain ⟨f', hf', hkeep⟩ := h.ifs fd i f (hs.desc fd _ hv) hf
    exact ⟨f', hf', hkeep.trans hname⟩
  once := hs.once

/-- A site of Linux devices. -/
abbrev LinuxSite (ι : Type) := Site ι Call Resp Device Host

/-- The device is between two operations and started. -/
def LinuxSite.Running {ι : Type} (w : LinuxSite ι) (i : ι) (dev : Device) : Prop :=
  w.slot i = .idle dev ∧ dev.tunFd ≠ -1

section Runs

variable {R : Rules} {libc : Libc} {ι : Type}

theorem Settled.running {w : LinuxSite ι} {v : ι → Share}
    (h : Site.Settled shares (Host.kernel R) Device.Holds w v) {i : ι} {dev : Device}
    (hi : w.Running i dev) : (v i).Has dev := by
  have hfits := h.fits i
  rw [hi.1] at hfits
  exact hfits hi.2

/-- The interface a running device is linked to is the one it holds. -/
theorem Settled.link {w : LinuxSite ι} {v : ι → Share}
    (h : Site.Settled shares (Host.kernel R) Device.Holds w v) {i : ι} {dev : Device}
    (hi : w.Running i dev) {m : Nat} {f : Iface} (hlink : Linked dev w.kern.toKern m f) :
    v i dev.tunFd = some (.link m f.name) := by
  obtain ⟨m', f', hv, hlink'⟩ := (Settled.running h hi).linked (h.sat i)
  obtain ⟨rfl, rfl⟩ := hlink.unique ⟨hlink'.attached, hlink'.reaches.iface⟩
  exact hv

end Runs

/-! ## Two tunnels -/

def Host.blank : Host where
  toKern := .blank
  negative _ _ := rfl
  indexed _ _ h := by cases h

/-- A descriptor is set. -/
def Host.setFd (s : Host) (fd : Int) (d : Desc) (h0 : 0 ≤ fd) : Host where
  toKern := s.toKern.setFd fd (some d)
  negative n hn := by
    change Function.update s.fds fd (some d) n = none
    rw [Function.update_of_ne (by omega)]
    exact s.negative n hn
  indexed := s.indexed

/-- An interface is set, under a name no other has. -/
def Host.setIface (s : Host) (i : Nat) (f : Iface) (hi : i < 2 ^ 31) (hshort : f.name.strlen ≤ 15)
    (hname : ∀ j g, s.ifs j = some g → g.name = f.name → j = i) : Host where
  fds := s.fds
  ifs := Function.update s.ifs i (some f)
  distinct a b fa fb ha hb hab := by
    by_cases hai : a = i
    · by_cases hbi : b = i
      · rw [hai, hbi]
      · rw [hai, Function.update_self] at ha
        rw [Function.update_of_ne hbi] at hb
        obtain rfl := Option.some.inj ha
        exact absurd (hname b fb hb hab.symm) hbi
    · rw [Function.update_of_ne hai] at ha
      by_cases hbi : b = i
      · rw [hbi, Function.update_self] at hb
        obtain rfl := Option.some.inj hb
        exact absurd (hname a fa ha hab) hai
      · rw [Function.update_of_ne hbi] at hb
        exact s.distinct a b fa fb ha hb hab
  short j g hg := by
    by_cases hj : j = i
    · rw [hj, Function.update_self] at hg
      exact Option.some.inj hg ▸ hshort
    · rw [Function.update_of_ne hj] at hg
      exact s.short j g hg
  negative := s.negative
  indexed j g hg := by
    by_cases hj : j = i
    · rw [hj]
      exact hi
    · rw [Function.update_of_ne hj] at hg
      exact s.indexed j g hg

/-- A tunnel as the kernel makes it. -/
def Iface.tunnel (name : CString) : Iface :=
  { Iface.named name with framing := iffTun ||| iffNoPi }

end Libtuntap
