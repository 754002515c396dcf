import Libtuntap.Unix.Api

/-!
# What an operation leaves of the record

The record caches three parts of the interface: its name, its flags and its
link-layer address. An operation writes at most the copy of the part it
changes, and the two descriptors are set by a start and by nothing else.
-/

namespace Libtuntap

open Effect CMem

/-- The parts of an interface. -/
inductive Field where
  | name
  | framing
  | flags
  | hwaddr
  | mtu
  | persist
  | inet
  | inet6
  | queue
deriving DecidableEq

/-- The parts of the interface an operation changes, and with them the copies
in the record. -/
def Op.writes : Op → List Field
  | .setIfname _ => [.name]
  | .setHwaddr _ => [.hwaddr]
  | .up | .down => [.flags]
  | .setMtu _ => [.mtu]
  | .setIp .. => [.inet, .inet6]
  | .read _ | .readTm .. => [.queue]
  | _ => []

theorem Op.name_mem_writes {op : Op} (h : .name ∈ op.writes) :
    ∃ ifname, op = .setIfname ifname := by
  cases op with
  | setIfname ifname => exact ⟨ifname, rfl⟩
  | _ => simp [Op.writes] at h

theorem Op.hwaddr_mem_writes {op : Op} (h : .hwaddr ∈ op.writes) :
    ∃ hwaddr, op = .setHwaddr hwaddr := by
  cases op with
  | setHwaddr hwaddr => exact ⟨hwaddr, rfl⟩
  | _ => simp [Op.writes] at h

/-- The operations that start a device or end its use. -/
def Op.StartsOrEnds : Op → Prop
  | .start .. | .release | .destroy => True
  | _ => False

/-- The descriptors are the same, and the copies of all parts but some. -/
structure Device.Frame (fields : List Field) (dev d : Device) : Prop where
  tunFd : d.tunFd = dev.tunFd
  ctrlSock : d.ctrlSock = dev.ctrlSock
  name : .name ∉ fields → d.ifName = dev.ifName
  flags : .flags ∉ fields → d.flags = dev.flags
  hwaddr : .hwaddr ∉ fields → d.hwaddr = dev.hwaddr

section Frame

variable {fields : List Field} {os : Os} {libc : Libc} {dev : Device}

theorem Device.Frame.refl (dev : Device) : dev.Frame fields dev :=
  ⟨rfl, rfl, fun _ => rfl, fun _ => rfl, fun _ => rfl⟩

theorem Device.Frame.of_name {b : Buf 17} : dev.Frame [.name] { dev with ifName := b } :=
  ⟨rfl, rfl, fun h => absurd (List.mem_singleton_self _) h, fun _ => rfl, fun _ => rfl⟩

theorem Device.Frame.of_flags {w : BitVec 32} : dev.Frame [.flags] { dev with flags := w } :=
  ⟨rfl, rfl, fun _ => rfl, fun h => absurd (List.mem_singleton_self _) h, fun _ => rfl⟩

theorem Device.Frame.of_hwaddr {a : Buf 6} : dev.Frame [.hwaddr] { dev with hwaddr := a } :=
  ⟨rfl, rfl, fun _ => rfl, fun _ => rfl, fun h => absurd (List.mem_singleton_self _) h⟩

/-- An answer that comes with a record framed by `fields`. -/
def Comes (fields : List Field) (dev : Device) (r : Ret × Option Device) : Prop :=
  ∃ d, r.2 = some d ∧ dev.Frame fields d

theorem comes_keep (ret : Ret) : Comes fields dev (keep dev ret) := ⟨dev, rfl, .refl dev⟩

theorem comes_back {r : Int × Device} (hr : dev.Frame fields r.2) : Comes fields dev (back r) :=
  ⟨r.2, rfl, hr⟩

theorem answers_keep {α : Type} {p : Sys α} {f : α → Ret} :
    (p >>= fun a => Prog.ret (keep dev (f a))).Answers (Comes fields dev) :=
  (Prog.answers_of_forall (fun _ => trivial) p).bind fun _ _ => comes_keep _

theorem tuntapSetIfname_record (ifname : Option CString) :
    (tuntapSetIfname os dev ifname).Answers fun r => dev.Frame [.name] r.2 := by
  cases ifname with
  | none => simp [tuntapSetIfname, Device.Frame.refl]
  | some ifname =>
      cases os <;> simp [tuntapSetIfname, tuntapSysSetIfname, Linux.tuntapSysSetIfname,
        FreeBsd.tuntapSysSetIfname, Bsd.tuntapSysSetIfname, Device.Frame.refl,
        Device.Frame.of_name]

theorem setHwaddrTo_record (ethAddr : Buf 6) :
    (setHwaddrTo os dev ethAddr).Answers fun r => dev.Frame [.hwaddr] r.2 := by
  refine (Prog.answers_of_forall (fun _ => trivial) _).bind fun ret _ => ?_
  simp [Device.Frame.of_hwaddr]

theorem tuntapSetHwaddr_record (hwaddr : CString) :
    (tuntapSetHwaddr os libc dev hwaddr).Answers fun r => dev.Frame [.hwaddr] r.2 := by
  unfold tuntapSetHwaddr
  split
  · exact (Prog.answers_of_forall (fun _ => trivial) randomHwaddr).bind
      fun ethAddr _ => setHwaddrTo_record ethAddr
  · cases libc.etherAton hwaddr with
    | none => exact .refl dev
    | some ethAddr => exact setHwaddrTo_record ethAddr

theorem setFlags_record (change : BitVec 16 → BitVec 16) :
    (setFlags os dev change).Answers fun r => dev.Frame [.flags] r.2 := by
  simp [setFlags, Device.Frame.refl, Device.Frame.of_flags]

/-- Any operation but a start and an end. -/
theorem Op.record (op : Op) (hop : ¬ op.StartsOrEnds) :
    (op.prog os libc dev).Answers (Comes op.writes dev) := by
  cases op with
  | start | release | destroy => exact absurd trivial hop
  | setIfname ifname => exact (tuntapSetIfname_record ifname).bind fun _ => comes_back
  | setHwaddr hwaddr => exact (tuntapSetHwaddr_record hwaddr).bind fun _ => comes_back
  | up | down => exact (setFlags_record _).bind fun _ => comes_back
  | getIfname | getHwaddr | getFd => exact comes_keep _
  | _ => exact answers_keep

end Frame

end Libtuntap
