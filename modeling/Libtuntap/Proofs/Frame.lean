import Libtuntap.Proofs.Record
import Libtuntap.Unix.Session

/-!
# What a call leaves alone

Most of what is true of a started device stays true because nothing touches it.
Every request changes one or two parts of one interface, and the list of those
parts can be read off the request. So there is one frame lemma for the kernel,
about any call that closes nothing and attaches nothing, and one for the API:
an operation on a started device leaves every descriptor of the process, and
every part of every interface that is not among the parts it writes. The record
is framed by the same parts, since what it caches are parts of the interface.
-/

namespace Libtuntap

open Effect CMem

/-- A part is the same in both. -/
def Iface.Same (f f' : Iface) : Field → Prop
  | .name => f'.name = f.name
  | .framing => f'.framing = f.framing
  | .flags => f'.flags = f.flags
  | .hwaddr => f'.hwaddr = f.hwaddr
  | .mtu => f'.mtu = f.mtu
  | .persist => f'.persist = f.persist
  | .inet => f'.inet = f.inet
  | .inet6 => f'.inet6 = f.inet6
  | .queue => f'.queue = f.queue

/-- All parts but those in the list are the same. -/
def Iface.Frame (fields : List Field) (f f' : Iface) : Prop :=
  ∀ field, field ∉ fields → f.Same f' field

/-- Descriptors stay what they are, and interfaces all parts but some. -/
structure Kern.Frame (fields : List Field) (s s' : Kern) : Prop where
  fds : ∀ fd d, s.fds fd = some d → s'.fds fd = some d
  ifs : ∀ i f, s.ifs i = some f → ∃ f', s'.ifs i = some f' ∧ f.Frame fields f'

section Frame

variable {fields : List Field} {s t u : Kern}

theorem Iface.Frame.refl (f : Iface) : f.Frame fields f := by
  intro field _
  cases field <;> rfl

theorem Iface.Frame.mono {f g : Iface} {fields' : List Field} (h : f.Frame fields g)
    (hsub : fields ⊆ fields') : f.Frame fields' g :=
  fun field hfield => h field fun hmem => hfield (hsub hmem)

theorem Iface.Frame.trans {f g h : Iface} (hfg : f.Frame fields g) (hgh : g.Frame fields h) :
    f.Frame fields h := by
  intro field hfield
  have h₁ := hfg field hfield
  have h₂ := hgh field hfield
  cases field <;> exact Eq.trans h₂ h₁

theorem Kern.Frame.of_eq (h : t = s) : s.Frame fields t := by
  subst h
  exact ⟨fun _ _ h => h, fun _ f h => ⟨f, h, .refl f⟩⟩

theorem Kern.Frame.trans (h₁ : s.Frame fields t) (h₂ : t.Frame fields u) : s.Frame fields u where
  fds fd d h := h₂.fds fd d (h₁.fds fd d h)
  ifs i f h := by
    obtain ⟨g, hg, hfg⟩ := h₁.ifs i f h
    obtain ⟨k, hk, hgk⟩ := h₂.ifs i g hg
    exact ⟨k, hk, hfg.trans hgk⟩

theorem Kern.Frame.mono {fields' : List Field} (h : s.Frame fields t) (hsub : fields ⊆ fields') :
    s.Frame fields' t where
  fds := h.fds
  ifs i f hf := by
    obtain ⟨g, hg, hfg⟩ := h.ifs i f hf
    exact ⟨g, hg, hfg.mono hsub⟩

theorem Kern.Put.frame {i : Nat} {g : Iface} (hput : s.Put t i g)
    (hg : ∀ f, s.ifs i = some f → f.Frame fields g) : s.Frame fields t := by
  obtain ⟨hfds, hifs⟩ := hput
  refine ⟨fun fd d h => ?_, fun j f h => ?_⟩
  · rw [hfds]
    exact h
  · rw [hifs]
    by_cases hj : j = i
    · subst hj
      rw [Function.update_self]
      exact ⟨g, rfl, hg f h⟩
    · rw [Function.update_of_ne hj]
      exact ⟨f, h, .refl f⟩

/-- One interface takes on a new value in some of its parts. -/
theorem Kern.Put.frame_of_eq {i : Nat} {f g : Iface} (hput : s.Put t i g) (hf : s.ifs i = some f)
    (hg : f.Frame fields g) : s.Frame fields t := by
  refine hput.frame fun f' hf' => ?_
  rw [← Option.some.inj (hf.symm.trans hf')]
  exact hg

theorem Kern.Alters.frame {fd : Int} {n : Nat} {arg : Buf n} {change : Iface → Iface}
    (h : s.Alters fd arg change t) (hc : ∀ f : Iface, f.Frame fields (change f)) :
    s.Frame fields t := by
  obtain ⟨-, i, f, hf, hput⟩ := h
  exact hput.frame_of_eq hf.1 (hc f)

/-- A descriptor that was free is set. -/
theorem Kern.Frame.of_fresh {fd : Int} {d : Option Desc} (hfd : s.fds fd = none)
    (hfds : t.fds = Function.update s.fds fd d)
    (hifs : ∀ i f, s.ifs i = some f → t.ifs i = some f) : s.Frame fields t := by
  refine ⟨fun fd' d' h => ?_, fun i f h => ⟨f, hifs i f h, .refl f⟩⟩
  have hne : fd' ≠ fd := by
    intro heq
    rw [heq, hfd] at h
    cases h
  rw [hfds, Function.update_of_ne hne]
  exact h

end Frame

/-! ## One call -/

/-- The parts of an interface a request changes. -/
def Request.writes : Request → List Field
  | .siocsifflags => [.flags]
  | .siocsifmtu => [.mtu]
  | .siocsifname => [.name]
  | .siocsifhwaddr | .siocsiflladdr => [.hwaddr]
  | .siocsifaddr | .siocdifaddr => [.inet, .inet6]
  | .siocsifnetmask | .siocaifaddr => [.inet]
  | .tunsetpersist => [.persist]
  | _ => []

/-- A call that closes, removes and attaches nothing, and changes some parts of
interfaces at most. -/
def Call.Framed (fields : List Field) : Call → Prop
  | .close _ => False
  | .ioctl _ req _ | .ioctlStr _ req .. => req ≠ .siocifdestroy ∧ req.writes ⊆ fields
  | .ioctlVal _ req _ => req.writes ⊆ fields
  | .ioctlGet _ req _ => req ≠ .tunsetiff
  | .read .. => .queue ∈ fields
  | _ => True

section Calls

variable {R : Rules} {fields : List Field} {s s' : Kern}

theorem Kern.Sets.frame {fd : Int} {req : Request} {n : Nat} {arg : Buf n}
    (hreq : req ≠ .siocifdestroy) (h : s.Sets R fd req arg s') : s.Frame req.writes s' := by
  cases req with
  | siocsifflags | siocsifmtu | siocsifname | siocsifhwaddr | siocsiflladdr | siocsifnetmask
  | siocaifaddr =>
      refine Kern.Alters.frame h fun f field hfield => ?_
      cases field <;> first | rfl | exact absurd (by decide) hfield
  | siocsifaddr =>
      simp only [Kern.Sets] at h
      split at h
      · obtain ⟨i, f, hf, -, hput⟩ := h
        refine hput.frame_of_eq hf fun field hfield => ?_
        cases field <;> first | rfl | exact absurd (by decide) hfield
      · refine Kern.Alters.frame h fun f field hfield => ?_
        cases field <;> first | rfl | exact absurd (by decide) hfield
  | siocdifaddr =>
      simp only [Kern.Sets] at h
      split at h
      · obtain ⟨i, f, hf, -, -, hput⟩ := h
        refine hput.frame_of_eq hf fun field hfield => ?_
        cases field <;> first | rfl | exact absurd (by decide) hfield
      · refine Kern.Alters.frame h fun f field hfield => ?_
        cases field <;> first | rfl | exact absurd (by decide) hfield
  | siocifcreate | siocifcreate2 =>
      obtain ⟨-, i, f, hi, -, hput⟩ := h
      refine hput.frame fun f' hf' => ?_
      rw [hi] at hf'
      cases hf'
  | siocifdestroy => exact absurd rfl hreq
  | siocsifphyaddr | tunsdebug | fionbio => exact .of_eq h
  | _ => exact h.elim

theorem Kern.SetsVal.frame {fd : Int} {req : Request} {val : BitVec 32}
    (h : s.SetsVal fd req val s') : s.Frame req.writes s' := by
  cases req with
  | tunsetpersist =>
      obtain ⟨i, f, hf, hput⟩ := h
      refine hput.frame_of_eq hf.2 fun field hfield => ?_
      cases field <;> first | rfl | exact absurd (by decide) hfield
  | _ => exact h.elim

theorem Kern.Gets.frame {fd : Int} {req : Request} {n : Nat} {arg out : Buf n}
    (hreq : req ≠ .tunsetiff) (h : s.Gets R fd req arg out s') : s.Frame fields s' := by
  cases req with
  | tunsetiff => exact absurd rfl hreq
  | siocgifflags | siocgifmtu | siocgifindex | siocgifhwaddr | siocgifaddr | tapgifname
  | tungifname => exact .of_eq h.1
  | fionread => exact .of_eq h.2
  | _ => exact h.elim

theorem Kern.Opens.frame {path : CString} {fd : Int} (hfd : s.fds fd = none)
    (h : s.Opens R path fd s') : s.Frame fields s' := by
  unfold Kern.Opens at h
  split at h
  · exact .of_fresh hfd h.2 fun i f hf => h.1 ▸ hf
  · obtain ⟨i, g, -, hg, hifs, hfds⟩ := h
    refine .of_fresh hfd hfds fun j f hf => ?_
    rw [hifs]
    by_cases hj : j = i
    · subst hj
      rw [Function.update_self]
      rcases hg with hg | hg
      · exact hg.symm.trans hf
      · rw [hg] at hf
        cases hf
    · rw [Function.update_of_ne hj]
      exact hf

theorem Kern.Step.frame {c : Call} {r : Resp c} (hc : c.Framed fields)
    (h : Kern.Step R s c r s') : s.Frame fields s' := by
  cases c with
  | socket domain =>
      rcases h with ⟨-, h⟩ | ⟨-, hfd, hifs, hfds⟩
      · exact .of_eq h
      · exact .of_fresh hfd hfds fun i f hf => hifs ▸ hf
  | «open» path =>
      rcases h with ⟨-, h⟩ | ⟨-, hfd, h⟩
      · exact .of_eq h
      · exact h.frame hfd
  | close fd => exact hc.elim
  | ioctl fd req arg =>
      rcases h with ⟨-, h⟩ | ⟨-, h⟩
      · exact .of_eq h
      · exact (h.frame hc.1).mono hc.2
  | ioctlVal fd req val =>
      rcases h with ⟨-, h⟩ | ⟨-, h⟩
      · exact .of_eq h
      · exact h.frame.mono hc
  | ioctlGet fd req arg =>
      rcases h with ⟨-, h⟩ | ⟨-, h⟩
      · exact .of_eq h
      · exact h.frame hc
  | ioctlStr fd req arg str len =>
      rcases h with ⟨-, h⟩ | ⟨-, h⟩
      · exact .of_eq h
      · cases req with
        | siocsifname =>
            have hframe : s.Frame [.name] s' := by
              refine Kern.Alters.frame h fun f field hfield => ?_
              cases field <;> first | rfl | exact absurd (by decide) hfield
            exact hframe.mono hc.2
        | siocsifdescr => exact .of_eq h
        | _ => exact h.elim
  | read fd size =>
      rcases h with ⟨-, h⟩ | ⟨-, -, -, h⟩ | ⟨-, i, f, packet, rest, hf, -, -, -, hput⟩
      · exact .of_eq h
      · exact .of_eq h
      · refine hput.frame_of_eq hf.2 fun field hfield => ?_
        cases field <;> first | rfl | exact absurd hc hfield
  | _ => exact .of_eq h

/-- A program of framed calls leaves what each of them leaves. -/
theorem frame_wp {α : Type} {p : Sys α} (hp : p.AllCalls (Call.Framed fields)) :
    p.Wp (kernel R) (fun _ t => s.Frame fields t) s :=
  hp.wp (.of_eq rfl) fun _ hc _ _ _ hstep hs => hs.trans (Kern.Step.frame hc hstep)

end Calls

section Framed

variable {fields : List Field}

@[simp] theorem framed_log (level : Level) (msg : CString) :
    (Call.log level msg).Framed fields := trivial

@[simp] theorem framed_socket (domain : Domain) : (Call.socket domain).Framed fields := trivial

@[simp] theorem framed_open (path : CString) : (Call.open path).Framed fields := trivial

@[simp] theorem framed_ioctl {n : Nat} (fd : Int) (req : Request) (arg : Buf n) :
    (Call.ioctl fd req arg).Framed fields ↔ req ≠ .siocifdestroy ∧ req.writes ⊆ fields := Iff.rfl

@[simp] theorem framed_ioctlVal (fd : Int) (req : Request) (val : BitVec 32) :
    (Call.ioctlVal fd req val).Framed fields ↔ req.writes ⊆ fields := Iff.rfl

@[simp] theorem framed_ioctlStr {n : Nat} (fd : Int) (req : Request) (arg : Buf n)
    (str : CString) (len : Nat) : (Call.ioctlStr fd req arg str len).Framed fields ↔
      req ≠ .siocifdestroy ∧ req.writes ⊆ fields := Iff.rfl

@[simp] theorem framed_ioctlGet {n : Nat} (fd : Int) (req : Request) (arg : Buf n) :
    (Call.ioctlGet fd req arg).Framed fields ↔ req ≠ .tunsetiff := Iff.rfl

@[simp] theorem framed_ioctlGetStr {n : Nat} (fd : Int) (req : Request) (arg : Buf n)
    (len : Nat) : (Call.ioctlGetStr fd req arg len).Framed fields := trivial

@[simp] theorem framed_read (fd : Int) (size : Nat) :
    (Call.read fd size).Framed fields ↔ .queue ∈ fields := Iff.rfl

@[simp] theorem framed_write (fd : Int) (buf : List UInt8) :
    (Call.write fd buf).Framed fields := trivial

@[simp] theorem framed_select (nfds fd : Int) (reading : Bool) (sec usec : Int) :
    (Call.select nfds fd reading sec usec).Framed fields := trivial

@[simp] theorem framed_overshift (x : BitVec 32) (count : Int) :
    (Call.overshift x count).Framed fields := trivial

theorem randomHwaddr_framed : randomHwaddr.AllCalls (Call.Framed fields) :=
  randomHwaddr_allCalls trivial trivial (fun _ => trivial) trivial

end Framed

/-! ## A socket opened and closed again -/

/-- Since `s` a descriptor was opened as a socket, and otherwise the frame was
kept. -/
structure Kern.Borrowed (fields : List Field) (s : Kern) (fd : Int) (t : Kern) : Prop where
  frame : s.Frame fields t
  fresh : s.fds fd = none
  sock : t.IsSocket fd

section Borrowed

variable {R : Rules} {fields : List Field} {s t u : Kern} {fd : Int}

theorem Kern.Borrowed.step (h : s.Borrowed fields fd t) {c : Call} {r : Resp c}
    (hc : c.Framed fields) (hstep : Kern.Step R t c r u) : s.Borrowed fields fd u where
  frame := h.frame.trans (hstep.frame hc)
  fresh := h.fresh
  sock := by
    obtain ⟨domain, hsock⟩ := h.sock
    exact ⟨domain, (hstep.frame hc).fds fd _ hsock⟩

/-- Closing a socket touches no interface. -/
theorem Kern.Borrowed.close (h : s.Borrowed fields fd t) {r : Int}
    (hstep : Kern.Step R t (.close fd) r u) : s.Frame fields u := by
  obtain ⟨hfds, hleaves⟩ := hstep
  obtain ⟨domain, hsock⟩ := h.sock
  have hifs : u.ifs = t.ifs := by
    unfold Kern.Leaves at hleaves
    rw [hsock] at hleaves
    exact hleaves
  refine ⟨fun fd' d hd => ?_, fun i f hf => ?_⟩
  · have hne : fd' ≠ fd := by
      intro heq
      rw [heq, h.fresh] at hd
      cases hd
    rw [hfds, Function.update_of_ne hne]
    exact h.frame.fds fd' d hd
  · rw [hifs]
    exact h.frame.ifs i f hf

theorem Kern.Borrowed.of_socket {domain : Domain} (hfd : fd ≠ -1)
    (hstep : Kern.Step R s (.socket domain) fd t) : s.Borrowed fields fd t := by
  obtain ⟨hfree, hopen⟩ := Kern.Step.socket_opens hstep hfd
  exact ⟨hstep.frame (framed_socket domain), hfree, domain, hopen⟩

end Borrowed

/-! ## One operation -/

section Ops

variable {R : Rules} {s t u : Kern} {os : Os} {libc : Libc} {dev : Device}

theorem setHwaddrTo_framed (ethAddr : Buf 6) :
    (setHwaddrTo os dev ethAddr).AllCalls (Call.Framed [.hwaddr]) := by
  cases os <;> simp [setHwaddrTo, tuntapSysSetHwaddr, Linux.tuntapSysSetHwaddr,
    FreeBsd.tuntapSysSetHwaddr, OpenBsd.tuntapSysSetHwaddr, NetBsd.tuntapSysSetHwaddr,
    Darwin.tuntapSysSetHwaddr, Request.writes]

theorem tuntapSetHwaddr_framed (hwaddr : CString) :
    (tuntapSetHwaddr os libc dev hwaddr).AllCalls (Call.Framed [.hwaddr]) := by
  unfold tuntapSetHwaddr
  split
  · exact randomHwaddr_framed.bind fun ethAddr => setHwaddrTo_framed ethAddr
  · cases libc.etherAton hwaddr with
    | none => trivial
    | some ethAddr => exact setHwaddrTo_framed ethAddr

theorem tuntapSetIfname_framed (ifname : Option CString) :
    (tuntapSetIfname os dev ifname).AllCalls (Call.Framed [.name]) := by
  cases ifname with
  | none => simp [tuntapSetIfname]
  | some ifname =>
      cases os <;> simp [tuntapSetIfname, tuntapSysSetIfname, Linux.tuntapSysSetIfname,
        FreeBsd.tuntapSysSetIfname, Bsd.tuntapSysSetIfname, Request.writes]

theorem netmaskWord_framed {fields : List Field} (netmask : Int) :
    (netmaskWord netmask).AllCalls (Call.Framed fields) := by
  simp [netmaskWord, shiftRight]

theorem tuntapSysSetIpv4_framed (s4 : Buf 4) (bits : BitVec 32) :
    (tuntapSysSetIpv4 os dev s4 bits).AllCalls (Call.Framed [.inet, .inet6]) := by
  cases os <;> simp [tuntapSysSetIpv4, Linux.tuntapSysSetIpv4, FreeBsd.tuntapSysSetIpv4,
    OpenBsd.tuntapSysSetIpv4, NetBsd.tuntapSysSetIpv4, Darwin.tuntapSysSetIpv4, Request.writes]

theorem Linux.tuntapSysSetIpv6_frame (s6 : Buf 16) (prefixLen : BitVec 32) :
    (tuntapSysSetIpv6 dev s6 prefixLen).Wp (kernel R)
      (fun _ t => s.Frame [.inet, .inet6] t) s := by
  have hadd : ∀ {fd} {arg : In6Ifreq},
      (Call.ioctl fd .siocsifaddr arg).Framed [.inet, .inet6] := ⟨by decide, fun _ h => h⟩
  have hdel : ∀ {fd} {arg : In6Ifreq},
      (Call.ioctl fd .siocdifaddr arg).Framed [.inet, .inet6] := ⟨by decide, fun _ h => h⟩
  simp only [tuntapSysSetIpv6, Prog.wp_call_bind, Prog.wp_ite, Prog.pure_eq, Prog.wp_ret]
  intro fd k₁ hsock
  refine ⟨fun _ _ k₂ hlog => ?_, fun hfd r k₂ hindex => ?_⟩
  · exact (hsock.frame (framed_socket _)).trans (hlog.frame (framed_log _ _))
  · have h₁ : s.Borrowed [.inet, .inet6] fd k₁ := .of_socket hfd hsock
    have h₂ := h₁.step ((framed_ioctlGet _ _ _).mpr (by decide)) hindex
    refine ⟨fun _ _ k₃ hlog _ k₄ hclose => ?_, fun _ r₃ k₃ hd r₄ k₄ ha => ⟨?_, ?_⟩⟩
    · exact (h₂.step (framed_log _ _) hlog).close hclose
    · intro _ _ k₅ hlog _ k₆ hclose
      exact (((h₂.step hdel hd).step hadd ha).step (framed_log _ _) hlog).close hclose
    · intro _ _ k₅ hclose
      exact ((h₂.step hdel hd).step hadd ha).close hclose

theorem tuntapSysSetIpv6_frame (s6 : Buf 16) (bits : BitVec 32) :
    (tuntapSysSetIpv6 os dev s6 bits).Wp (kernel R)
      (fun _ t => s.Frame [.inet, .inet6] t) s := by
  have hnone : (Bsd.tuntapSysSetIpv6 dev s6 bits).Wp (kernel R)
      (fun _ t => s.Frame [.inet, .inet6] t) s :=
    frame_wp (by simp [Bsd.tuntapSysSetIpv6])
  cases os with
  | linux => exact Linux.tuntapSysSetIpv6_frame s6 bits
  | freeBsd => exact frame_wp (by simp [tuntapSysSetIpv6, FreeBsd.tuntapSysSetIpv6])
  | openBsd | netBsd | darwin => exact hnone

theorem tuntapSetIp_frame (addr : Option CString) (netmask : Int) :
    (tuntapSetIp os libc dev addr netmask).Wp (kernel R)
      (fun _ t => s.Frame [.inet, .inet6] t) s := by
  unfold tuntapSetIp
  split
  · exact frame_wp (by simp)
  · cases addr with
    | none => exact frame_wp (by simp)
    | some addr =>
        dsimp only
        split
        · exact frame_wp (by simp)
        · cases libc.inetPton4 addr with
          | some s4 =>
              exact frame_wp ((netmaskWord_framed netmask).bind
                fun mask => tuntapSysSetIpv4_framed s4 mask)
          | none =>
              cases libc.inetPton6 addr with
              | some s6 => exact tuntapSysSetIpv6_frame s6 _
              | none => exact frame_wp (by simp)

/-- Any operation but a start and an end changes the parts it writes and no
others, and closes no descriptor that was open before it. -/
theorem Op.frame (op : Op) (hop : ¬ op.StartsOrEnds) :
    (op.prog os libc dev).Wp (kernel R) (fun _ t => s.Frame op.writes t) s := by
  cases op with
  | start | release | destroy => exact absurd trivial hop
  | setIp addr netmask => exact (tuntapSetIp_frame addr netmask).bind fun _ _ h => h
  | setIfname ifname => exact frame_wp ((tuntapSetIfname_framed ifname).bind fun _ => trivial)
  | setHwaddr hwaddr => exact frame_wp ((tuntapSetHwaddr_framed hwaddr).bind fun _ => trivial)
  | up => exact frame_wp (by simp [Op.prog, tuntapUp, setFlags, Request.writes, Op.writes])
  | down => exact frame_wp (by simp [Op.prog, tuntapDown, setFlags, Request.writes, Op.writes])
  | setDescr descr =>
      cases descr with
      | none => exact frame_wp (by simp [Op.prog, tuntapSetDescr])
      | some descr =>
          refine frame_wp ?_
          cases os <;> simp [Op.prog, tuntapSetDescr, tuntapSysSetDescr, Linux.tuntapSysSetDescr,
            FreeBsd.tuntapSysSetDescr, OpenBsd.tuntapSysSetDescr, NetBsd.tuntapSysSetDescr,
            Darwin.tuntapSysSetDescr, Request.writes]
  | getDescr =>
      refine frame_wp ?_
      cases os <;> simp [Op.prog, tuntapGetDescr, tuntapSysGetDescr, Linux.tuntapSysGetDescr,
        FreeBsd.tuntapSysGetDescr, OpenBsd.tuntapSysGetDescr, NetBsd.tuntapSysGetDescr,
        Darwin.tuntapSysGetDescr]
  | getIfname | getHwaddr | getFd => exact frame_wp trivial
  | getMtu => exact frame_wp (by simp [Op.prog, tuntapGetMtu])
  | setMtu mtu => exact frame_wp (by simp [Op.prog, tuntapSetMtu, Request.writes, Op.writes])
  | read size => exact frame_wp (by simp [Op.prog, tuntapRead, readPacket, Op.writes])
  | readTm size timeoutMs =>
      exact frame_wp (by simp [Op.prog, tuntapReadTm, readPacket, waitReadyEventOrTimeout,
        Op.writes])
  | write buf => exact frame_wp (by simp [Op.prog, tuntapWrite, writePacket])
  | writeTm buf timeoutMs =>
      exact frame_wp (by simp [Op.prog, tuntapWriteTm, writePacket, waitReadyEventOrTimeout])
  | getReadable => exact frame_wp (by simp [Op.prog, tuntapGetReadable, tuntapGetMtu])
  | setNonblocking set =>
      exact frame_wp (by simp [Op.prog, tuntapSetNonblocking, Request.writes])
  | setDebug set => exact frame_wp (by simp [Op.prog, tuntapSetDebug, Request.writes])

end Ops

/-! ## One step of a session -/

/-- Others leave the descriptors of the device and the interface it is attached
to, with some of its parts. -/
def OthersKeep (kept : List Field) : Rely := fun dev k k' =>
  k'.fds dev.tunFd = k.fds dev.tunFd ∧ k'.fds dev.ctrlSock = k.fds dev.ctrlSock ∧
    ∀ i f, k.Attached dev.tunFd i f → ∃ f', k'.ifs i = some f' ∧ ∀ field ∈ kept, f.Same f' field

section Session

variable {R : Rules} {libc : Libc} {rely : Rely} {s s' : Session} {op : Op}
  {tr : List (Event Call Resp)} {ret : Ret}

theorem Session.Step.frame (hs : Session.Step R libc rely s (.call op tr ret) s')
    (hop : ¬ op.StartsOrEnds) :
    s.dev.Frame op.writes s'.dev ∧ s.kern.Frame op.writes s'.kern := by
  refine ⟨?_, hs.of_wp (op.frame hop)⟩
  cases hs with
  | call hr hk =>
      obtain ⟨d, hd, hframe⟩ := (op.record hop).of_runs hr
      obtain rfl := Option.some.inj hd
      exact hframe

/-- Once a device is started, every call of a session is framed: another start
is refused, and the calls that end its use are no steps. -/
theorem Session.Step.frame_of_started (hs : Session.Step R libc rely s (.call op tr ret) s')
    (hdev : s.dev.tunFd ≠ -1) :
    s.dev.Frame op.writes s'.dev ∧ s.kern.Frame op.writes s'.kern := by
  by_cases hop : op.StartsOrEnds
  · cases hs with
    | call hr hk =>
        cases op with
        | start mode tun =>
            simp only [Op.prog, tuntapStart, if_pos hdev, Prog.pure_eq] at hr
            obtain ⟨r, tr', rfl, rfl, hback⟩ := hr
            obtain ⟨m, hm, rfl⟩ := hk
            have hsame := Option.some.inj (Prod.mk.inj hback).2
            rw [hsame]
            exact ⟨.refl _, .of_eq hm⟩
        | release =>
            obtain ⟨_, _, _, _, _, _, hback⟩ := (Prog.runs_bind _ _ _ _).mp hr
            cases hback
        | destroy =>
            obtain ⟨_, _, _, _, _, _, hback⟩ := (Prog.runs_bind _ _ _ _).mp hr
            cases hback
        | _ => exact hop.elim
  · exact hs.frame hop

/-- A restart is refused. -/
theorem Session.Step.restart {mode : Mode} {tun : Int}
    (hs : Session.Step R libc rely s (.call (.start mode tun) tr ret) s')
    (hdev : s.dev.tunFd ≠ -1) : ret = .int (-1) := by
  cases hs with
  | call hr _ =>
      simp only [Op.prog, tuntapStart, if_pos hdev, Prog.pure_eq] at hr
      obtain ⟨_, _, _, _, hback⟩ := hr
      exact (Prod.mk.inj hback).1

end Session

end Libtuntap
