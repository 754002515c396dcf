import Libtuntap.Proofs.Readable
import Libtuntap.Proofs.Tunnel

/-!
# The library refines the tunnel

A device that was started and everything that follows, call by call and with the
rest of the system in between, is a run of the tunnel of `Tunnel.Step`. The
tunnel is read off the device: what the record remembers and the interface the
link leads to. What has to be shown for each operation is that it ends on such a
device again, and that between the two tunnels lies what the operation is for.

Properties of the API are then properties of tunnels, which have no kernel.
-/

namespace Libtuntap

open Effect CMem

/-- The tunnel a device is, on its interface. -/
def Device.tunnel (dev : Device) (f : Iface) : Tunnel where
  fd := dev.tunFd
  name := dev.ifName.cstr
  flags := dev.flags
  hwaddr := dev.hwaddr
  iface := f

/-- A started device, the last byte of whose name is the terminator it never
writes over, linked to an interface. -/
structure Tunnels (dev : Device) (k : Kern) (i : Nat) (f : Iface) : Prop where
  started : dev.tunFd ≠ -1
  last : dev.ifName.byte 16 = 0
  index : i < 2 ^ 31
  linked : Linked dev k i f

/-- The operation has done to the tunnel what it is for. -/
def Refined (R : Rules) (libc : Libc) (t : Tunnel) (op : Op) (i : Nat) (r : Ret × Option Device)
    (k' : Kern) : Prop :=
  ∀ d, r.2 = some d → ∃ f', Tunnels d k' i f' ∧ t.Does R libc op r.1 (d.tunnel f')

section Ops

variable {R : Rules} {libc : Libc} {dev d : Device} {k k' : Kern} {i : Nat} {f g : Iface} {op : Op}

theorem Tunnels.put (h : Tunnels dev k i f) (hput : k.Put k' i g) (hname : g.name = f.name)
    (htun : d.tunFd = dev.tunFd) (hctrl : d.ctrlSock = dev.ctrlSock)
    (hifname : d.ifName = dev.ifName) : Tunnels d k' i g := by
  obtain ⟨hfds, hifs⟩ := hput
  refine ⟨htun ▸ h.started, hifname ▸ h.last, h.index, ?_, ?_, ?_, ?_⟩
  · rw [hfds, htun]
    exact h.linked.attached
  · rw [hfds, hctrl]
    exact h.linked.reaches.sock
  · rw [hifs, Function.update_self]
  · rw [hname, hifname]
    exact h.linked.reaches.name

theorem Tunnels.of_record (h : Tunnels dev k i f) (htun : d.tunFd = dev.tunFd)
    (hctrl : d.ctrlSock = dev.ctrlSock) (hifname : d.ifName = dev.ifName) : Tunnels d k i f := by
  have hsame : k.Put k i f :=
    ⟨rfl, (Function.update_eq_self_iff.mpr h.linked.reaches.iface.symm).symm⟩
  exact h.put hsame rfl htun hctrl hifname

/-- Nothing has changed. -/
theorem Tunnels.kept (h : Tunnels dev k i f) {ret : Ret}
    (hdoes : (dev.tunnel f).Does R libc op ret (dev.tunnel f)) :
    Refined R libc (dev.tunnel f) op i (keep dev ret) k := by
  intro d hd
  obtain rfl := Option.some.inj hd
  exact ⟨f, h, hdoes⟩

/-- An operation that only asks refines the tunnel by its answer. -/
theorem refined_of_idles (h : Tunnels dev k i f) {p : Sys (Ret × Option Device)}
    (hp : p.AllCalls (Idles R))
    (hA : p.Answers fun r => r.2 = some dev ∧ (dev.tunnel f).Does R libc op r.1 (dev.tunnel f)) :
    p.Wp (kernel R) (Refined R libc (dev.tunnel f) op i) k := by
  refine (idle_wp hp hA).mono fun r k' hr d hd => ?_
  obtain ⟨⟨hdev, hdoes⟩, rfl⟩ := hr
  obtain rfl := Option.some.inj (hd.symm.trans hdev)
  exact ⟨f, h, hdoes⟩

theorem start_refined (h : Tunnels dev k i f) (mode : Mode) (tun : Int) :
    ((Op.start mode tun).prog .linux libc dev).Wp (kernel R)
      (Refined R libc (dev.tunnel f) (.start mode tun) i) k := by
  simp only [Op.prog, tuntapStart, if_pos h.started, Prog.bind_assoc]
  exact refined_of_idles h (by simp) (by simp [back, Tunnel.Does, Tunnel.Fails])

theorem setFlags_refined (h : Tunnels dev k i f) (change : BitVec 16 → BitVec 16)
    (hdoes : ∀ ret t, (dev.tunnel f).Sets ((dev.tunnel f).withFlags R change) ret t →
      (dev.tunnel f).Does R libc op ret t) :
    (do let r ← setFlags .linux dev change; return back r : Sys _).Wp (kernel R)
      (Refined R libc (dev.tunnel f) op i) k := by
  refine (setFlags_wp h.linked.reaches .linux change).bind fun r k' hr d hd => ?_
  obtain rfl := Option.some.inj hd
  rcases hr with ⟨rfl, rfl⟩ | ⟨rfl, hput⟩
  · exact ⟨f, h, hdoes _ _ (Or.inl ⟨rfl, rfl⟩)⟩
  · exact ⟨_, h.put hput rfl rfl rfl rfl, hdoes _ _ (Or.inr ⟨rfl, rfl⟩)⟩

theorem setMtu_refined (h : Tunnels dev k i f) (mtu : BitVec 32) :
    ((Op.setMtu mtu).prog .linux libc dev).Wp (kernel R)
      (Refined R libc (dev.tunnel f) (.setMtu mtu) i) k := by
  simp only [Op.prog, tuntapSetMtu, if_neg h.started, Prog.bind_assoc]
  refine (Prog.wp_call_bind _ _).mpr fun r k' hs => ?_
  rcases hs with ⟨hr, rfl⟩ | ⟨hr, ha⟩
  · rw [hr, if_pos rfl]
    exact refined_of_idles h (by simp) (by simp [keep, Tunnel.Does, Tunnel.Sets, Tunnel.Fails])
  · rw [hr, if_neg (by decide)]
    have hput := h.linked.reaches.alters ((names_ifreqNamed .linux).memcpy (by decide)) ha
    rw [ifrInt_setIfrInt _ _ (by decide)] at hput
    intro d hd
    obtain rfl := Option.some.inj hd
    exact ⟨_, h.put hput rfl rfl rfl rfl, Or.inr ⟨rfl, rfl⟩⟩

theorem getMtu_refined (h : Tunnels dev k i f) :
    (Op.getMtu.prog .linux libc dev).Wp (kernel R) (Refined R libc (dev.tunnel f) .getMtu i) k := by
  refine (tuntapGetMtu_wp h.linked h.started).bind fun n k' hn => ?_
  obtain ⟨rfl, hn⟩ := hn
  exact h.kept ⟨hn.imp (congrArg _) (congrArg _), rfl⟩

theorem getReadable_refined (hos : R.os = .linux) (h : Tunnels dev k i f) :
    (Op.getReadable.prog .linux libc dev).Wp (kernel R)
      (Refined R libc (dev.tunnel f) .getReadable i) k := by
  refine (tuntapGetReadable_wp hos h.linked h.started).bind fun n k' hn => ?_
  obtain ⟨rfl, hn⟩ := hn
  exact h.kept ⟨hn.imp (congrArg _) (congrArg _), rfl⟩

/-! ## The name -/

/-- The copy of a name that fits is the name, as long as the byte behind it is
clear. -/
theorem cstr_renamed_of_last {ifName : Buf 17} {ifname : CString} (hle : ifname.strlen ≤ 16)
    (hlast : ifName.byte 16 = 0) :
    (renamed ifName ifname).cstr = ifname ∧ (renamed ifName ifname).byte 16 = 0 := by
  have hbyte : (renamed ifName ifname).byte 16 = 0 := by
    unfold renamed
    rw [Buf.byte_strncpy, if_neg (by omega), Buf.byte_memset, if_neg (by unfold ifNamesize; omega)]
    exact hlast
  refine ⟨Buf.cstr_eq (by omega) (fun j hj => ?_) fun _ => ?_, hbyte⟩
  · unfold renamed
    rw [Buf.byte_strncpy, if_pos (by omega), Nat.sub_zero]
    exact CString.getD_bytes_of_lt hj
  · unfold renamed
    rw [Buf.byte_strncpy, if_neg (by omega), Buf.byte_memset]
    split
    · rfl
    · next hout =>
        obtain h16 : ifname.strlen = 16 := by
          unfold ifNamesize at hout
          omega
        rw [h16]
        exact hlast

theorem setIfname_refined (h : Tunnels dev k i f) (ifname : Option CString) :
    ((Op.setIfname ifname).prog .linux libc dev).Wp (kernel R)
      (Refined R libc (dev.tunnel f) (.setIfname ifname) i) k := by
  cases ifname with
  | none =>
      exact refined_of_idles h (by simp [Op.prog, tuntapSetIfname])
        (by simp [Op.prog, tuntapSetIfname, back, Tunnel.Does, Tunnel.Fails])
  | some name =>
      refine (tuntapSetIfname_wp h.linked.reaches name).bind fun r k' hr d hd => ?_
      obtain rfl := Option.some.inj hd
      rcases hr with ⟨rfl, rfl⟩ | ⟨rfl, hle, hput⟩
      · exact ⟨f, h, Or.inl ⟨rfl, rfl⟩⟩
      · obtain ⟨hcstr, hlast⟩ := cstr_renamed_of_last hle h.last
        refine ⟨_, ⟨h.started, hlast, h.index, h.linked.renamed hle hput⟩,
          Or.inr ⟨name, rfl, hle, rfl, ?_⟩⟩
        simp only [Device.tunnel, Tunnel.withName, hcstr]

/-! ## The link-layer address -/

theorem setHwaddrTo_refined (h : Tunnels dev k i f) {text : CString} {a : Buf 6}
    (ha : Tunnel.MeansHwaddr libc text a) :
    (do let r ← setHwaddrTo .linux dev a; return back r : Sys _).Wp (kernel R)
      (Refined R libc (dev.tunnel f) (.setHwaddr text) i) k := by
  have hrec : Tunnels { dev with hwaddr := a } k i f := h.of_record rfl rfl rfl
  have hn : Names dev 40 (((Linux.ifreqNamed dev).memcpy 16 (Buf.store16 arphrdEther) 2).memcpy 18
      a 6) := (names_linux.memcpy (by decide)).memcpy (by decide)
  simp only [setHwaddrTo, tuntapSysSetHwaddr, Linux.tuntapSysSetHwaddr, Prog.bind_assoc]
  refine (Prog.wp_call_bind _ _).mpr fun r k' hs => ?_
  rcases hs with ⟨hr, rfl⟩ | ⟨hr, hs⟩
  · simp only [hr, if_true, Prog.bind_assoc, Prog.pure_eq, Prog.ret_bind]
    intro _ k'' hlog d hd
    obtain rfl : k'' = k' := hlog
    obtain rfl := Option.some.inj hd
    exact ⟨f, hrec, Or.inr ⟨a, ha, Or.inl ⟨rfl, rfl⟩⟩⟩
  · simp only [hr, if_neg (show ¬ (0 : Int) = -1 by decide), Prog.pure_eq, Prog.ret_bind]
    have hsent : ∀ b : Ifreq, ifrHwaddr (b.memcpy 18 a 6) = a :=
      fun b => Buf.slice_memcpy_same _ _ _ (by decide)
    have hput := h.linked.reaches.alters hn hs
    rw [hsent] at hput
    intro d hd
    obtain rfl := Option.some.inj hd
    exact ⟨_, h.put hput rfl rfl rfl rfl, Or.inr ⟨a, ha, Or.inr ⟨rfl, rfl⟩⟩⟩

/-- A made-up address has its two lowest bits clear. -/
theorem randomHwaddr_answers : randomHwaddr.Answers fun a => a.byte 0 &&& 3 = 0 := by
  refine (Prog.answers_call_bind _ _).mpr fun ethRand => ?_
  refine (Prog.answers_call_bind _ _).mpr fun now => ?_
  refine (Prog.answers_call_bind _ _).mpr fun _ => ?_
  refine (Prog.answers_of_forall (Q := fun _ => True) (fun _ => trivial) _).bind fun a _ => ?_
  change (a.memset 0 (a.byte 0 &&& 0xfc) 1).byte 0 &&& 3 = 0
  rw [Buf.byte_memset, if_pos (by omega), UInt8.and_assoc,
    show (0xfc : UInt8) &&& 3 = 0 by decide, UInt8.and_zero]

theorem setHwaddr_refined (h : Tunnels dev k i f) (text : CString) :
    ((Op.setHwaddr text).prog .linux libc dev).Wp (kernel R)
      (Refined R libc (dev.tunnel f) (.setHwaddr text) i) k := by
  simp only [Op.prog, tuntapSetHwaddr]
  by_cases htext : text = CString.lit "random"
  · simp only [if_pos htext, Prog.bind_assoc]
    refine (idle_wp randomHwaddr_idles randomHwaddr_answers).bind fun a k' ha => ?_
    obtain ⟨ha, rfl⟩ := ha
    exact setHwaddrTo_refined h (by rw [Tunnel.MeansHwaddr, if_pos htext]; exact ha)
  · simp only [if_neg htext]
    cases haton : libc.etherAton text with
    | none => exact h.kept (show Tunnel.Does _ _ _ _ (.int (-1)) _ from Or.inl ⟨rfl, rfl⟩)
    | some a =>
        exact setHwaddrTo_refined h (by rw [Tunnel.MeansHwaddr, if_neg htext]; exact haton)

/-! ## Packets -/

theorem readPacket_refined (h : Tunnels dev k i f) {size : Nat}
    (hdoes : ∀ ret t, (dev.tunnel f).Reads size ret t → (dev.tunnel f).Does R libc op ret t) :
    (do let r ← readPacket dev size; return keep dev (.bytes r.1 r.2) : Sys _).Wp (kernel R)
      (Refined R libc (dev.tunnel f) op i) k := by
  simp only [readPacket, Prog.bind_assoc]
  refine (Prog.wp_call_bind _ _).mpr fun r k' hs => ?_
  rcases hs with ⟨hr, rfl⟩ | ⟨hsize, hret, hdata, rfl⟩ | ⟨hsize, j, g, packet, rest, hg, hqueue,
    hdata, hret, hput⟩
  · have hfails := hdoes (.bytes (-1) r.data) _ (Or.inl ⟨⟨r.data, rfl⟩, rfl⟩)
    simp only [hr, if_true]
    exact refined_of_idles h (by simp) (by simp [keep, hfails])
  · have hnothing := hdoes (.bytes 0 []) _ (Or.inr (Or.inl ⟨hsize, rfl, rfl⟩))
    rw [if_neg (by omega), hret, hdata]
    exact h.kept hnothing
  · obtain ⟨rfl, rfl⟩ := h.linked.unique hg
    rw [if_neg (by omega)]
    intro d hd
    obtain rfl := Option.some.inj hd
    refine ⟨_, h.put hput rfl rfl rfl rfl, hdoes _ _
      (Or.inr (Or.inr ⟨hsize, packet, rest, hqueue, ?_, rfl⟩))⟩
    simp only [keep, hret, hdata]

theorem read_refined (h : Tunnels dev k i f) (size : Nat) :
    ((Op.read size).prog .linux libc dev).Wp (kernel R)
      (Refined R libc (dev.tunnel f) (.read size) i) k := by
  simp only [Op.prog, tuntapRead, if_neg h.started]
  exact readPacket_refined h fun _ _ => id

theorem waitReadyEventOrTimeout_idles {fd timeoutMs : Int} {reading : Bool} :
    (waitReadyEventOrTimeout fd reading timeoutMs).AllCalls (Idles R) := by
  simp [waitReadyEventOrTimeout]

theorem readTm_refined (h : Tunnels dev k i f) (size : Nat) (timeoutMs : Int) :
    ((Op.readTm size timeoutMs).prog .linux libc dev).Wp (kernel R)
      (Refined R libc (dev.tunnel f) (.readTm size timeoutMs) i) k := by
  simp only [Op.prog, tuntapReadTm, if_neg h.started, Prog.bind_assoc]
  refine (idle_wp (A := fun _ => True) waitReadyEventOrTimeout_idles
    (Prog.answers_of_forall (fun _ => trivial) _)).bind fun ready k' hk => ?_
  obtain ⟨-, rfl⟩ := hk
  cases ready with
  | false =>
      exact h.kept (show Tunnel.Does _ _ _ _ (.bytes (-1) []) _ from Or.inl ⟨⟨[], rfl⟩, rfl⟩)
  | true => exact readPacket_refined h fun _ _ => id

theorem write_refined (h : Tunnels dev k i f) (buf : List UInt8) :
    ((Op.write buf).prog .linux libc dev).Wp (kernel R)
      (Refined R libc (dev.tunnel f) (.write buf) i) k := by
  refine refined_of_idles h (by simp [Op.prog, tuntapWrite, writePacket]) ?_
  simp [Op.prog, tuntapWrite, writePacket, h.started, keep, Tunnel.Does]

theorem writeTm_refined (h : Tunnels dev k i f) (buf : List UInt8) (timeoutMs : Int) :
    ((Op.writeTm buf timeoutMs).prog .linux libc dev).Wp (kernel R)
      (Refined R libc (dev.tunnel f) (.writeTm buf timeoutMs) i) k := by
  refine refined_of_idles h
    (by simp [Op.prog, tuntapWriteTm, writePacket, waitReadyEventOrTimeout]) ?_
  simp only [Op.prog, tuntapWriteTm, if_neg h.started, Prog.bind_assoc]
  refine (Prog.answers_of_forall (Q := fun _ => True) (fun _ => trivial) _).bind fun ready _ => ?_
  cases ready <;> simp [writePacket, keep, Tunnel.Does]

/-! ## Addresses -/

/-- The link after a request of the device that leaves the name. -/
theorem Tunnels.alters (h : Tunnels dev k i f) {n : Nat} {arg : Buf n} (hn : Names dev n arg)
    {change : Iface → Iface} (ha : k.Alters dev.ctrlSock arg change k')
    (hname : (change f).name = f.name) : Tunnels dev k' i (change f) :=
  h.put (h.linked.reaches.alters hn ha) hname rfl rfl rfl

theorem netmaskWord_answers {netmask : Int} (h0 : 0 ≤ netmask) :
    (netmaskWord netmask).Answers fun w =>
      netmask ≤ 32 → IsPrefixMask (networkWord (Buf.store32 w)) netmask := by
  by_cases h32 : netmask ≤ 32
  · unfold netmaskWord
    by_cases h : netmask = 32
    · rw [if_pos h]
      intro _
      rw [networkWord_htonl, h]
      exact isPrefixMask_ones
    · rw [if_neg h]
      unfold shiftRight
      rw [if_neg (by omega)]
      intro _
      rw [networkWord_htonl]
      obtain ⟨len, rfl⟩ := Int.eq_ofNat_of_zero_le h0
      exact isPrefixMask_shift len
  · exact Prog.answers_of_forall (fun _ h => absurd h h32) _

theorem setIpv4_refined (h : Tunnels dev k i f) {text : CString} {netmask : Int} {a : Buf 4}
    {mask : BitVec 32} (h0 : 0 ≤ netmask) (h128 : netmask ≤ 128)
    (ha : libc.inetPton4 text = some a)
    (hmask : netmask ≤ 32 → IsPrefixMask (networkWord (Buf.store32 mask)) netmask) :
    (do let n ← Linux.tuntapSysSetIpv4 dev a mask; return keep dev (.int n) : Sys _).Wp (kernel R)
      (Refined R libc (dev.tunnel f) (.setIp (some text) netmask) i) k := by
  have haddr : ifrInAddr (((Linux.ifreqNamed dev).memcpy 20 a 4).memcpy 16 (Buf.store16 afInet) 2)
      = a := by
    unfold ifrInAddr
    rw [Buf.slice_memcpy_disjoint _ _ _ _ _ _ (by omega), Buf.slice_memcpy_same _ _ _ (by omega)]
  have hsent : ∀ b : Ifreq,
      ifrInAddr (b.memcpy 16 (sockaddrIn (Buf.store32 mask)) 16) = Buf.store32 mask := by
    intro b
    unfold ifrInAddr sockaddrIn
    rw [Buf.slice_memcpy_inside _ _ _ _ _ _ (by omega) (by omega) (by omega)]
    exact Buf.slice_memcpy_same _ _ _ (by omega)
  have hn : Names dev 40 (((Linux.ifreqNamed dev).memcpy 20 a 4).memcpy 16
      (Buf.store16 afInet) 2) := (names_linux.memcpy (by omega)).memcpy (by omega)
  have hdoes : ∀ {ret t}, (dev.tunnel f).SetsIpv4 R a netmask ret t →
      (dev.tunnel f).Does R libc (.setIp (some text) netmask) ret t :=
    fun hset => Or.inr ⟨text, rfl, h0, h128, Or.inl ⟨a, ha, hset⟩⟩
  simp only [Linux.tuntapSysSetIpv4, Prog.bind_assoc]
  refine (Prog.wp_call_bind _ _).mpr fun r k₁ hs => ?_
  rcases hs with ⟨hr, rfl⟩ | ⟨hr, hs⟩
  · simp only [hr, if_true]
    exact refined_of_idles h (by simp)
      (by simp [keep, Tunnel.Does, Tunnel.SetsIp, Tunnel.Fails])
  · simp only [Kern.Sets, h.linked.reaches.sock] at hs
    rw [if_neg (by decide)] at hs
    have h₁ := h.alters hn hs rfl
    rw [haddr] at h₁
    simp only [hr, if_neg (show ¬ (0 : Int) = -1 by decide), Prog.bind_assoc]
    refine (Prog.wp_call_bind _ _).mpr fun r' k₂ hs' => ?_
    rcases hs' with ⟨hr', rfl⟩ | ⟨hr', hs'⟩
    · simp only [hr', if_true, Prog.bind_assoc]
      intro _ k₃ hlog d hd
      obtain rfl : k₃ = k₂ := hlog
      obtain rfl := Option.some.inj hd
      exact ⟨_, h₁, hdoes (Or.inl ⟨rfl, rfl⟩)⟩
    · simp only [hr', if_neg (show ¬ (0 : Int) = -1 by decide)]
      have h₂ := h₁.alters ((hn.memset (by omega)).memcpy (by omega)) hs' rfl
      intro d hd
      obtain rfl := Option.some.inj hd
      refine ⟨_, h₂, hdoes (Or.inr ⟨rfl, Buf.store32 mask, hmask, ?_⟩)⟩
      simp only [List.map_cons, List.map_nil, hsent]
      rfl

/-- A socket that was opened on the way, beside the device. -/
structure Beside (dev : Device) (k : Kern) (i : Nat) (f : Iface) (fd : Int) : Prop where
  tunnels : Tunnels dev k i f
  sock : k.fds fd = some (.socket .inet6)
  tunFd : dev.tunFd ≠ fd
  ctrlSock : dev.ctrlSock ≠ fd

theorem Tunnels.beside (h : Tunnels dev k i f) {fd : Int} (hfd : fd ≠ -1)
    (hs : Kern.Step R k (.socket .inet6) fd k') : Beside dev k' i f fd := by
  obtain ⟨hreach, hopen, hctrl⟩ := h.linked.reaches.borrow hfd hs
  have htun : dev.tunFd ≠ fd := by
    intro heq
    have hattached := h.linked.attached
    rw [heq, (Kern.Step.socket_opens hs hfd).1] at hattached
    cases hattached
  refine ⟨⟨h.started, h.last, h.index, ?_, hreach⟩, hopen, htun, hctrl⟩
  rcases hs with ⟨hno, -⟩ | ⟨-, -, -, hfds⟩
  · exact absurd hno hfd
  · rw [hfds, Function.update_of_ne htun]
    exact h.linked.attached

theorem Beside.close {fd : Int} (h : Beside dev k i f fd) {r : Int}
    (hs : Kern.Step R k (.close fd) r k') : Tunnels dev k' i f := by
  obtain ⟨hfds, hifs⟩ := hs.close_socket h.sock
  refine ⟨h.tunnels.started, h.tunnels.last, h.tunnels.index, ?_, ?_, ?_,
    h.tunnels.linked.reaches.name⟩
  · rw [hfds, Function.update_of_ne h.tunFd]
    exact h.tunnels.linked.attached
  · rw [hfds, Function.update_of_ne h.ctrlSock]
    exact h.tunnels.linked.reaches.sock
  · rw [hifs]
    exact h.tunnels.linked.reaches.iface

/-- The addresses are changed through the socket. -/
theorem Beside.put {fd : Int} (h : Beside dev k i f fd) {inet6 : List Inet6}
    (hput : k.Put k' i { f with inet6 := inet6 }) :
    Beside dev k' i { f with inet6 := inet6 } fd :=
  ⟨h.tunnels.put hput rfl rfl rfl rfl, hput.1 ▸ h.sock, h.tunFd, h.ctrlSock⟩

/-- The deletion takes the address of no host, or nothing. -/
theorem Beside.siocdifaddr {fd : Int} (h : Beside dev k i f fd) {arg : In6Ifreq} {r : IoctlRet}
    (hindex : indexNamed arg = i) (hnamed : inet6Named arg = unspecified)
    (hs : Kern.Step R k (.ioctl fd .siocdifaddr arg) r k') :
    ∃ inet6, (inet6 = f.inet6 ∨ inet6 = f.inet6.erase unspecified) ∧
      Beside dev k' i { f with inet6 := inet6 } fd := by
  rcases hs with ⟨-, rfl⟩ | ⟨-, hs⟩
  · exact ⟨f.inet6, Or.inl rfl, h⟩
  · simp only [Kern.Sets] at hs
    rw [if_pos h.sock] at hs
    obtain ⟨j, g, hg, hj, -, hput⟩ := hs
    obtain rfl : j = i := hj.trans hindex
    obtain rfl := Option.some.inj (h.tunnels.linked.reaches.iface.symm.trans hg)
    rw [show (arg.slice 0 16, Buf.load32 (arg.slice 16 4)) = unspecified from hnamed] at hput
    exact ⟨_, Or.inr rfl, h.put hput⟩

theorem Beside.siocsifaddr {fd : Int} (h : Beside dev k i f fd) {arg : In6Ifreq} {r : IoctlRet}
    (hindex : indexNamed arg = i) (hr : r.ret ≠ -1)
    (hs : Kern.Step R k (.ioctl fd .siocsifaddr arg) r k') :
    Beside dev k' i { f with inet6 := inet6Named arg :: f.inet6 } fd := by
  rcases hs with ⟨hno, -⟩ | ⟨-, hs⟩
  · exact absurd hno hr
  · simp only [Kern.Sets] at hs
    rw [if_pos h.sock] at hs
    obtain ⟨j, g, hg, hj, hput⟩ := hs
    obtain rfl : j = i := hj.trans hindex
    obtain rfl := Option.some.inj (h.tunnels.linked.reaches.iface.symm.trans hg)
    exact h.put hput

theorem setIpv6_refined (h : Tunnels dev k i f) {text : CString} {netmask : Int} {a : Buf 16}
    (h0 : 0 ≤ netmask) (h128 : netmask ≤ 128) (h4 : libc.inetPton4 text = none)
    (h6 : libc.inetPton6 text = some a) :
    (do let n ← Linux.tuntapSysSetIpv6 dev a (BitVec.ofInt 32 netmask)
        return keep dev (.int n) : Sys _).Wp (kernel R)
      (Refined R libc (dev.tunnel f) (.setIp (some text) netmask) i) k := by
  have hdoes : ∀ {ret t}, (dev.tunnel f).SetsIpv6 a netmask ret t →
      (dev.tunnel f).Does R libc (.setIp (some text) netmask) ret t :=
    fun hset => Or.inr ⟨text, rfl, h0, h128, Or.inr ⟨a, h4, h6, hset⟩⟩
  have hdone : ∀ {n : Int} {k : Kern} {g : Iface} {fd : Int}, Beside dev k i g fd →
      (dev.tunnel f).Does R libc (.setIp (some text) netmask) (.int n) (dev.tunnel g) →
      (do let _ ← close fd; return keep dev (.int n) : Sys _).Wp (kernel R)
        (Refined R libc (dev.tunnel f) (.setIp (some text) netmask) i) k := by
    intro n k g fd hbeside hdoes' r k' hclose d hd
    obtain rfl := Option.some.inj hd
    exact ⟨g, hbeside.close hclose, hdoes'⟩
  have hfails : (dev.tunnel f).Does R libc (.setIp (some text) netmask) (.int (-1))
      (dev.tunnel f) := Or.inl ⟨rfl, rfl⟩
  simp only [Linux.tuntapSysSetIpv6, Prog.bind_assoc]
  refine (Prog.wp_call_bind _ _).mpr fun fd k₁ hsock => ?_
  by_cases hfd : fd = -1
  · have hsame : k₁ = k := by
      rcases hsock with ⟨-, hsame⟩ | ⟨hnonneg, -⟩
      · exact hsame
      · rw [hfd] at hnonneg
        exact absurd hnonneg (by decide)
    subst hsame
    simp only [hfd, if_true, Prog.bind_assoc]
    exact refined_of_idles h (by simp) (by simpa [keep] using hfails)
  have h₁ := h.beside hfd hsock
  simp only [hfd, if_false, Prog.bind_assoc]
  refine (Prog.wp_call_bind _ _).mpr fun r k₂ hindex => ?_
  have hidle := idles_ioctlGet _ (by decide) _ _ _ hindex
  subst hidle
  by_cases hr : r.ret = -1
  · simp only [hr, if_true, Prog.bind_assoc]
    intro _ k₃ hlog
    obtain rfl : k₃ = _ := hlog
    exact hdone h₁ hfails
  have harg := (h₁.tunnels.linked.reaches.siocgifindex h.index names_linux hr hindex).2
  simp only [hr, if_false, Prog.bind_assoc]
  refine (Prog.wp_call_bind _ _).mpr fun _ k₃ hdel => ?_
  have hnamed := (indexNamed_index (ifrInt r.arg)).trans harg
  obtain ⟨inet6, hinet6, h₃⟩ := h₁.siocdifaddr hnamed (inet6Named_index _) hdel
  refine (Prog.wp_call_bind _ _).mpr fun ra k₄ hadd => ?_
  by_cases hra : ra.ret = -1
  · have hsame : k₄ = k₃ := by
      rcases hadd with ⟨-, hsame⟩ | ⟨hzero, -⟩
      · exact hsame
      · exact absurd (hra.symm.trans hzero) (by decide)
    subst hsame
    simp only [hra, if_true, Prog.bind_assoc]
    intro _ k₅ hlog
    obtain rfl : k₅ = _ := hlog
    exact hdone h₃ (hdoes ⟨inet6, hinet6, Or.inl ⟨rfl, rfl⟩⟩)
  have h₄ := h₃.siocsifaddr ((indexNamed_request _ a _).trans hnamed) hra hadd
  rw [inet6Named_request] at h₄
  simp only [hra, if_false, Prog.bind_assoc]
  exact hdone h₄ (hdoes ⟨inet6, hinet6, Or.inr ⟨rfl, rfl⟩⟩)

theorem setIp_refined (h : Tunnels dev k i f) (addr : Option CString) (netmask : Int) :
    ((Op.setIp addr netmask).prog .linux libc dev).Wp (kernel R)
      (Refined R libc (dev.tunnel f) (.setIp addr netmask) i) k := by
  have hfails : (dev.tunnel f).Does R libc (.setIp addr netmask) (.int (-1)) (dev.tunnel f) :=
    Or.inl ⟨rfl, rfl⟩
  have hlogged : ∀ {level : Level} {msg : String},
      (do tuntapLog level msg; return keep dev (.int (-1)) : Sys _).Wp (kernel R)
        (Refined R libc (dev.tunnel f) (.setIp addr netmask) i) k :=
    refined_of_idles h (by simp) (by simpa [keep] using hfails)
  simp only [Op.prog, tuntapSetIp, if_neg h.started]
  cases addr with
  | none => exact hlogged
  | some text =>
      by_cases hrange : netmask < 0 ∨ netmask > 128
      · simp only [if_pos hrange]
        exact hlogged
      · simp only [if_neg hrange]
        have h0 : 0 ≤ netmask := by omega
        have h128 : netmask ≤ 128 := by omega
        cases h4 : libc.inetPton4 text with
        | some a =>
            simp only [Prog.bind_assoc]
            refine (idle_wp (netmaskWord_idles netmask) (netmaskWord_answers h0)).bind
              fun mask k' hmask => ?_
            obtain ⟨hmask, rfl⟩ := hmask
            exact setIpv4_refined h h0 h128 h4 hmask
        | none =>
            cases h6 : libc.inetPton6 text with
            | some a => exact setIpv6_refined h h0 h128 h4 h6
            | none => exact hlogged

/-! ## Every operation -/

theorem Op.refined (hos : R.os = .linux) (op : Op) (h : Tunnels dev k i f) :
    (op.prog .linux libc dev).Wp (kernel R) (Refined R libc (dev.tunnel f) op i) k := by
  cases op with
  | start mode tun => exact start_refined h mode tun
  | release =>
      refine (Prog.wp_iff _).mpr fun tr r k' hr _ d hd => ?_
      obtain ⟨_, _, _, _, _, _, rfl⟩ := (Prog.runs_bind _ _ _ _).mp hr
      cases hd
  | destroy =>
      refine (Prog.wp_iff _).mpr fun tr r k' hr _ d hd => ?_
      obtain ⟨_, _, _, _, _, _, rfl⟩ := (Prog.runs_bind _ _ _ _).mp hr
      cases hd
  | setDescr descr =>
      cases descr <;> exact refined_of_idles h
        (by simp [Op.prog, tuntapSetDescr, tuntapSysSetDescr, Linux.tuntapSysSetDescr])
        (by simp [Op.prog, tuntapSetDescr, tuntapSysSetDescr, Linux.tuntapSysSetDescr, keep,
          Tunnel.Does, Tunnel.Fails])
  | getDescr =>
      exact refined_of_idles h
        (by simp [Op.prog, tuntapGetDescr, tuntapSysGetDescr, Linux.tuntapSysGetDescr])
        (by simp [Op.prog, tuntapGetDescr, tuntapSysGetDescr, Linux.tuntapSysGetDescr, keep,
          Tunnel.Does])
  | getIfname => exact h.kept ⟨rfl, rfl⟩
  | setIfname ifname => exact setIfname_refined h ifname
  | getHwaddr => exact h.kept ⟨rfl, rfl⟩
  | setHwaddr text => exact setHwaddr_refined h text
  | up => exact setFlags_refined h _ fun _ _ => id
  | down => exact setFlags_refined h _ fun _ _ => id
  | getMtu => exact getMtu_refined h
  | setMtu mtu => exact setMtu_refined h mtu
  | setIp addr netmask => exact setIp_refined h addr netmask
  | read size => exact read_refined h size
  | readTm size timeoutMs => exact readTm_refined h size timeoutMs
  | write buf => exact write_refined h buf
  | writeTm buf timeoutMs => exact writeTm_refined h buf timeoutMs
  | getReadable => exact getReadable_refined hos h
  | setNonblocking set =>
      exact refined_of_idles h (by simp [Op.prog, tuntapSetNonblocking])
        (by simp [Op.prog, tuntapSetNonblocking, keep, Tunnel.Does, Tunnel.Sets, Tunnel.Fails])
  | setDebug set =>
      exact refined_of_idles h (by simp [Op.prog, tuntapSetDebug])
        (by simp [Op.prog, tuntapSetDebug, keep, Tunnel.Does, Tunnel.Sets, Tunnel.Fails])
  | getFd => exact h.kept ⟨rfl, rfl⟩

end Ops

/-! ## Runs -/

/-- The interface behind `tun_fd`. -/
def Session.iface (s : Session) : Option Iface :=
  match s.kern.fds s.dev.tunFd with
  | some (.tun (some i)) => s.kern.ifs i
  | _ => none

/-- The packets that wait to be read. -/
def Session.waiting (s : Session) : List (List UInt8) :=
  match s.iface with
  | some f => f.queue
  | none => []

/-- Others keep some parts of the interface, and what they put into the queue
comes last. -/
def Feeding (kept : List Field) : Rely := fun dev k k' =>
  OthersKeep kept dev k k' ∧ ∀ i f f', k.Attached dev.tunFd i f → k'.ifs i = some f' →
    ∃ packets, f'.queue = f.queue ++ packets

/-- What a step of a session is to the tunnel. -/
def observed : Session × Act × Session → TunnelAct
  | (_, .call op _ ret, _) => .call op ret
  | (s, .others, s') => .others (s'.waiting.drop s.waiting.length)

/-- The session is on this tunnel. -/
def Abstracts (s : Session) (t : Tunnel) : Prop :=
  ∃ i f, Tunnels s.dev s.kern i f ∧ t = s.dev.tunnel f

section Runs

variable {R : Rules} {libc : Libc} {kept : List Field} {s s' : Session} {t : Tunnel}

theorem Tunnels.waiting {dev : Device} {k : Kern} {i : Nat} {f : Iface} (h : Tunnels dev k i f) :
    (Session.mk dev k).waiting = f.queue := by
  simp only [Session.waiting, Session.iface, h.linked.attached, h.linked.reaches.iface]

theorem Abstracts.waiting (h : Abstracts s t) : s.waiting = t.iface.queue := by
  obtain ⟨i, f, hf, rfl⟩ := h
  exact hf.waiting

/-- Every step of a session is one of the tunnel. -/
theorem session_simulates (hos : R.os = .linux) (hname : .name ∈ kept) :
    Simulates (Session.Step R libc (Feeding kept)) (Tunnel.Step R libc kept) observed
      Abstracts := by
  refine ⟨fun {s a s' t} hs habs => ?_⟩
  obtain ⟨i, f, h, rfl⟩ := habs
  cases a with
  | call op tr ret =>
      have hwp : (op.prog R.os libc s.dev).Wp (kernel R)
          (Refined R libc (s.dev.tunnel f) op i) s.kern := by
        rw [hos]
        exact op.refined hos h
      obtain ⟨f', h', hdoes⟩ := hs.of_wp hwp s'.dev rfl
      exact ⟨s'.dev.tunnel f', .call hdoes, i, f', h', rfl⟩
  | others =>
      cases hs with
      | @others dev k k' hrely =>
          obtain ⟨hkeep, hqueue⟩ := hrely
          obtain ⟨f', hlink, hsame⟩ := h.linked.others hkeep hname
          obtain ⟨packets, hpackets⟩ := hqueue i f f' ⟨h.linked.attached, h.linked.reaches.iface⟩
            hlink.reaches.iface
          have h' : Tunnels dev k' i f' := ⟨h.started, h.last, h.index, hlink⟩
          have hobs : observed (⟨dev, k⟩, .others, ⟨dev, k'⟩) = .others packets := by
            have hold : (Session.mk dev k).waiting = f.queue := h.waiting
            simp only [observed, hold, h'.waiting, hpackets, List.drop_left]
          refine ⟨dev.tunnel f', ?_, i, f', h', rfl⟩
          rw [hobs]
          exact .others hpackets hsame

/-- A start writes 16 bytes of the name and leaves the one behind them. -/
theorem tuntapStart_last {dev : Device} {mode : Mode} {tun : Int} :
    (tuntapStart .linux dev mode tun).Answers fun r =>
      r.2.ifName.byte 16 = dev.ifName.byte 16 := by
  have hcopy : ∀ b : Buf 16, (dev.ifName.memcpy 0 b 16).byte 16 = dev.ifName.byte 16 := by
    intro b
    rw [Buf.byte_memcpy, if_neg (by omega)]
  have hclean : ∀ {fd sock : Int} {d : Device}, d.ifName.byte 16 = dev.ifName.byte 16 →
      (startClean fd sock d).Answers fun r => r.2.ifName.byte 16 = dev.ifName.byte 16 := by
    intro fd sock d hd
    simp [startClean, hd]
  have hsys : ∀ sock, (Linux.tuntapSysStart { dev with ctrlSock := sock } mode tun).Answers
      fun r => r.2.ifName.byte 16 = dev.ifName.byte 16 := by
    intro sock
    simp [Linux.tuntapSysStart, Linux.setPersistent, hcopy]
  unfold tuntapStart
  refine (Prog.answers_ite _ _ _).mpr ⟨fun _ _ => rfl, fun _ => ?_⟩
  refine (Prog.answers_call_bind _ _).mpr fun sock => ?_
  refine (Prog.answers_ite _ _ _).mpr ⟨fun _ => hclean rfl, fun _ => ?_⟩
  refine (Prog.answers_ite _ _ _).mpr ⟨fun _ => hclean rfl, fun _ => ?_⟩
  refine (hsys sock).bind fun r hr => ?_
  exact (Prog.answers_ite _ _ _).mpr ⟨fun _ => hclean hr, fun _ => hr⟩

/-- After a start that succeeded the session is on a tunnel of the interface's
own name, framed as the mode asks for. -/
theorem Session.Step.start_tunnels (hos : R.os = .linux) {rely : Rely} {mode : Mode} {tun : Int}
    {tr : List (Event Call Resp)}
    (hs : Session.Step R libc rely s (.call (.start mode tun) tr (.int 0)) s')
    (hdev : s.dev.tunFd = -1) (hlast : s.dev.ifName.byte 16 = 0)
    (hindex : ∀ i f, s'.kern.ifs i = some f → i < 2 ^ 31) :
    ∃ t, Abstracts s' t ∧ t.name = t.iface.name ∧ t.iface.framing = mode.framing := by
  obtain ⟨n, hret, hstarted⟩ := hs.start hos hdev (A := fun _ => True) fun _ _ => trivial
  cases hret
  rcases hstarted with ⟨hno, -⟩ | ⟨-, htun, i, f, hlink, hfresh⟩
  · exact absurd hno (show ¬ (0 : Int) = -1 by decide)
  · have hlast' : s'.dev.ifName.byte 16 = 0 := by
      cases hs with
      | call hr hk =>
          rw [hos] at hr
          obtain ⟨r, _, _, -, hstart, -, hback⟩ := (Prog.runs_bind _ _ _ _).mp hr
          have hr' := tuntapStart_last.of_runs hstart
          have hrecord : s'.dev = r.2 := Option.some.inj (Prod.mk.inj hback).2
          rw [hrecord]
          exact hr'.trans hlast
    exact ⟨s'.dev.tunnel f, ⟨i, f, ⟨htun, hlast', hindex i f hlink.reaches.iface, hlink⟩, rfl⟩,
      hfresh.name, hfresh.framing⟩

/-- Whatever is called after a start that succeeded, and whatever happens in
between, the device is a tunnel: some run of the tunnel has the same calls with
the same answers and the same packets coming in, and ends on what the device has
come to. -/
theorem session_refines_tunnel (hos : R.os = .linux) (hname : .name ∈ kept) {s₀ : Session}
    {mode : Mode} {tun : Int} {tr₀ : List (Event Call Resp)}
    {tr : List (Session × Act × Session)}
    (hs : Session.Step R libc (Feeding kept) s₀ (.call (.start mode tun) tr₀ (.int 0)) s)
    (hdev : s₀.dev.tunFd = -1) (hlast : s₀.dev.ifName.byte 16 = 0)
    (hindex : ∀ i f, s.kern.ifs i = some f → i < 2 ^ 31)
    (hr : Run (Session.Step R libc (Feeding kept)) s tr s') :
    ∃ t tr' t', t.name = t.iface.name ∧ t.iface.framing = mode.framing ∧
      Run (Tunnel.Step R libc kept) t tr' t' ∧ labels tr' = tr.map observed ∧
      Abstracts s t ∧ Abstracts s' t' := by
  obtain ⟨t, ht, hfresh, hframing⟩ := hs.start_tunnels hos hdev hlast hindex
  obtain ⟨tr', t', hr', hlabels, ht'⟩ := (session_simulates hos hname).run hr ht
  exact ⟨t, tr', t', hfresh, hframing, hr', hlabels, ht, ht'⟩

end Runs

/-! ## A run on `tap0` -/

/-- `tap0` with a frame waiting and this MTU. -/
def Iface.tap0Mtu (packet : List UInt8) (mtu : BitVec 32) : Iface :=
  { Iface.tap0With packet with mtu := mtu }

section Tap0

variable {libc : Libc} {rely : Rely}

theorem Device.tap0_tunnels {f : Iface} {hf : f.name.strlen ≤ 15}
    (hname : f.name = CString.lit "tap0") : Tunnels Device.tap0 (Kern.attached f hf) 0 f := by
  refine ⟨by decide, by decide, by decide, rfl, rfl, rfl, ?_⟩
  rw [hname]
  decide

theorem tap0_fed (packet : List UInt8) :
    Session.Step (Rules.plain .linux) libc (Feeding [.name, .mtu])
      ⟨Device.tap0, Kern.attached Iface.tap0 (by decide)⟩ .others
      ⟨Device.tap0, Kern.tap0With packet⟩ := by
  have hattached : ∀ {i f}, (Kern.attached Iface.tap0 (by decide)).Attached Device.tap0.tunFd i f →
      i = 0 ∧ f = Iface.tap0 := by
    intro i f hf
    obtain ⟨rfl, rfl⟩ := Kern.Attached.unique (i := 0) (f := Iface.tap0) ⟨rfl, rfl⟩ hf
    exact ⟨rfl, rfl⟩
  refine .others ⟨⟨rfl, rfl, fun i f hf => ?_⟩, fun i f f' hf hf' => ?_⟩
  · obtain ⟨rfl, rfl⟩ := hattached hf
    refine ⟨Iface.tap0With packet, rfl, fun field hfield => ?_⟩
    simp only [List.mem_cons, List.not_mem_nil, or_false] at hfield
    rcases hfield with rfl | rfl <;> rfl
  · obtain ⟨rfl, rfl⟩ := hattached hf
    obtain rfl := Option.some.inj (show some (Iface.tap0With packet) = some f' from hf')
    exact ⟨[packet], rfl⟩

theorem tap0_getMtu (packet : List UInt8) (mtu : BitVec 32) : ∃ tr,
    Session.Step (Rules.plain .linux) libc rely
      ⟨Device.tap0, Kern.attached (Iface.tap0Mtu packet mtu) Iface.tap0_short⟩
      (.call .getMtu tr (.int mtu.toInt))
      ⟨Device.tap0, Kern.attached (Iface.tap0Mtu packet mtu) Iface.tap0_short⟩ := by
  have hint : ifrInt (setIfrInt reqMtu mtu) = mtu := ifrInt_setIfrInt _ _ (by decide)
  refine ⟨[⟨.ioctlGet 3 .siocgifmtu reqMtu, ⟨0, setIfrInt reqMtu mtu⟩⟩],
    .call ⟨⟨0, setIfrInt reqMtu mtu⟩, [], rfl, rfl, ?_⟩ ⟨_, Or.inr ⟨rfl, rfl, ⟨.inet, rfl⟩, 0,
      Iface.tap0Mtu packet mtu, ⟨rfl, Device.tap0_names (names_ifreqNamed .linux)⟩, rfl⟩, rfl⟩⟩
  change _ = keep Device.tap0 (.int (ifrInt (setIfrInt reqMtu mtu)).toInt)
  rw [hint]
  rfl

theorem tap0_read (packet : List UInt8) (mtu : BitVec 32) {size : Nat} (hsize : size ≠ 0) :
    ∃ tr s',
    Session.Step (Rules.plain .linux) libc rely
      ⟨Device.tap0, Kern.attached (Iface.tap0Mtu packet mtu) Iface.tap0_short⟩
      (.call (.read size) tr (.bytes (packet.take size).length (packet.take size))) s' := by
  have hlen : ((packet.take size).length : Int) ≠ -1 := by omega
  refine ⟨[⟨.read 4 size, ⟨(packet.take size).length, .other, packet.take size⟩⟩],
    ⟨Device.tap0, Kern.attached { Iface.tap0Mtu packet mtu with queue := [] } Iface.tap0_short⟩,
    .call ?_ ⟨Kern.attached { Iface.tap0Mtu packet mtu with queue := [] } Iface.tap0_short,
      Or.inr (Or.inr ⟨hsize, 0, Iface.tap0Mtu packet mtu, packet, [], ⟨rfl, rfl⟩, rfl, rfl, rfl,
        rfl, (Function.update_idem ..).symm⟩), rfl⟩⟩
  refine (Prog.runs_bind _ _ _ _).mpr ⟨((packet.take size).length, packet.take size), _, [],
    (List.append_nil _).symm, ?_, rfl, rfl⟩
  refine (Prog.runs_call_bind _ _ _ _).mpr
    ⟨⟨(packet.take size).length, .other, packet.take size⟩, _, rfl, ?_⟩
  exact (Prog.runs_ite _ _ _ _ _).mpr (Or.inr ⟨hlen, rfl, rfl⟩)

/-- A frame comes in, the MTU is set and asked for, and the frame is read. -/
theorem tap0_run : ∃ tr s', Run (Session.Step (Rules.plain .linux) Libc.refusing
      (Feeding [.name, .mtu])) ⟨Device.tap0, Kern.attached Iface.tap0 (by decide)⟩ tr s' ∧
    tr.map observed = [.others [List.replicate 64 7], .call (.setMtu 1400) (.int 0),
      .call .getMtu (.int 1400), .call (.read 32) (.bytes 32 (List.replicate 32 7))] := by
  have h₁ : Session.Step (Rules.plain .linux) Libc.refusing (Feeding [.name, .mtu])
      ⟨Device.tap0, Kern.tap0With (List.replicate 64 7)⟩ _
      ⟨Device.tap0, Kern.attached (Iface.tap0Mtu (List.replicate 64 7) 1400) Iface.tap0_short⟩ :=
    setMtuTap0_step _ _ (Iface.tap0With (List.replicate 64 7)) Iface.tap0_short rfl 1400
  obtain ⟨tr₂, h₂⟩ := @tap0_getMtu Libc.refusing (Feeding [.name, .mtu]) (List.replicate 64 7) 1400
  obtain ⟨tr₃, s', h₃⟩ := @tap0_read Libc.refusing (Feeding [.name, .mtu])
    (List.replicate 64 7) 1400 32 (by decide)
  exact ⟨_, s', .cons (tap0_fed _) (.cons h₁ (.cons h₂ (.cons h₃ (.nil s')))), rfl⟩

end Tap0

/-- The tunnel this run refines. -/
theorem tap0_refines_tunnel : ∃ t tr' t',
    Run (Tunnel.Step (Rules.plain .linux) Libc.refusing [.name, .mtu]) t tr' t' ∧
      labels tr' = [.others [List.replicate 64 7], .call (.setMtu 1400) (.int 0),
        .call .getMtu (.int 1400), .call (.read 32) (.bytes 32 (List.replicate 32 7))] := by
  obtain ⟨tr, s', hr, hobs⟩ := tap0_run
  have hindex : ∀ i f, (Kern.attached Iface.tap0 (by decide)).ifs i = some f → i < 2 ^ 31 := by
    intro i f hf
    by_contra hi
    have hne : i ≠ 0 := by omega
    rw [show (Kern.attached Iface.tap0 (by decide)).ifs = Function.update (fun _ => none) 0 _
      from rfl, Function.update_of_ne hne] at hf
    cases hf
  obtain ⟨t, tr', t', -, -, hr', hlabels, -⟩ := session_refines_tunnel rfl (by decide)
    (startTap0_step _ _) rfl rfl hindex hr
  exact ⟨t, tr', t', hr', hlabels.trans hobs⟩

end Libtuntap
