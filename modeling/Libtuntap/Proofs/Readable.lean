import Libtuntap.Proofs.Started

/-!
# The size reported and the packet read

A `read` gives one packet and drops what does not fit, so the buffer has to be
long enough before the call. The documentation sends the caller to
`tuntap_get_readable` for its length. Linux refuses `FIONREAD` on a tun
descriptor, and what is reported there is the MTU. The MTU bounds the payload.
A tun device delivers nothing else, but a tap device delivers the Ethernet
header in front of it, and a frame whose payload is within 14 bytes of the MTU
loses its end.

The framing is settled by the start, and no later call changes it. That makes
the mode of the start enough to tell the two kinds apart at any later time.
-/

namespace Libtuntap

open Effect CMem

/-- The bytes in front of the payload: the Ethernet header of a tap device, and
the packet information unless it was declined. -/
def Iface.header (f : Iface) : Nat :=
  (if f.framing &&& iffTap = iffTap then 14 else 0) +
    (if f.framing &&& iffNoPi = iffNoPi then 0 else 4)

/-- A packet the interface may queue. -/
def Iface.Admits (f : Iface) (packet : List UInt8) : Prop :=
  (packet.length : Int) ≤ f.header + f.mtu.toInt

theorem Iface.header_of_mode {f : Iface} {mode : Mode} (h : f.framing = mode.framing) :
    f.header = if mode.clearPersist = tuntapModeEthernet then 14 else 0 := by
  unfold Iface.header
  rw [h]
  unfold Mode.framing
  by_cases hmode : mode.clearPersist = tuntapModeEthernet
  · rw [if_pos hmode, if_pos hmode, if_pos (by decide), if_pos (by decide)]
  · rw [if_neg hmode, if_neg hmode, if_neg (by decide), if_pos (by decide)]

/-- Nothing is dropped when it all fits. -/
theorem whole_iff {packet : List UInt8} {size : Nat} :
    ((packet.take size).length = packet.length ∧ packet.take size = packet) ↔
      packet.length ≤ size := by
  constructor
  · intro h
    have hlen := h.1
    rw [List.length_take] at hlen
    omega
  · intro h
    rw [List.take_of_length_le h]
    exact ⟨rfl, rfl⟩

/-! ## The two calls -/

section Calls

variable {R : Rules} {libc : Libc} {rely : Rely} {k : Kern} {dev : Device} {s s' : Session}
  {i : Nat} {f : Iface} {tr : List (Event Call Resp)} {ret : Ret}

theorem tuntapGetMtu_wp (h : Linked dev k i f) (hdev : dev.tunFd ≠ -1) :
    (tuntapGetMtu .linux dev).Wp (kernel R)
      (fun n k' => k' = k ∧ (n = -1 ∨ n = f.mtu.toInt)) k := by
  unfold tuntapGetMtu
  rw [if_neg hdev]
  refine (Prog.wp_call_bind _ _).mpr fun r k' hs => ?_
  rcases hs with ⟨hr, hk⟩ | ⟨hr, hk, -, j, g, hg, hout⟩
  · rw [if_pos hr]
    intro _ k'' hlog
    obtain rfl : k'' = k' := hlog
    exact ⟨hk, Or.inl rfl⟩
  · rw [if_neg (by omega)]
    obtain ⟨-, rfl⟩ := (h.reaches.found (names_ifreqNamed .linux)).unique hg
    refine ⟨hk, Or.inr ?_⟩
    rw [hout, ifrInt_setIfrInt _ _ (by decide)]

/-- `FIONREAD` is refused, and the answer is the MTU. -/
theorem tuntapGetReadable_wp (hos : R.os = .linux) (h : Linked dev k i f)
    (hdev : dev.tunFd ≠ -1) :
    (tuntapGetReadable .linux dev).Wp (kernel R)
      (fun n k' => k' = k ∧ (n = -1 ∨ n = f.mtu.toInt)) k := by
  refine (Prog.wp_call_bind _ _).mpr fun r k' hs => ?_
  rcases hs with ⟨hr, rfl⟩ | ⟨-, hne, -⟩
  · rw [if_pos hr]
    intro _ k'' hlog
    obtain rfl : k'' = k' := hlog
    exact tuntapGetMtu_wp h hdev
  · exact absurd hos hne

theorem Session.Step.getReadable (hos : R.os = .linux)
    (hs : Session.Step R libc rely s (.call .getReadable tr ret) s')
    (h : Linked s.dev s.kern i f) (hdev : s.dev.tunFd ≠ -1) :
    s' = s ∧ ∃ n, ret = .int n ∧ (n = -1 ∨ n = f.mtu.toInt) := by
  have hwp : (Op.getReadable.prog R.os libc s.dev).Wp (kernel R)
      (fun r k' => k' = s.kern ∧ ∃ n, r = keep s.dev (.int n) ∧ (n = -1 ∨ n = f.mtu.toInt))
      s.kern := by
    rw [hos]
    exact (tuntapGetReadable_wp hos h hdev).bind fun n k' hn => ⟨hn.1, n, rfl, hn.2⟩
  obtain ⟨hkern, n, hkeep, hn⟩ := hs.of_wp hwp
  obtain ⟨rfl, hdev'⟩ := Prod.mk.inj hkeep
  refine ⟨?_, n, rfl, hn⟩
  cases s
  cases s'
  dsimp only at hkern hdev'
  rw [hkern, Option.some.inj hdev']

/-- The first packet of the queue, cut to the size of the buffer. A buffer of no
bytes gets nothing of it, and leaves it in the queue. -/
def ReadCut (f : Iface) (size : Nat) (r : Int × List UInt8) : Prop :=
  r.1 = -1 ∨ ∀ packet rest, f.queue = packet :: rest →
    r.1 = (packet.take size).length ∧ r.2 = packet.take size

theorem tuntapRead_wp (h : k.Attached dev.tunFd i f) (hdev : dev.tunFd ≠ -1) (size : Nat) :
    (tuntapRead dev size).Wp (kernel R) (fun r _ => ReadCut f size r) k := by
  unfold tuntapRead
  rw [if_neg hdev]
  refine (Prog.wp_call_bind _ _).mpr fun r k' hs => ?_
  refine (Prog.wp_ite _ _ _).mpr ⟨fun _ => ?_, fun hr => ?_⟩
  · exact (Prog.wp_ite _ _ _).mpr ⟨fun _ _ _ _ => Or.inl rfl, fun _ => Or.inl rfl⟩
  · refine Or.inr fun packet rest hqueue => ?_
    rcases hs with ⟨hno, -⟩ | ⟨rfl, hret, hdata, -⟩ | ⟨-, j, g, packet', rest', hg, hqueue',
      hdata, hret, -⟩
    · exact absurd hno hr
    · exact ⟨hret, hdata⟩
    · obtain ⟨-, rfl⟩ := h.unique hg
      obtain ⟨rfl, -⟩ := List.cons.inj (hqueue.symm.trans hqueue')
      exact ⟨hret, hdata⟩

theorem Session.Step.read {size : Nat}
    (hs : Session.Step R libc rely s (.call (.read size) tr ret) s')
    (h : s.kern.Attached s.dev.tunFd i f) (hdev : s.dev.tunFd ≠ -1) :
    ∃ m data, ret = .bytes m data ∧ ReadCut f size (m, data) := by
  have hwp : ((Op.read size).prog R.os libc s.dev).Wp (kernel R)
      (fun r _ => ∃ m data, r = keep s.dev (.bytes m data) ∧ ReadCut f size (m, data)) s.kern :=
    (tuntapRead_wp h hdev size).bind fun r _ hr => ⟨r.1, r.2, rfl, hr⟩
  obtain ⟨m, data, hkeep, hcut⟩ := hs.of_wp hwp
  exact ⟨m, data, (Prod.mk.inj hkeep).1, hcut⟩

end Calls

/-! ## Sessions -/

/-- The device is linked to an interface with the framing of the mode. -/
def StartedAs (mode : Mode) (s : Session) : Prop :=
  s.dev.tunFd ≠ -1 ∧ ∃ i f, Linked s.dev s.kern i f ∧ f.framing = mode.framing

theorem Op.framing_not_mem_writes (op : Op) : .framing ∉ op.writes := by
  cases op <;> simp [Op.writes]

section Session

variable {R : Rules} {libc : Libc} {s s' : Session} {mode : Mode}

theorem Session.Step.startedAs (hos : R.os = .linux) {a : Act}
    (hs : Session.Step R libc (OthersKeep [.name, .framing]) s a s') (h : StartedAs mode s) :
    StartedAs mode s' := by
  obtain ⟨hdev, i, f, hlink, hframing⟩ := h
  cases a with
  | others =>
      cases hs with
      | others hrely =>
          obtain ⟨f', hlink', hsame⟩ := hlink.others hrely (by decide)
          have hkept : f'.framing = f.framing := hsame .framing (by decide)
          exact ⟨hdev, i, f', hlink', hkept.trans hframing⟩
  | call op tr ret =>
      obtain ⟨f', hlink', hframe⟩ := hs.linked hos hdev hlink
      have hkept : f'.framing = f.framing := hframe .framing op.framing_not_mem_writes
      refine ⟨?_, i, f', hlink', hkept.trans hframing⟩
      rw [(hs.frame_of_started hdev).1.tunFd]
      exact hdev

end Session

/-- A device is started and used in any way, and anything else happens but a
rename of the interface. Then the size is asked for and a packet is read into
that many bytes: the packet arrives whole exactly when the device was not
started as an Ethernet one, or the whole frame is no longer than the MTU. -/
theorem readable_enough_iff (R : Rules) (libc : Libc) (rely : Rely) (s₀ s s₁ s₂ s₃ : Session)
    (mode : Mode) (tun : Int) (tr₀ tr₁ tr₂ : List (Event Call Resp))
    (tr : List (Session × Act × Session)) (n m : Int) (data packet : List UInt8)
    (rest : List (List UInt8)) (i : Nat) (f : Iface)
    (hos : R.os = .linux) (hdev : s₀.dev.tunFd = -1)
    (hstart : Session.Step R libc rely s₀ (.call (.start mode tun) tr₀ (.int 0)) s)
    (hr : Run (Session.Step R libc (OthersKeep [.name, .framing])) s tr s₁)
    (hf : s₁.kern.Attached s₁.dev.tunFd i f) (hqueue : f.queue = packet :: rest)
    (hadmits : f.Admits packet)
    (hreadable : Session.Step R libc rely s₁ (.call .getReadable tr₁ (.int n)) s₂)
    (hn : 0 ≤ n)
    (hread : Session.Step R libc rely s₂ (.call (.read n.toNat) tr₂ (.bytes m data)) s₃)
    (hm : m ≠ -1) :
    (m = packet.length ∧ data = packet) ↔
      (mode.clearPersist ≠ tuntapModeEthernet ∨ (packet.length : Int) ≤ f.mtu.toInt) := by
  obtain ⟨n₀, hn₀, hstarted⟩ := hstart.start hos hdev (A := fun _ => True) fun _ _ => trivial
  obtain rfl := Ret.int.inj hn₀
  rcases hstarted with ⟨h, -⟩ | ⟨-, htun, i₀, f₀, hlink₀, hfresh⟩
  · exact absurd (show (0 : Int) = -1 from h) (by decide)
  obtain ⟨hdev₁, i₁, f₁, hlink, hframing⟩ := (hr.invariant (I := StartedAs mode)
    ⟨htun, i₀, f₀, hlink₀, hfresh.framing⟩ fun x _ hs => hs.startedAs hos).1
  obtain ⟨rfl, rfl⟩ := hlink.unique hf
  obtain ⟨rfl, n₁, hn₁, hmtu⟩ := hreadable.getReadable hos hlink hdev₁
  obtain rfl := Ret.int.inj hn₁
  obtain ⟨m₁, data₁, hret, hcut⟩ := hread.read hf hdev₁
  cases hret
  have hsize : n = f₁.mtu.toInt := hmtu.resolve_left (by omega)
  obtain ⟨rfl, rfl⟩ := hcut.resolve_left hm packet rest hqueue
  rw [Int.ofNat_inj, whole_iff]
  unfold Iface.Admits at hadmits
  rw [Iface.header_of_mode hframing] at hadmits
  by_cases hmode : mode.clearPersist = tuntapModeEthernet
  · rw [or_iff_right (not_not.mpr hmode), ← hsize]
    omega
  · rw [if_neg hmode] at hadmits
    exact iff_of_true (by omega) (Or.inl hmode)

/-! ## A frame on `tap0` -/

/-- `tap0` with one frame waiting. -/
def Iface.tap0With (packet : List UInt8) : Iface := { Iface.tap0 with queue := [packet] }

def Kern.tap0With (packet : List UInt8) : Kern :=
  Kern.attached (Iface.tap0With packet) Iface.tap0_short

/-- The size is asked for. -/
def readableTap0 : List (Event Call Resp) :=
  [⟨.ioctlGet 4 .fionread (Buf.store32 0), ⟨-1, Buf.store32 0⟩⟩,
    ⟨.log .info (CString.lit "Your system does not support FIONREAD, fallback to MTU"), ()⟩,
    ⟨.ioctlGet 3 .siocgifmtu reqMtu, ⟨0, setIfrInt reqMtu 1500⟩⟩]

theorem Iface.tap0With_admits {packet : List UInt8} (h : packet.length ≤ 1514) :
    (Iface.tap0With packet).Admits packet := by
  have hmost : (Iface.tap0.header : Int) + Iface.tap0.mtu.toInt = 1514 := by decide
  show (packet.length : Int) ≤ Iface.tap0.header + Iface.tap0.mtu.toInt
  omega

section Tap0

variable {libc : Libc} {rely : Rely}

/-- Others queue a frame. -/
theorem tap0With_run (packet : List UInt8) :
    Run (Session.Step (Rules.plain .linux) libc (OthersKeep [.name, .framing]))
      ⟨Device.tap0, Kern.attached Iface.tap0 (by decide)⟩
      [(⟨Device.tap0, Kern.attached Iface.tap0 (by decide)⟩, .others,
        ⟨Device.tap0, Kern.tap0With packet⟩)]
      ⟨Device.tap0, Kern.tap0With packet⟩ := by
  refine .cons (.others ⟨rfl, rfl, fun i f hf => ?_⟩) (.nil _)
  have hi : some (Desc.tun (some 0)) = some (.tun (some i)) := hf.1
  cases hi
  have hiface : some Iface.tap0 = some f := hf.2
  cases hiface
  refine ⟨Iface.tap0With packet, rfl, fun field hfield => ?_⟩
  simp only [List.mem_cons, List.not_mem_nil, or_false] at hfield
  rcases hfield with rfl | rfl <;> rfl

theorem readableTap0_step (packet : List UInt8) :
    Session.Step (Rules.plain .linux) libc rely ⟨Device.tap0, Kern.tap0With packet⟩
      (.call .getReadable readableTap0 (.int 1500)) ⟨Device.tap0, Kern.tap0With packet⟩ := by
  have hmtu : (ifrInt (setIfrInt reqMtu 1500)).toInt = 1500 := by
    rw [ifrInt_setIfrInt _ _ (by decide)]
    decide
  refine .call ⟨⟨-1, Buf.store32 0⟩, _, rfl, (), _, rfl, ⟨0, setIfrInt reqMtu 1500⟩, [], rfl,
    rfl, ?_⟩ ⟨_, Or.inl ⟨rfl, rfl⟩, _, rfl, _, Or.inr ⟨rfl, rfl, ⟨.inet, rfl⟩, 0,
      Iface.tap0With packet, ⟨rfl, ?_⟩, rfl⟩, rfl⟩
  · show _ = keep Device.tap0 (.int (ifrInt (setIfrInt reqMtu 1500)).toInt)
    rw [hmtu]
    rfl
  · exact Device.tap0_names (names_ifreqNamed .linux)

theorem readTap0_step (packet : List UInt8) :
    ∃ tr s', Session.Step (Rules.plain .linux) libc rely ⟨Device.tap0, Kern.tap0With packet⟩
      (.call (.read 1500) tr (.bytes (packet.take 1500).length (packet.take 1500))) s' := by
  have hlen : ((packet.take 1500).length : Int) ≠ -1 := by omega
  refine ⟨[⟨.read 4 1500, ⟨(packet.take 1500).length, .other, packet.take 1500⟩⟩],
    ⟨Device.tap0, Kern.attached Iface.tap0 (by decide)⟩,
    .call ?_ ⟨Kern.attached Iface.tap0 (by decide), Or.inr (Or.inr ⟨by decide, 0,
      Iface.tap0With packet, packet, [], ⟨rfl, rfl⟩, rfl, rfl, rfl, rfl,
      (Function.update_idem ..).symm⟩), rfl⟩⟩
  refine (Prog.runs_bind _ _ _ _).mpr ⟨((packet.take 1500).length, packet.take 1500), _, [],
    (List.append_nil _).symm, ?_, rfl, rfl⟩
  refine (Prog.runs_call_bind _ _ _ _).mpr
    ⟨⟨(packet.take 1500).length, .other, packet.take 1500⟩, _, rfl, ?_⟩
  exact (Prog.runs_ite _ _ _ _ _).mpr (Or.inr ⟨hlen, rfl, rfl⟩)

end Tap0

/-- A frame of 64 bytes arrives whole. -/
theorem read_64_whole : ∃ tr s', Session.Step (Rules.plain .linux) Libc.refusing
    (OthersKeep []) ⟨Device.tap0, Kern.tap0With (List.replicate 64 0)⟩
    (.call (.read 1500) tr (.bytes 64 (List.replicate 64 0))) s' := by
  obtain ⟨tr, s', hread⟩ := readTap0_step (List.replicate 64 0)
  have hwhole := (readable_enough_iff _ Libc.refusing (OthersKeep []) _ _ _ _ _ _ _ _ _ _ _ 1500
    _ _ (List.replicate 64 0) [] 0 (Iface.tap0With (List.replicate 64 0)) rfl rfl
    (startTap0_step _ _) (tap0With_run _) ⟨rfl, rfl⟩ rfl (Iface.tap0With_admits (by decide))
    (readableTap0_step _) (by decide) hread (by omega)).mpr (Or.inr (by decide))
  obtain ⟨hlen, hdata⟩ := hwhole
  rw [hlen, hdata] at hread
  exact ⟨tr, s', hread⟩

/-- A frame with a full payload loses its last 14 bytes. -/
theorem read_1514_cut :
    ¬ ∀ (R : Rules) (libc : Libc) (rely : Rely) (s₀ s s₁ s₂ s₃ : Session) (mode : Mode)
      (tun : Int) (tr₀ tr₁ tr₂ : List (Event Call Resp)) (tr : List (Session × Act × Session))
      (n m : Int) (data packet : List UInt8) (rest : List (List UInt8)) (i : Nat) (f : Iface),
      R.os = .linux → s₀.dev.tunFd = -1 →
        Session.Step R libc rely s₀ (.call (.start mode tun) tr₀ (.int 0)) s →
          Run (Session.Step R libc (OthersKeep [.name, .framing])) s tr s₁ →
            s₁.kern.Attached s₁.dev.tunFd i f → f.queue = packet :: rest → f.Admits packet →
              Session.Step R libc rely s₁ (.call .getReadable tr₁ (.int n)) s₂ → 0 ≤ n →
                Session.Step R libc rely s₂ (.call (.read n.toNat) tr₂ (.bytes m data)) s₃ →
                  m ≠ -1 → m = packet.length ∧ data = packet := by
  intro hclaim
  obtain ⟨tr, s', hread⟩ := readTap0_step (List.replicate 1514 0)
  have hadmits := Iface.tap0With_admits (Nat.le_of_eq (List.length_replicate (a := (0 : UInt8))))
  have hwhole := (hclaim _ Libc.refusing (OthersKeep []) _ _ _ _ _ _ _ _ _ _ _ 1500 _ _ _ _ _ _
    rfl rfl (startTap0_step _ _) (tap0With_run (List.replicate 1514 0)) ⟨rfl, rfl⟩ rfl hadmits
    (readableTap0_step _) (by decide) hread (by omega)).1
  rw [List.length_take, List.length_replicate] at hwhole
  exact absurd hwhole (by decide)

end Libtuntap
