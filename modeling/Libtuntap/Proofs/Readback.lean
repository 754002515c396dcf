import Libtuntap.Proofs.Refinement

/-!
# What the getters answer and what the reads deliver

Two things an application counts on, over any sequence of calls on a started
device. A getter answers what the last setter that succeeded was given. And the
reads that succeed deliver the packets in the order in which they came in, each
once and none left out, cut to the buffers they were read into.

Both are facts about tunnels. The refinement makes them facts about the library.
-/

namespace Libtuntap

open Effect CMem

/-! ## The last value set -/

/-- The MTU a call has set. -/
def TunnelAct.mtuSet : TunnelAct → Option (BitVec 32)
  | .call (.setMtu mtu) (.int n) => if n = 0 then some mtu else none
  | _ => none

/-- The name a call has set. -/
def TunnelAct.nameSet : TunnelAct → Option CString
  | .call (.setIfname (some name)) (.int n) => if n = 0 then some name else none
  | _ => none

/-- The size of the buffer and the bytes a call has delivered. Into no bytes
nothing is delivered. -/
def TunnelAct.delivered : TunnelAct → Option (Nat × List UInt8)
  | .call (.read size) (.bytes n data) | .call (.readTm size _) (.bytes n data) =>
      if n = -1 ∨ size = 0 then none else some (size, data)
  | _ => none

/-- The packets that have come in. -/
def TunnelAct.arrived : TunnelAct → List (List UInt8)
  | .others packets => packets
  | _ => []

/-- A call sets the MTU and the name it is there to set, and takes from the queue
the packet it delivers. -/
structure Tunnel.Changes (t : Tunnel) (m : TunnelAct) (t' : Tunnel) : Prop where
  mtu : t'.iface.mtu = m.mtuSet.getD t.iface.mtu
  name : t'.name = m.nameSet.getD t.name
  queue : match m.delivered with
    | none => t'.iface.queue = t.iface.queue
    | some (size, data) => ∃ packet, t.iface.queue = packet :: t'.iface.queue ∧
        data = packet.take size

section Changes

variable {R : Rules} {libc : Libc} {kept : List Field} {t t' : Tunnel} {op : Op} {ret : Ret}
  {m : TunnelAct}

theorem Tunnel.Reads.changes {size : Nat} (h : t.Reads size ret t')
    (hread : op = .read size ∨ ∃ timeoutMs, op = .readTm size timeoutMs) :
    t.Changes (.call op ret) t' := by
  rcases h with ⟨⟨data, rfl⟩, rfl⟩ | ⟨rfl, rfl, rfl⟩ | ⟨hsize, packet, rest, hqueue, rfl, rfl⟩
  · rcases hread with rfl | ⟨_, rfl⟩
    · exact ⟨rfl, rfl, rfl⟩
    · exact ⟨rfl, rfl, rfl⟩
  · rcases hread with rfl | ⟨_, rfl⟩
    · exact ⟨rfl, rfl, rfl⟩
    · exact ⟨rfl, rfl, rfl⟩
  · have hne : ¬ (((packet.take size).length : Int) = -1 ∨ size = 0) := by omega
    have hdelivered : (TunnelAct.call op (.bytes (packet.take size).length
        (packet.take size))).delivered = some (size, packet.take size) := by
      rcases hread with rfl | ⟨_, rfl⟩
      · exact if_neg (t := none) hne
      · exact if_neg (t := none) hne
    refine ⟨?_, ?_, ?_⟩
    · rcases hread with rfl | ⟨_, rfl⟩ <;> rfl
    · rcases hread with rfl | ⟨_, rfl⟩ <;> rfl
    · rw [hdelivered]
      exact ⟨packet, hqueue, rfl⟩

theorem Tunnel.Does.changes (h : t.Does R libc op ret t') : t.Changes (.call op ret) t' := by
  cases op with
  | release | destroy => exact h.elim
  | read size => exact h.changes (Or.inl rfl)
  | readTm size timeoutMs => exact h.changes (Or.inr ⟨timeoutMs, rfl⟩)
  | start | setDescr | getDescr | getIfname | getHwaddr | getMtu | getReadable | write | writeTm
  | getFd =>
      obtain ⟨-, rfl⟩ := h
      exact ⟨rfl, rfl, rfl⟩
  | setMtu =>
      rcases h with ⟨rfl, rfl⟩ | ⟨rfl, rfl⟩
      · exact ⟨rfl, rfl, rfl⟩
      · exact ⟨rfl, rfl, rfl⟩
  | up | down | setNonblocking | setDebug =>
      rcases h with ⟨-, rfl⟩ | ⟨-, rfl⟩
      · exact ⟨rfl, rfl, rfl⟩
      · exact ⟨rfl, rfl, rfl⟩
  | setIfname ifname =>
      rcases h with ⟨rfl, rfl⟩ | ⟨name, rfl, -, rfl, rfl⟩
      · cases ifname with
        | none => exact ⟨rfl, rfl, rfl⟩
        | some name => exact ⟨rfl, rfl, rfl⟩
      · exact ⟨rfl, rfl, rfl⟩
  | setHwaddr =>
      rcases h with ⟨-, rfl⟩ | ⟨_, -, ⟨-, rfl⟩ | ⟨-, rfl⟩⟩
      · exact ⟨rfl, rfl, rfl⟩
      · exact ⟨rfl, rfl, rfl⟩
      · exact ⟨rfl, rfl, rfl⟩
  | setIp =>
      rcases h with ⟨-, rfl⟩ | ⟨_, -, -, -, ⟨_, -, hset⟩ | ⟨_, -, -, _, -, hset⟩⟩
      · exact ⟨rfl, rfl, rfl⟩
      · rcases hset with ⟨-, rfl⟩ | ⟨-, _, -, rfl⟩
        · exact ⟨rfl, rfl, rfl⟩
        · exact ⟨rfl, rfl, rfl⟩
      · rcases hset with ⟨-, rfl⟩ | ⟨-, rfl⟩
        · exact ⟨rfl, rfl, rfl⟩
        · exact ⟨rfl, rfl, rfl⟩

theorem Tunnel.Step.mtu (hkept : .mtu ∈ kept) (hs : Tunnel.Step R libc kept t m t') :
    t'.iface.mtu = m.mtuSet.getD t.iface.mtu := by
  cases hs with
  | call hdoes => exact hdoes.changes.mtu
  | others _ hsame => exact hsame .mtu hkept

theorem Tunnel.Step.name (hs : Tunnel.Step R libc kept t m t') :
    t'.name = m.nameSet.getD t.name := by
  cases hs with
  | call hdoes => exact hdoes.changes.name
  | others => rfl

end Changes

/-! ## The getters -/

section Getters

variable {R : Rules} {libc : Libc} {kept : List Field} {t t' : Tunnel}

/-- What a getter answers after the steps `pre`. -/
def AnswersLast (t : Tunnel) (pre : List TunnelAct) (op : Op) (ret : Ret) : Prop :=
  match op with
  | .getMtu | .getReadable =>
      ret = .int (-1) ∨ ret = .int (Run.last TunnelAct.mtuSet t.iface.mtu pre).toInt
  | .getIfname => ret = .str (Run.last TunnelAct.nameSet t.name pre)
  | _ => True

theorem Tunnel.answersLast (hkept : .mtu ∈ kept) {tr : List (Tunnel × TunnelAct × Tunnel)}
    (hr : Run (Tunnel.Step R libc kept) t tr t') {pre post : List TunnelAct} {op : Op} {ret : Ret}
    (h : labels tr = pre ++ .call op ret :: post) : AnswersLast t pre op ret := by
  obtain ⟨tr₁, a, b, _, hr₁, hab, -, rfl, -⟩ := hr.split h
  have hmtu : a.iface.mtu = Run.last TunnelAct.mtuSet t.iface.mtu (labels tr₁) :=
    hr₁.register fun _ _ _ hs => hs.mtu hkept
  have hname : a.name = Run.last TunnelAct.nameSet t.name (labels tr₁) :=
    hr₁.register fun _ _ _ hs => hs.name
  cases hab with
  | call hdoes =>
      cases op with
      | getMtu | getReadable =>
          obtain ⟨hret, -⟩ := hdoes
          rw [hmtu] at hret
          exact hret
      | getIfname =>
          obtain ⟨hret, -⟩ := hdoes
          rw [hname] at hret
          exact hret
      | _ => trivial

/-- On a started device `tuntap_get_mtu` and `tuntap_get_readable` answer the last
MTU that `tuntap_set_mtu` has set or -1, and `tuntap_get_ifname` answers the last
name that `tuntap_set_ifname` has set, after any calls of the library. -/
theorem getters_answer_last_set (hos : R.os = .linux) (hname : .name ∈ kept) (hmtu : .mtu ∈ kept)
    {s s' : Session} {tr : List (Session × Act × Session)} (hs : Abstracts s t)
    (hr : Run (Session.Step R libc (Feeding kept)) s tr s') {pre post : List TunnelAct} {op : Op}
    {ret : Ret} (h : tr.map observed = pre ++ .call op ret :: post) :
    AnswersLast t pre op ret := by
  obtain ⟨tr', t', hr', hlabels, -⟩ := (session_simulates hos hname).run hr hs
  exact Tunnel.answersLast hmtu hr' (hlabels.trans h)

end Getters

/-- The MTU set on `tap0` is the one that is answered. -/
theorem tap0_answers_last : ∃ tr s', Run (Session.Step (Rules.plain .linux) Libc.refusing
      (Feeding [.name, .mtu])) ⟨Device.tap0, Kern.attached Iface.tap0 (by decide)⟩ tr s' ∧
    tr.map observed = [.others [List.replicate 64 7], .call (.setMtu 1400) (.int 0)] ++
      .call .getMtu (.int 1400) :: [.call (.read 32) (.bytes 32 (List.replicate 32 7))] ∧
    AnswersLast (Device.tap0.tunnel Iface.tap0)
      [.others [List.replicate 64 7], .call (.setMtu 1400) (.int 0)] .getMtu (.int 1400) := by
  obtain ⟨tr, s', hr, hobs⟩ := tap0_run
  exact ⟨tr, s', hr, hobs, getters_answer_last_set rfl (by decide) (by decide)
    ⟨0, Iface.tap0, Device.tap0_tunnels rfl, rfl⟩ hr hobs⟩

/-! ## The packets -/

/-- A delivery is a packet, cut to the buffer. -/
def Delivers (read : Nat × List UInt8) (packet : List UInt8) : Prop :=
  read.2 = packet.take read.1

section Packets

variable {R : Rules} {libc : Libc} {kept : List Field} {t t' : Tunnel}

/-- The deliveries are the packets that waited and came in, in this order, and
those that were not delivered are left. -/
def InOrder (waiting : List (List UInt8)) (ms : List TunnelAct) (left : List (List UInt8)) :
    Prop :=
  ∃ taken, waiting ++ ms.flatMap TunnelAct.arrived = taken ++ left ∧
    List.Forall₂ Delivers (ms.filterMap TunnelAct.delivered) taken

theorem Tunnel.inOrder {tr : List (Tunnel × TunnelAct × Tunnel)}
    (hr : Run (Tunnel.Step R libc kept) t tr t') :
    InOrder t.iface.queue (labels tr) t'.iface.queue := by
  induction hr with
  | nil t => exact ⟨[], List.append_nil _, .nil⟩
  | @cons t s t' m tr hs _ ih =>
      obtain ⟨taken, hall, hdelivers⟩ := ih
      cases hs with
      | others hqueue =>
          refine ⟨taken, ?_, hdelivers⟩
          rw [Run.labels_cons, List.flatMap_cons, ← List.append_assoc]
          rw [hqueue] at hall
          exact hall
      | call hdoes =>
          have hchange := hdoes.changes.queue
          rw [Run.labels_cons, InOrder, List.flatMap_cons, List.filterMap_cons]
          split at hchange
          · next hnone =>
              rw [hchange] at hall
              exact ⟨taken, hall, by rw [hnone]; exact hdelivers⟩
          · next size data hsome =>
              obtain ⟨packet, hqueue, hdata⟩ := hchange
              refine ⟨packet :: taken, ?_, by rw [hsome]; exact .cons hdata hdelivers⟩
              rw [hqueue]
              exact congrArg (packet :: ·) hall

/-- The reads that succeed on a started device deliver the packets in the order
in which they came in, none left out and none twice. A read of size 0 succeeds
and delivers none. -/
theorem reads_deliver_in_order (hos : R.os = .linux) (hname : .name ∈ kept) {s s' : Session}
    {tr : List (Session × Act × Session)} (hs : Abstracts s t)
    (hr : Run (Session.Step R libc (Feeding kept)) s tr s') :
    InOrder s.waiting (tr.map observed) s'.waiting := by
  obtain ⟨tr', t', hr', hlabels, hs'⟩ := (session_simulates hos hname).run hr hs
  rw [hs.waiting, hs'.waiting, ← hlabels]
  exact Tunnel.inOrder hr'

end Packets

/-- The frame that came in on `tap0` is delivered, cut to 32 bytes. -/
theorem tap0_delivers_in_order : ∃ tr s', Run (Session.Step (Rules.plain .linux) Libc.refusing
      (Feeding [.name, .mtu])) ⟨Device.tap0, Kern.attached Iface.tap0 (by decide)⟩ tr s' ∧
    InOrder [] [.others [List.replicate 64 7], .call (.setMtu 1400) (.int 0),
      .call .getMtu (.int 1400), .call (.read 32) (.bytes 32 (List.replicate 32 7))]
      s'.waiting := by
  obtain ⟨tr, s', hr, hobs⟩ := tap0_run
  have horder := reads_deliver_in_order rfl (by decide)
    ⟨0, Iface.tap0, Device.tap0_tunnels rfl, rfl⟩ hr
  rw [hobs] at horder
  exact ⟨tr, s', hr, horder⟩

end Libtuntap
