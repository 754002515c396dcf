import Libtuntap.Effect.History
import Libtuntap.Proofs.Controls
import Libtuntap.Proofs.Ownership

/-!
# Every packet once, in both directions

A read of the library is one `read` of the kernel, a write is one `write`, and
what the caller is told is what the kernel answered. So over any run, on any
system and whatever other devices do in between, the packets a caller got from a
device are the packets the kernel handed out on it, and the packets a caller was
told were sent are the packets the kernel took: the same bytes in the same
order, none left out, none twice.

For the four functions this is a look at what they do. For the other eighteen it
is that they do no such thing, and for a timed transfer that the wait in front
of it moves nothing either.
-/

namespace Libtuntap

open Effect CMem

/-- A packet that crossed a descriptor, with what was asked for and the count. -/
inductive Transfer where
  | received (fd : Int) (size : Nat) (n : Int) (data : List UInt8)
  | sent (fd : Int) (buf : List UInt8) (n : Int)

/-- The packet of a system call. -/
def seen : Event Call Resp → List Transfer
  | ⟨.read fd size, r⟩ => if 0 < r.ret then [.received fd size r.ret r.data] else []
  | ⟨.write fd buf, n⟩ => if 0 < (n : Int) then [.sent fd buf n] else []
  | _ => []

/-- The packet of a read that answered `n` and the bytes in the buffer. -/
def receivedOn (dev : Device) (size : Nat) (n : Int) (data : List UInt8) : List Transfer :=
  if 0 < n then [.received dev.tunFd size n data] else []

/-- The packet of a write that answered `n`. -/
def sentOn (dev : Device) (buf : List UInt8) (n : Int) : List Transfer :=
  if 0 < n then [.sent dev.tunFd buf n] else []

/-- The packet a caller is told of, on the descriptor in the record. -/
def told : Op × Device × Ret → List Transfer
  | (.read size, dev, .bytes n data) | (.readTm size _, dev, .bytes n data) =>
      receivedOn dev size n data
  | (.write buf, dev, .int n) | (.writeTm buf _, dev, .int n) => sentOn dev buf n
  | _ => []

section Operations

variable {os : Os} {libc : Libc} {dev : Device}

theorem seen_of_controls {e : Event Call Resp} (h : Controls e.1) : seen e = [] := by
  obtain ⟨c, r⟩ := e
  cases c with
  | read | write => exact absurd trivial h.2
  | _ => rfl

/-- A program that only controls moves no packet. -/
theorem moves_nothing {α : Type} {p : Sys α} (hp : p.AllCalls Controls) :
    p.Ensures fun tr _ => tr.flatMap seen = [] := by
  refine (Prog.ensures_iff p).mpr fun tr a hr => ?_
  rw [List.flatMap_eq_nil_iff]
  exact fun e he => seen_of_controls (hp.of_runs hr e he)

theorem readPacket_moves (size : Nat) : (readPacket dev size).Ensures fun tr r =>
    receivedOn dev size r.1 r.2 = tr.flatMap seen := by
  refine (Prog.ensures_call_bind _ _).mpr fun r => ?_
  refine (Prog.ensures_ite _ _ _).mpr ⟨fun hr => ?_, fun _ => ?_⟩
  · have hneg : ¬ 0 < r.ret := by omega
    have hnone : seen ⟨.read dev.tunFd size, r⟩ = [] := if_neg hneg
    refine (Prog.ensures_ite _ _ _).mpr ⟨fun _ u => ?_, fun _ => ?_⟩
    · show [] = seen ⟨.read dev.tunFd size, r⟩ ++ []
      rw [hnone, List.append_nil]
    · show [] = seen ⟨.read dev.tunFd size, r⟩ ++ []
      rw [hnone, List.append_nil]
  · exact (List.append_nil _).symm

theorem writePacket_moves (buf : List UInt8) : (writePacket dev buf).Ensures fun tr n =>
    sentOn dev buf n = tr.flatMap seen := by
  refine (Prog.ensures_call_bind _ _).mpr fun (n : Int) => ?_
  refine (Prog.ensures_ite _ _ _).mpr ⟨fun hn u => ?_, fun _ => ?_⟩
  · have hneg : ¬ 0 < n := by omega
    have hnone : seen ⟨.write dev.tunFd buf, n⟩ = [] := if_neg hneg
    show [] = seen ⟨.write dev.tunFd buf, n⟩ ++ []
    rw [hnone, List.append_nil]
  · exact (List.append_nil _).symm

/-- What follows the wait is judged alone. -/
theorem after_wait {α : Type} {fd timeoutMs : Int} {reading : Bool} {f : Bool → Sys α}
    {Q : α → List Transfer}
    (hf : ∀ ready, (f ready).Ensures fun tr a => Q a = tr.flatMap seen) :
    (waitReadyEventOrTimeout fd reading timeoutMs >>= f).Ensures fun tr a =>
      Q a = tr.flatMap seen := by
  refine (moves_nothing (wait_controls fd reading timeoutMs)).bind fun tr ready htr => ?_
  refine (hf ready).mono fun tr' a h => ?_
  rw [List.flatMap_append, htr, h]
  rfl

theorem tuntapRead_moves (size : Nat) : (tuntapRead dev size).Ensures fun tr r =>
    receivedOn dev size r.1 r.2 = tr.flatMap seen :=
  (Prog.ensures_ite _ _ _).mpr ⟨fun _ _ => rfl, fun _ => readPacket_moves size⟩

theorem tuntapReadTm_moves (size : Nat) (timeoutMs : Int) :
    (tuntapReadTm dev size timeoutMs).Ensures fun tr r =>
      receivedOn dev size r.1 r.2 = tr.flatMap seen := by
  refine (Prog.ensures_ite _ _ _).mpr ⟨fun _ _ => rfl, fun _ => ?_⟩
  refine after_wait (Q := fun r : Int × List UInt8 => receivedOn dev size r.1 r.2) fun ready => ?_
  exact (Prog.ensures_ite _ _ _).mpr ⟨fun _ => rfl, fun _ => readPacket_moves size⟩

theorem tuntapWrite_moves (buf : List UInt8) : (tuntapWrite dev buf).Ensures fun tr n =>
    sentOn dev buf n = tr.flatMap seen :=
  (Prog.ensures_ite _ _ _).mpr ⟨fun _ _ => rfl, fun _ => writePacket_moves buf⟩

theorem tuntapWriteTm_moves (buf : List UInt8) (timeoutMs : Int) :
    (tuntapWriteTm dev buf timeoutMs).Ensures fun tr n =>
      sentOn dev buf n = tr.flatMap seen := by
  refine (Prog.ensures_ite _ _ _).mpr ⟨fun _ _ => rfl, fun _ => ?_⟩
  refine after_wait (Q := fun n => sentOn dev buf n) fun ready => ?_
  exact (Prog.ensures_ite _ _ _).mpr ⟨fun _ => rfl, fun _ => writePacket_moves buf⟩

/-- An answer handed on is judged with the same trace. -/
theorem handed_on {α β : Type} {p : Sys α} {Q : α → List Transfer} {S : β → List Transfer}
    {g : α → β} (hp : p.Ensures fun tr a => Q a = tr.flatMap seen) (hg : ∀ a, S (g a) = Q a) :
    (p >>= fun a => .ret (g a)).Ensures fun tr b => S b = tr.flatMap seen := by
  refine hp.bind fun tr a h => ?_
  rw [Prog.ensures_ret, List.append_nil, hg a, h]

theorem told_of_not_transfers {op : Op} (h : ¬ op.Transfers) (dev : Device) (ret : Ret) :
    told (op, dev, ret) = [] := by
  cases op with
  | read | readTm | write | writeTm => exact absurd trivial h
  | _ => rfl

/-- An operation tells its caller of the packets it moved. -/
theorem Op.tells (op : Op) :
    (op.prog os libc dev).Ensures fun tr r => told (op, dev, r.1) = tr.flatMap seen := by
  by_cases hop : op.Transfers
  · cases op with
    | read size => exact handed_on (tuntapRead_moves size) fun _ => rfl
    | readTm size timeoutMs => exact handed_on (tuntapReadTm_moves size timeoutMs) fun _ => rfl
    | write buf => exact handed_on (tuntapWrite_moves buf) fun _ => rfl
    | writeTm buf timeoutMs => exact handed_on (tuntapWriteTm_moves buf timeoutMs) fun _ => rfl
    | _ => exact hop.elim
  · refine (moves_nothing (op.controls hop)).mono fun tr r htr => ?_
    rw [told_of_not_transfers hop, htr]

end Operations

/-! ## Runs -/

/-- The library with what its callers were told. -/
def tellingClient (os : Os) (libc : Libc) :
    Client Call Resp (Device × List (Op × Device × Ret)) Op :=
  Client.recording tuntapInit fun op dev => op.prog os libc dev

/-- In every run of any number of devices on a Unix system, with the host and the
kernel free to do what they like: between two operations, the packets a device's
callers have been told of are the packets the kernel moved for it. -/
theorem transfers_told {ι : Type} [DecidableEq ι] (os : Os) (libc : Libc)
    {w w' : World ι Call Resp Int (Device × List (Op × Device × Ret))}
    {tr : List (World ι Call Resp Int (Device × List (Op × Device × Ret)) ×
      Label ι Call Resp Int Op × World ι Call Resp Int (Device × List (Op × Device × Ret)))}
    (hr : Run (World.Step descriptors (tellingClient os libc)) w tr w')
    (h0 : ∀ i, w.slot i = .fresh) {i : ι} {dev : Device} {history : List (Op × Device × Ret)}
    (hi : w'.slot i = .idle (dev, history)) :
    history.flatMap told = (World.eventsOf i tr).flatMap seen := by
  have hboot : tuntapInit.Ensures fun tr _ => tr.flatMap seen = [] :=
    moves_nothing (by simp [tuntapInit])
  exact World.told_run hboot (fun op dev => op.tells) hr h0 hi

/-- A Linux tun device reads a packet, writes one, and is refused another read. -/
theorem exists_run_with_packets : ∃ tr w' dev history,
    Run (World.Step (ι := Unit) descriptors (tellingClient .linux Libc.refusing))
      ⟨fun _ => none, fun _ => .fresh⟩ tr w' ∧
    w'.slot () = .idle (dev, history) ∧ history.length = 4 ∧
    (World.eventsOf () tr).flatMap seen =
      [.received 4 1500 3 [69, 0, 0], .sent 4 [69, 0, 1, 2] 4] := by
  refine ⟨_, _, _, _,
    .cons (.create (i := ()) rfl) <|
    .cons (.event (i := ()) (c := .malloc) (r := true) rfl nofun) <|
    .cons (.finish (i := ()) rfl) <|
    .cons (.begin (i := ()) (o := .start tuntapModeTunnel 257) rfl) <|
    .cons (.event (i := ()) (c := .socket .inet) (r := (3 : Int)) rfl fun _ _ => rfl) <|
    .cons (.event (i := ()) (c := .open _) (r := (4 : Int)) rfl
      (by intro n hn; cases hn; rfl)) <|
    .cons (.event (i := ()) (c := .ioctlGet (n := 40) 4 .tunsetiff _) (r := ⟨0, Buf.zero⟩)
      rfl nofun) <|
    .cons (.event (i := ()) (c := .ioctlGet (n := 40) 3 .siocgifflags _) (r := ⟨0, Buf.zero⟩)
      rfl nofun) <|
    .cons (.finish (i := ()) rfl) <|
    .cons (.begin (i := ()) (o := .read 1500) rfl) <|
    .cons (.event (i := ()) (c := .read 4 1500) (r := ⟨3, .other, [69, 0, 0]⟩) rfl nofun) <|
    .cons (.finish (i := ()) rfl) <|
    .cons (.begin (i := ()) (o := .write [69, 0, 1, 2]) rfl) <|
    .cons (.event (i := ()) (c := .write 4 [69, 0, 1, 2]) (r := (4 : Int)) rfl nofun) <|
    .cons (.finish (i := ()) rfl) <|
    .cons (.begin (i := ()) (o := .read 1500) rfl) <|
    .cons (.event (i := ()) (c := .read 4 1500) (r := ⟨-1, .eagain, []⟩) rfl nofun) <|
    .cons (.finish (i := ()) rfl) <| .nil _, rfl, rfl, rfl⟩

theorem transfers_told_of_two : ∃ tr w' dev history,
    Run (World.Step (ι := Unit) descriptors (tellingClient .linux Libc.refusing))
      ⟨fun _ => none, fun _ => .fresh⟩ tr w' ∧
    w'.slot () = .idle (dev, history) ∧ history.length = 4 ∧
    history.flatMap told = [.received 4 1500 3 [69, 0, 0], .sent 4 [69, 0, 1, 2] 4] := by
  obtain ⟨tr, w', dev, history, hr, hi, hlen, hseen⟩ := exists_run_with_packets
  refine ⟨tr, w', dev, history, hr, hi, hlen, ?_⟩
  rw [transfers_told .linux Libc.refusing hr (fun _ => rfl) hi, hseen]

end Libtuntap
