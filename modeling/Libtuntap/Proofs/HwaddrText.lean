import Libtuntap.Effect.Trace
import Libtuntap.CMem.Mac
import Libtuntap.Unix.Core
import Libtuntap.Windows.Tuntap

/-!
# The text of the link-layer address

`tuntap_get_hwaddr` is declared once, as a function that returns a `char *`, and
written twice. On Unix the pointer leads to the text `ether_ntoa` makes. On
Windows it leads to the six bytes the driver has filled in: the text goes into a
log message and no further. The bytes may hold no terminator, in which case
there is no string to speak of, and where they hold one the string is far too
short for an address in text.
-/

namespace Libtuntap

open Effect CMem

/-- The implementations behind the declaration. -/
inductive Platform where
  | unix
  | windows
deriving DecidableEq

/-- The string an object starts with. Without a terminator it is none. -/
def stringIn (object : List UInt8) : Option CString :=
  if (0 : UInt8) ∈ object then some (.ofBytes object) else none

/-- The driver answers with an address. -/
def Windows.AnswersMac (addr : Buf 6) : Event Windows.Call Windows.Resp → Prop
  | ⟨.deviceIoControl _ code _, r⟩ =>
      code = Windows.tapIoctlGetMac → r.ok = true → ∀ i < 6, r.buf.byte i = addr.byte i
  | _ => True

/-- A call that succeeds on a device with an address, and the object its result
points to. -/
inductive GetsHwaddr (libc : Libc) (addr : Buf 6) : Platform → List UInt8 → Prop where
  | unix {dev : Device} : dev.hwaddr = addr →
      GetsHwaddr libc addr .unix ((tuntapGetHwaddr libc dev).bytes ++ [0])
  | windows {hwaddr hwaddr' : Buf 6} {dev : Device} {tr : List (Event Windows.Call Windows.Resp)} :
      (Windows.tuntapGetHwaddr hwaddr dev).Runs tr (.returned (some hwaddr')) →
        (∀ e ∈ tr, Windows.AnswersMac addr e) →
          GetsHwaddr libc addr .windows (List.ofFn hwaddr')

/-- The object holds a string that is the text of the address. -/
def HoldsText (libc : Libc) (addr : Buf 6) (object : List UInt8) : Prop :=
  ∃ text, stringIn object = some text ∧ libc.etherAton text = some addr

section Strings

variable {object : List UInt8} {text : CString}

theorem stringIn_terminated (s : CString) : stringIn (s.bytes ++ [0]) = some s := by
  have hall : ∀ b ∈ s.bytes, (b != 0) = true := by
    intro b hb
    simpa using fun h0 : b = 0 => s.noNul (h0 ▸ hb)
  unfold stringIn
  rw [if_pos (by simp)]
  congr 1
  refine CString.ext ?_
  show (s.bytes ++ [0]).takeWhile (· != 0) = s.bytes
  rw [List.takeWhile_append_of_pos hall]
  simp

theorem strlen_of_stringIn (h : stringIn object = some text) : text.strlen ≤ object.length := by
  unfold stringIn at h
  split at h
  · rw [← Option.some.inj h]
    exact (List.takeWhile_sublist _).length_le
  · cases h

end Strings

namespace Windows

variable {hwaddr : Buf 6} {dev : Device}

theorem macMessage_fits (addr : Buf 6) :
    snprintf 128 (CString.lit "MAC address: " ++ CString.mac addr) =
      some (CString.lit "MAC address: " ++ CString.mac addr) := by
  refine if_pos ?_
  rw [CString.strlen_append, strlen_mac]
  decide

/-- The call returns: a null pointer, or the array with what the driver put into
it. -/
theorem tuntapGetHwaddr_ensures : (tuntapGetHwaddr hwaddr dev).Ensures fun tr out =>
    out = .returned none ∨ ∃ r : IoControlRet 6,
      (⟨.deviceIoControl dev.tunFd tapIoctlGetMac hwaddr, r⟩ : Event Call Resp) ∈ tr ∧
        r.ok = true ∧ out = .returned (some r.buf) := by
  refine (Prog.ensures_call_bind _ _).mpr fun r => ?_
  refine (Prog.ensures_ite _ _ _).mpr ⟨fun _ _ _ => Or.inl rfl, fun hok => ?_⟩
  rw [macMessage_fits]
  exact fun _ => Or.inr ⟨r, List.mem_cons_self .., Bool.eq_true_of_not_eq_false hok, rfl⟩

end Windows

section Text

variable {libc : Libc} {addr : Buf 6} {platform : Platform} {object : List UInt8}

/-- No address in text is as short as the array. -/
theorem not_holdsText_short (hshort : ∀ s a, libc.etherAton s = some a → 11 ≤ s.strlen)
    (hlen : object.length ≤ 6) : ¬ HoldsText libc addr object := by
  rintro ⟨text, hstring, hread⟩
  have hle := strlen_of_stringIn hstring
  have hge := hshort text addr hread
  omega

/-- On Windows the object is the address itself. -/
theorem GetsHwaddr.windows_raw (h : GetsHwaddr libc addr .windows object) :
    object = List.ofFn addr := by
  cases h with
  | windows hr hmac =>
      rcases (Prog.ensures_iff _).mp Windows.tuntapGetHwaddr_ensures _ _ hr with
        hno | ⟨r, hmem, hok, hout⟩
      · cases hno
      · obtain rfl := Option.some.inj (Windows.Outcome.returned.inj hout)
        exact congrArg List.ofFn (Buf.ext_byte (hmac _ hmem rfl hok))

/-- A call that succeeds returns the address as text on Unix, and never on
Windows. -/
theorem hwaddr_text_iff (hundoes : ∀ a, libc.etherAton (libc.etherNtoa a) = some a)
    (hshort : ∀ s a, libc.etherAton s = some a → 11 ≤ s.strlen)
    (h : GetsHwaddr libc addr platform object) :
    HoldsText libc addr object ↔ platform = .unix := by
  cases platform with
  | unix =>
      refine iff_of_true ?_ rfl
      cases h with
      | unix hdev =>
          refine ⟨_, stringIn_terminated _, ?_⟩
          rw [← hdev]
          exact hundoes _
  | windows =>
      refine iff_of_false (not_holdsText_short hshort ?_) (by simp)
      rw [h.windows_raw, List.length_ofFn]

end Text

/-! ## One address on both -/

/-- A C library that prints and reads addresses. -/
def Libc.ether : Libc := { Libc.refusing with etherAton := readMac, etherNtoa := CString.mac }

theorem ether_undoes (a : Buf 6) : Libc.ether.etherAton (Libc.ether.etherNtoa a) = some a := by
  simp only [Libc.ether, readMac_mac]

theorem ether_short (s : CString) (a : Buf 6) (h : Libc.ether.etherAton s = some a) :
    11 ≤ s.strlen :=
  strlen_of_readMac h

/-- 54:1a:13:ef:b6:b5. -/
def testHwaddr : Buf 6 := fun i => [0x54, 0x1a, 0x13, 0xef, 0xb6, 0xb5].getD i 0

/-- The driver answers with an address, and the call with the array. -/
theorem windows_gets (libc : Libc) (addr : Buf 6) :
    GetsHwaddr libc addr .windows (List.ofFn addr) := by
  have hr : (Windows.tuntapGetHwaddr Buf.zero Device.init).Runs
      [⟨.deviceIoControl (-1) Windows.tapIoctlGetMac (Buf.zero : Buf 6), ⟨true, addr⟩⟩,
        ⟨.log .debug (CString.lit "MAC address: " ++ CString.mac addr), ()⟩]
      (.returned (some addr)) := by
    refine (Prog.runs_call_bind _ _ _ _).mpr ⟨⟨true, addr⟩, _, rfl, ?_⟩
    dsimp only
    rw [if_neg (by decide), Windows.macMessage_fits]
    exact ⟨(), [], rfl, rfl, rfl⟩
  exact .windows hr (by simp [Windows.AnswersMac])

/-- The address set in the test comes back as text on Unix. -/
theorem hwaddr_text_unix : HoldsText Libc.ether testHwaddr
    ((tuntapGetHwaddr Libc.ether { Device.init with hwaddr := testHwaddr }).bytes ++ [0]) :=
  (hwaddr_text_iff ether_undoes ether_short (.unix rfl)).mpr rfl

/-- On Windows it comes back as six bytes that are no text. -/
theorem hwaddr_no_text : ¬ ∀ (libc : Libc) (addr : Buf 6) (platform : Platform)
    (object : List UInt8), (∀ a, libc.etherAton (libc.etherNtoa a) = some a) →
      (∀ s a, libc.etherAton s = some a → 11 ≤ s.strlen) →
        GetsHwaddr libc addr platform object → HoldsText libc addr object := by
  intro hclaim
  obtain ⟨text, hstring, -⟩ := hclaim Libc.ether testHwaddr .windows _ ether_undoes ether_short
    (windows_gets _ _)
  have hnone : stringIn (List.ofFn testHwaddr) = none := by decide
  rw [hnone] at hstring
  cases hstring

end Libtuntap
