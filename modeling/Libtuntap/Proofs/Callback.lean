import Libtuntap.CMem.Lines
import Libtuntap.Proofs.Controls
import Libtuntap.Proofs.OwnershipUnix
import Libtuntap.Proofs.WindowsHandles

/-!
# Every message gets somewhere, and can be read there

A program that uses the library may set the callback or not, and may set it
before the first device, after it, or in the middle of another thread's call.
No message is passed to a null pointer in any of these orders, because the first
`tuntap_init` that finds memory sets `tuntap_log` before there is a device to
call anything on, and because it says nothing until then.

What `tuntap_log_default` writes is a line for each message, the level in front
of the text. It can be read back, for two reasons that have to be looked up in
every function of the API: no text has a newline in it, and none comes without a
level. A message of `TUNTAP_LOG_NONE` would be printed bare, and one that starts
with `Error: ` could not be told from an error. The hexdump and the checksum print
at that level, and no function of the API calls them.
-/

namespace Libtuntap

open Effect CMem

/-! ## What the functions say -/

section Functions

variable {os : Os} {libc : Libc} {dev : Device}

theorem logged_spoken {α : Type} {level : Level} {s : String} {a : α} (h : Sayable level s) :
    (tuntapLog level s >>= fun _ => (.ret a : Sys α)).AllCalls Spoken :=
  (logged_controls h).mono fun _ hc => hc.1

theorem readPacket_spoken (size : Nat) : (readPacket dev size).AllCalls Spoken := by
  refine (Prog.allCalls_call_bind _ _).mpr ⟨nofun, fun r => ?_⟩
  refine (Prog.allCalls_ite _ _ _).mpr ⟨fun _ => ?_, fun _ => trivial⟩
  refine (Prog.allCalls_ite _ _ _).mpr ⟨fun _ => ?_, fun _ => trivial⟩
  exact logged_spoken (sayable (by decide))

theorem writePacket_spoken (buf : List UInt8) : (writePacket dev buf).AllCalls Spoken := by
  refine (Prog.allCalls_call_bind _ _).mpr ⟨nofun, fun n => ?_⟩
  refine (Prog.allCalls_ite _ _ _).mpr ⟨fun _ => ?_, fun _ => trivial⟩
  exact logged_spoken (sayable (by decide))

theorem wait_spoken (fd : Int) (reading : Bool) (timeoutMs : Int) :
    (waitReadyEventOrTimeout fd reading timeoutMs).AllCalls Spoken :=
  (wait_controls fd reading timeoutMs).mono fun _ hc => hc.1

/-- Whatever a function says can be read back. -/
theorem Op.spoken (op : Op) : (op.prog os libc dev).AllCalls Spoken := by
  by_cases hop : op.Transfers
  · cases op with
    | read size =>
        refine Prog.AllCalls.bind ?_ fun _ => trivial
        refine (Prog.allCalls_ite _ _ _).mpr ⟨fun _ => ?_, fun _ => readPacket_spoken size⟩
        exact logged_spoken (sayable (by decide))
    | readTm size timeoutMs =>
        refine Prog.AllCalls.bind ?_ fun _ => trivial
        refine (Prog.allCalls_ite _ _ _).mpr ⟨fun _ => ?_, fun _ => ?_⟩
        · exact logged_spoken (sayable (by decide))
        · refine (wait_spoken ..).bind fun ready => ?_
          exact (Prog.allCalls_ite _ _ _).mpr ⟨fun _ => trivial, fun _ => readPacket_spoken size⟩
    | write buf =>
        refine Prog.AllCalls.bind ?_ fun _ => trivial
        refine (Prog.allCalls_ite _ _ _).mpr ⟨fun _ => ?_, fun _ => writePacket_spoken buf⟩
        exact logged_spoken (sayable (by decide))
    | writeTm buf timeoutMs =>
        refine Prog.AllCalls.bind ?_ fun _ => trivial
        refine (Prog.allCalls_ite _ _ _).mpr ⟨fun _ => ?_, fun _ => ?_⟩
        · exact logged_spoken (sayable (by decide))
        · refine (wait_spoken ..).bind fun ready => ?_
          exact (Prog.allCalls_ite _ _ _).mpr ⟨fun _ => trivial, fun _ => writePacket_spoken buf⟩
    | _ => exact hop.elim
  · exact (op.controls hop).mono fun _ h => h.1

end Functions

/-! ## Reading `stderr` -/

/-- What stands in front of a text. -/
def lead (level : Level) : List UInt8 :=
  match level.name with
  | none => []
  | some name => (CString.lit name ++ CString.lit ": ").bytes

/-- The first level whose name a line begins with, and the rest of the line. -/
def readLine (line : List UInt8) : Option Message :=
  [Level.debug, .info, .notice, .warn, .err].findSome? fun level =>
    if (lead level).isPrefixOf line then
      some (level, CString.ofBytes (line.drop (lead level).length))
    else none

theorem lead_debug : lead .debug = [68, 101, 98, 117, 103, 58, 32] := by decide

theorem lead_info : lead .info = [73, 110, 102, 111, 58, 32] := by decide

theorem lead_notice : lead .notice = [78, 111, 116, 105, 99, 101, 58, 32] := by decide

theorem lead_warn : lead .warn = [87, 97, 114, 110, 105, 110, 103, 58, 32] := by decide

theorem lead_err : lead .err = [69, 114, 114, 111, 114, 58, 32] := by decide

theorem ofBytes_bytes (s : CString) : CString.ofBytes s.bytes = s := by
  refine CString.ext (List.takeWhile_eq_self_iff.mpr fun b hb => ?_)
  simpa using fun h0 : b = 0 => s.noNul (h0 ▸ hb)

theorem readLine_lead {level : Level} (h : level ≠ .none) (msg : CString) :
    readLine (lead level ++ msg.bytes) = some (level, msg) := by
  cases level with
  | none => exact absurd rfl h
  | debug | info | notice | warn | err =>
      simp [readLine, lead_debug, lead_info, lead_notice, lead_warn, lead_err, ofBytes_bytes]

theorem newline_notMem_lead (level : Level) : (10 : UInt8) ∉ lead level := by
  cases level <;> decide

/-- A line of `tuntap_log_default`, without its newline. -/
def stderrLine : LineCodec Message Plain where
  write m := lead m.1 ++ m.2.bytes
  read := readLine
  read_write m h := readLine_lead h.1 m.2
  newline_notMem m h := by
    rw [List.mem_append, not_or]
    exact ⟨newline_notMem_lead m.1, h.2⟩

theorem bytes_tuntapLogDefault {level : Level} (h : level ≠ .none) (errmsg : CString) :
    (tuntapLogDefault level errmsg).bytes = stderrLine.write (level, errmsg) ++ [10] := by
  have hnewline : (CString.lit "\n").bytes = [10] := by decide
  cases level with
  | none => exact absurd rfl h
  | debug | info | notice | warn | err =>
      simp only [tuntapLogDefault, Level.name, CString.bytes_append, hnewline]
      rfl

/-- The messages that went to `tuntap_log_default`. -/
def toDefault {γ : Type} (heard : List (Option (LogFn γ) × Message)) : List Message :=
  heard.filterMap fun x =>
    match x.1 with
    | some .tuntapLogDefault => some x.2
    | _ => none

theorem stderrOf_eq {γ : Type} {heard : List (Option (LogFn γ) × Message)}
    (h : ∀ x ∈ heard, Plain x.2) : stderrOf heard = stderrLine.writeAll (toDefault heard) := by
  induction heard with
  | nil => rfl
  | cons x heard ih =>
      simp only [List.mem_cons, forall_eq_or_imp] at h
      obtain ⟨hook, level, msg⟩ := x
      unfold stderrOf toDefault LineCodec.writeAll at ih ⊢
      rw [List.flatMap_cons, List.filterMap_cons, ih h.2]
      cases hook with
      | none => rfl
      | some f =>
          cases f with
          | cb f => rfl
          | tuntapLogDefault =>
              dsimp only
              rw [List.flatMap_cons, bytes_tuntapLogDefault h.1.1]

theorem plain_toDefault {γ : Type} {heard : List (Option (LogFn γ) × Message)}
    (h : ∀ x ∈ heard, Plain x.2) : ∀ m ∈ toDefault heard, Plain m := by
  intro m hm
  obtain ⟨⟨hook, m'⟩, hx, hxm⟩ := List.mem_filterMap.mp hm
  cases hook with
  | none => cases hxm
  | some f =>
      cases f with
      | cb f => cases hxm
      | tuntapLogDefault =>
          obtain rfl := Option.some.inj hxm
          exact h _ hx

/-! ## Runs -/

section Runs

variable {ι γ : Type} [DecidableEq ι]

/-- A process with its devices and its `tuntap_log`. -/
abbrev Process (ι γ : Type) := Hooked ι Call Resp Int Device (LogFn γ)

/-- What happens in a process. -/
abbrev Happening (ι γ : Type) := HookLabel ι Call Resp Int Op (Option γ)

/-- `tuntap_init` says nothing, and sets `tuntap_log` if there is a device. -/
theorem unixClient_fillsFirst (os : Os) (libc : Libc) :
    (unixClient os libc).boot.FillsFirst (tuntapLogHook γ) := by
  refine ⟨rfl, fun found hfound => ?_⟩
  obtain rfl : found = false := hfound
  rfl

/-- In every run of any number of devices on a Unix system, with the host setting
the callback at any point, every message goes to the function that was set last,
and to `tuntap_log_default` before one was. None goes to `NULL`. -/
theorem messages_reach_chosen (os : Os) (libc : Libc) {h h' : Process ι γ}
    {tr : List (Process ι γ × Happening ι γ × Process ι γ)}
    (hr : Run (Hooked.Step (tuntapLogHook γ) descriptors (unixClient os libc)) h tr h')
    (hhook : h.hook = none) (hfresh : ∀ i, h.world.slot i = .fresh) :
    (tuntapLogHook γ).heard tr =
      (tuntapLogHook γ).chosen .tuntapLogDefault (tr.map fun x => x.2.1) :=
  Hooked.heard_run (unixClient_fillsFirst os libc) hr hhook hfresh

/-- A host with one device that is not started asks for its MTU, sets a function
of its own, and asks again. -/
theorem exists_run_setting_cb : ∃ tr h', Run
    (Hooked.Step (ι := Unit) (tuntapLogHook Unit) descriptors (unixClient .netBsd Libc.refusing))
      ⟨⟨fun _ => none, fun _ => .fresh⟩, none⟩ tr h' ∧
    (tuntapLogHook Unit).chosen .tuntapLogDefault (tr.map fun x => x.2.1) =
      [(some .tuntapLogDefault, .notice, CString.lit "Device is not started"),
        (some (.cb ()), .notice, CString.lit "Device is not started")] := by
  refine ⟨_, _,
    .cons (.within (.create (i := ()) rfl)) <|
    .cons (.within (.event (i := ()) (c := .malloc) (r := true) rfl nofun)) <|
    .cons (.within (.finish (i := ()) rfl)) <|
    .cons (.within (.begin (i := ()) (o := .getMtu) rfl)) <|
    .cons (.within (.event (i := ()) (c := .log _ _) (r := ()) rfl nofun)) <|
    .cons (.within (.finish (i := ()) rfl)) <|
    .cons (.choose (some ())) <|
    .cons (.within (.begin (i := ()) (o := .getMtu) rfl)) <|
    .cons (.within (.event (i := ()) (c := .log _ _) (r := ()) rfl nofun)) <|
    .cons (.within (.finish (i := ()) rfl)) <| .nil _, rfl⟩

/-- There the first message goes to `stderr` and the second to the host. -/
theorem messages_reach_host : ∃ tr h', Run
    (Hooked.Step (ι := Unit) (tuntapLogHook Unit) descriptors (unixClient .netBsd Libc.refusing))
      ⟨⟨fun _ => none, fun _ => .fresh⟩, none⟩ tr h' ∧
    (tuntapLogHook Unit).heard tr =
      [(some .tuntapLogDefault, .notice, CString.lit "Device is not started"),
        (some (.cb ()), .notice, CString.lit "Device is not started")] := by
  obtain ⟨tr, h', hr, hchosen⟩ := exists_run_setting_cb
  refine ⟨tr, h', hr, ?_⟩
  rw [messages_reach_chosen .netBsd Libc.refusing hr rfl fun _ => rfl]
  exact hchosen

/-- What such a run writes to `stderr`, read line by line, are the messages said
while the host had set no function of its own, in order and with their levels. No
operation says anything with a newline in it, or at no level. -/
theorem stderr_reads_back (os : Os) (libc : Libc) {h h' : Process ι γ}
    {tr : List (Process ι γ × Happening ι γ × Process ι γ)}
    (hr : Run (Hooked.Step (tuntapLogHook γ) descriptors (unixClient os libc)) h tr h')
    (hhook : h.hook = none) (hfresh : ∀ i, h.world.slot i = .fresh) :
    stderrLine.readAll (stderrOf ((tuntapLogHook γ).heard tr)) =
        some (toDefault ((tuntapLogHook γ).chosen .tuntapLogDefault (tr.map fun x => x.2.1))) ∧
      ∀ (op : Op) (dev : Device), (op.prog os libc dev).AllCalls Spoken := by
  have hboot : (unixClient os libc).boot.AllCalls Spoken :=
    ⟨nofun, fun found => (Prog.allCalls_ite _ _ _).mpr ⟨fun _ => trivial, fun _ => trivial⟩⟩
  have hop : ∀ op dev, ((unixClient os libc).op op dev).AllCalls Spoken :=
    fun op dev => op.spoken.bind fun _ => trivial
  have hplain : ∀ x ∈ (tuntapLogHook γ).heard tr, Plain x.2 :=
    Hooked.heard_satisfies hboot hop hr hfresh
  refine ⟨?_, fun op _ => op.spoken⟩
  rw [stderrOf_eq hplain, stderrLine.readAll_writeAll (plain_toDefault hplain),
    Hooked.heard_run (unixClient_fillsFirst os libc) hr hhook hfresh]
  rfl

theorem stderr_reads_back_once : ∃ tr h', Run
    (Hooked.Step (ι := Unit) (tuntapLogHook Unit) descriptors (unixClient .netBsd Libc.refusing))
      ⟨⟨fun _ => none, fun _ => .fresh⟩, none⟩ tr h' ∧
    stderrLine.readAll (stderrOf ((tuntapLogHook Unit).heard tr)) =
        some [(.notice, CString.lit "Device is not started")] ∧
      ∀ (op : Op) (dev : Device), (op.prog .netBsd Libc.refusing dev).AllCalls Spoken := by
  obtain ⟨tr, h', hr, hchosen⟩ := exists_run_setting_cb
  obtain ⟨hread, hspoken⟩ := stderr_reads_back .netBsd Libc.refusing hr rfl fun _ => rfl
  refine ⟨tr, h', hr, ?_, hspoken⟩
  rw [hread, hchosen]
  rfl

end Runs

namespace Windows

/-- What the Windows library says: a text, or what Windows has to say about an
error. -/
def tuntapLogHook (γ : Type) :
    HookSig (Call ⊕ MoreCall) (Both Resp MoreResp) (Level × (CString ⊕ Nat)) (Option γ)
      (LogFn γ) where
  message
    | .inl (.log level msg) => some (level, .inl msg)
    | .inl (.logError level code) => some (level, .inr code)
    | _ => none
  fills
    | .inr .mallocDevice, found => found
    | _, _ => false
  own := .tuntapLogDefault
  choose := tuntapLogSetCb

/-- The same for the Windows library: no message goes to `NULL`. -/
theorem messages_reach_chosen_windows {ι γ : Type} [DecidableEq ι] (libc : Libc)
    {h h' : Hooked ι (Call ⊕ MoreCall) (Both Resp MoreResp) Int (Outcome Device) (LogFn γ)}
    {tr : List (_ × HookLabel ι (Call ⊕ MoreCall) (Both Resp MoreResp) Int (Op × Buf 6)
      (Option γ) × _)}
    (hr : Run (Hooked.Step (tuntapLogHook γ) handles (client libc)) h tr h')
    (hhook : h.hook = none) (hfresh : ∀ i, h.world.slot i = .fresh) :
    (tuntapLogHook γ).heard tr =
      (tuntapLogHook γ).chosen .tuntapLogDefault (tr.map fun x => x.2.1) := by
  have hboot : (client libc).boot.FillsFirst (tuntapLogHook γ) := by
    refine ⟨rfl, fun found hfound => ?_⟩
    obtain rfl : found = false := hfound
    rfl
  exact Hooked.heard_run hboot hr hhook hfresh

end Windows

end Libtuntap
