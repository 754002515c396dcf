import Libtuntap.Effect.Hook
import Libtuntap.Unix.Call

/-!
# Where the messages go

The rest of `tuntap_log.c`. Every message of the library is a call through
`tuntap_log`, a global pointer that is `NULL` when the process starts.
`tuntap_log_set_cb` sets it to what the host wants, or to `tuntap_log_default`
for `NULL`, and `tuntap_init` sets it to `tuntap_log_default` if it finds it
`NULL`. The pointer is set between the allocation and the return, with no call
in between, so here it is set with the allocation.
-/

namespace Libtuntap

open Effect CMem

/-- A message, with its level. -/
abbrev Message := Level × CString

/-- The functions `tuntap_log` may point to, besides those of the host. -/
inductive LogFn (γ : Type) where
  | tuntapLogDefault
  | cb (f : γ)
deriving DecidableEq

/-- `tuntap_log_set_cb`: what `tuntap_log` is set to. -/
def tuntapLogSetCb {γ : Type} : Option γ → LogFn γ
  | none => .tuntapLogDefault
  | some f => .cb f

/-- `name` of `tuntap_log_default`. -/
def Level.name : Level → Option String
  | .debug => some "Debug"
  | .info => some "Info"
  | .notice => some "Notice"
  | .warn => some "Warning"
  | .err => some "Error"
  | .none => Option.none

/-- `tuntap_log_default`: the bytes written to `stderr`. -/
def tuntapLogDefault (level : Level) (errmsg : CString) : CString :=
  match level.name with
  | none => errmsg ++ CString.lit "\n"
  | some name => CString.lit name ++ CString.lit ": " ++ errmsg ++ CString.lit "\n"

/-- The message of a call through `tuntap_log`. -/
def Call.message : Call → Option Message
  | .log level msg => some (level, msg)
  | _ => none

/-- The messages of the library as what goes through a hook. -/
def tuntapLogHook (γ : Type) : HookSig Call Resp Message (Option γ) (LogFn γ) where
  message := Call.message
  fills
    | .malloc, found => found
    | _, _ => false
  own := .tuntapLogDefault
  choose := tuntapLogSetCb

/-- What the library writes to `stderr` in a run: what `tuntap_log_default` is
called with. A host's own function writes what it likes. -/
def stderrOf {γ : Type} (heard : List (Option (LogFn γ) × Message)) : List UInt8 :=
  heard.flatMap fun x =>
    match x.1 with
    | some .tuntapLogDefault => (tuntapLogDefault x.2.1 x.2.2).bytes
    | _ => []

end Libtuntap
