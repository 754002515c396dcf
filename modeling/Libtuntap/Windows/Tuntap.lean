import Libtuntap.CMem.Mac
import Libtuntap.Windows.Call

/-!
# The Windows library

`tuntap-windows.c`: the search of the registry for TAP adapters, the start that
opens one of them, the query of the address, and the overlapped transfers.
`struct device` is the one of `private.h`, with a `HANDLE` for `tun_fd`.

The list `reg_query` answers is a block of pointers that ends with a null
pointer. It is kept as it lies in memory, sentinel included, because the two
loops of `tuntap_start` walk it up to there.
-/

namespace Libtuntap.Windows

open Effect CMem

/-- `TUNFD_INVALID_VALUE`, which is `INVALID_HANDLE_VALUE`. -/
def tunfdInvalidValue : Int := -1

def maxKeyLength : Nat := 255

def networkAdapters : CString :=
  CString.lit ("SYSTEM\\CurrentControlSet\\Control\\Class\\\x7b4D36E972-E325-11CE-BFC1-" ++
    "08002BE10318\x7d")

/-! ## `reg_query` -/

/-- A string `strdup` has made. -/
structure Candidate where
  ptr : Ptr
  text : CString
deriving DecidableEq

/-- The list of candidates: the block it is in, and its content. -/
structure Deviceids where
  block : Ptr
  entries : List (Option Candidate)
deriving DecidableEq

/-- The string in the place of the sentinel, the block grown by one, and a new
sentinel behind it. -/
def appendId (deviceids : Deviceids) (data : CString) : Win (Outcome Deviceids) := do
  let devicecnt := deviceids.entries.length
  let p ← strdup data
  let entry := if p = 0 then none else some ⟨p, data⟩
  let block ← realloc deviceids.block ((devicecnt + 1) * 8)
  if block = 0 then
    return .crashed
  return .returned ⟨block, deviceids.entries.set (devicecnt - 1) entry ++ [none]⟩

/-- The adapter is one to list: its `NetCfgInstanceId` is appended. -/
def appendNetCfg (adapter : Int) (deviceids : Deviceids) : Win (Outcome Deviceids) := do
  match ← regQueryValueEx adapter "NetCfgInstanceId" 256 with
  | .error ret =>
      logError .info ret
      return .returned deviceids
  | .ok data => appendId deviceids data

/-- The adapter is a tap adapter: its instance number is compared. -/
def checkInstance (adapter id : Int) (deviceids : Deviceids) : Win (Outcome Deviceids) := do
  match ← regQueryValueEx adapter "DeviceInstanceId" 256 with
  | .error ret =>
      logError .info ret
      return .returned deviceids
  | .ok data =>
      match sscanfInt data (CString.lit "ROOT\\NET\\") with
      | none => return .returned deviceids
      | some idx =>
          if tuntapIdAny = id ∨ idx = id then
            appendNetCfg adapter deviceids
          else
            return .returned deviceids

/-- Check the values of an adapter's key, up to the label `clean`. -/
def checkValues (adapter id : Int) (deviceids : Deviceids) : Win (Outcome Deviceids) := do
  match ← regQueryValueEx adapter "ComponentId" 256 with
  | .error _ => return .returned deviceids
  | .ok data =>
      if startsWith data (CString.lit "tap") ∨ startsWith data (CString.lit "root\\tap") then
        checkInstance adapter id deviceids
      else
        return .returned deviceids

/-- One turn of the walk through the adapters. -/
def visitAdapter (keyName : CString) (adapters id : Int) (i : Nat) (deviceids : Deviceids) :
    Win (Outcome Deviceids) := do
  match ← regEnumKeyEx adapters i maxKeyLength with
  | .error _ => return .returned deviceids
  | .ok key =>
      match snprintf maxKeyLength (keyName ++ CString.lit "\\" ++ key) with
      | none => return .crashed
      | some newKey =>
          match ← regOpenKeyEx newKey with
          | .error _ => return .returned deviceids
          | .ok adapter =>
              match ← checkValues adapter id deviceids with
              | .crashed => return .crashed
              | .returned deviceids =>
                  let _ ← regCloseKey adapter
                  return .returned deviceids

/-- The walk from subkey `i` on, `n` subkeys before the last. -/
def walkAdapters (keyName : CString) (adapters id : Int) :
    Nat → Nat → Deviceids → Win (Outcome Deviceids)
  | 0, _, deviceids => return .returned deviceids
  | n + 1, i, deviceids => do
      match ← visitAdapter keyName adapters id i deviceids with
      | .crashed => return .crashed
      | .returned deviceids => walkAdapters keyName adapters id n (i + 1) deviceids

/-- The candidates, or a null pointer. -/
def regQuery (keyName : CString) (id : Int) : Win (Outcome (Option Deviceids)) := do
  let block ← malloc 8
  if block = 0 then
    return .crashed
  match ← regOpenKeyEx keyName with
  | .error ret =>
      logError .err ret
      return .returned none
  | .ok adapters =>
      match ← regQueryInfoKey adapters with
      | .error ret =>
          logError .err ret
          return .returned none
      | .ok subKeys =>
          if subKeys ≤ 0 then
            tuntapLog .debug "Wrong registry key"
            return .returned none
          match ← walkAdapters keyName adapters id subKeys 0 ⟨block, [none]⟩ with
          | .crashed => return .crashed
          | .returned deviceids =>
              let _ ← regCloseKey adapters
              return .returned (some deviceids)

/-! ## `tuntap_start` -/

/-- The path an adapter is opened at. -/
def devicePath (deviceid : CString) : CString :=
  CString.lit "\\\\.\\Global\\" ++ deviceid ++ CString.lit ".tap"

/-- Loop through the adapters and open the first available, from a pointer into
the list on. Without a sentinel the loop leaves the block. -/
def openFirst : List (Option Candidate) → Win (Outcome Int)
  | [] => return .crashed
  | none :: _ => return .returned tunfdInvalidValue
  | some deviceid :: rest => do
      match snprintf 60 (devicePath deviceid.text) with
      | none => return .crashed
      | some buf =>
          let tunFd ← createFile buf
          if tunFd ≠ tunfdInvalidValue then
            return .returned tunFd
          openFirst rest

/-- Clean up the list of candidates. -/
def freeAll : List (Option Candidate) → Win (Outcome Unit)
  | [] => return .crashed
  | none :: _ => return .returned ()
  | some deviceid :: rest => do
      free deviceid.ptr
      freeAll rest

/-- The two loops over the list and what follows them. -/
def openCandidate (dev : Device) (deviceids : Deviceids) : Win (Outcome (Int × Device)) := do
  match ← openFirst deviceids.entries with
  | .crashed => return .crashed
  | .returned tunFd =>
      match ← freeAll deviceids.entries with
      | .crashed => return .crashed
      | .returned () =>
          free deviceids.block
          if tunFd = tunfdInvalidValue then
            let errcode ← getLastError
            if errcode = 0 then
              tuntapLog .err "Nonexisting device requested"
            else
              logError .err errcode
            return .returned (-1, dev)
          return .returned (0, { dev with tunFd := tunFd })

def tuntapStart (dev : Device) (mode : Mode) (tun : Int) : Win (Outcome (Int × Device)) := do
  if dev.tunFd ≠ tunfdInvalidValue then
    return .returned (-1, dev)
  let mode := if mode.isPersist then mode.clearPersist else mode
  if mode = tuntapModeTunnel then
    tuntapLog .notice "Layer 3 tunneling is not implemented"
    return .returned (-1, dev)
  if mode ≠ tuntapModeEthernet then
    tuntapLog .err "Invalid parameter 'mode'"
    return .returned (-1, dev)
  match ← regQuery networkAdapters tun with
  | .crashed => return .crashed
  -- the first loop reads the list without a look at the pointer
  | .returned none => return .crashed
  | .returned (some deviceids) => openCandidate dev deviceids

/-! ## `tuntap_get_hwaddr` -/

/-- `TAP_CONTROL_CODE` of a request, with `METHOD_BUFFERED`. -/
def tapControlCode (request : BitVec 32) : BitVec 32 := 0x220000 ||| request <<< 2

def tapIoctlGetMac : BitVec 32 := tapControlCode 1

/-- `hwaddr` is what the static array holds before the call. What the pointer
returned leads to is the array again. -/
def tuntapGetHwaddr (hwaddr : Buf 6) (dev : Device) : Win (Outcome (Option (Buf 6))) := do
  let r ← deviceIoControl dev.tunFd tapIoctlGetMac hwaddr
  if r.ok = false then
    let errcode ← getLastError
    logError .err errcode
    return .returned none
  match snprintf 128 (CString.lit "MAC address: " ++ CString.mac r.buf) with
  | none => return .crashed
  | some buf =>
      Prog.call (Call.log .debug buf)
      return .returned (some r.buf)

/-! ## Overlapped transfers -/

/-- `ERROR_IO_INCOMPLETE`, `WAIT_TIMEOUT` and `ERROR_IO_PENDING`. -/
def errorIoIncomplete : Nat := 996
def waitTimeout : Nat := 258
def errorIoPending : Nat := 997

/-- `INFINITE`. -/
def infinite : BitVec 32 := 0xffffffff

/-- A transfer of `tuntap_read` or `tuntap_write`, once it is started. -/
def finishTransfer (fd : Int) (started : IoRet) : Win Int := do
  let errcode ← getLastError
  if started.ok = false ∧ errcode ≠ errorIoPending then
    logError .err errcode
    return -1
  let r ← getOverlappedResult fd
  if r.ok = false then
    logError .err errcode
    return -1
  return r.len.toInt

def tuntapRead (dev : Device) (size : Nat) : Win Int := do
  let started ← readFile dev.tunFd (BitVec.ofNat 32 size)
  finishTransfer dev.tunFd started

def tuntapWrite (dev : Device) (buf : List UInt8) : Win Int := do
  let started ← writeFile dev.tunFd buf (BitVec.ofNat 32 buf.length)
  finishTransfer dev.tunFd started

/-- The wait was no success. -/
def giveUp (fd : Int) : Win Int := do
  let errcode ← getLastError
  if errcode = errorIoIncomplete ∨ errcode = waitTimeout then
    let _ ← cancelIo fd
  else
    logError .err errcode
  return -1

/-- An operation is pending, so wait until it completes or the timeout triggers.
A negative timeout is none. -/
def waitCompletionOrTimeout (fd : Int) (timeoutMs : Int) : Win Int := do
  let timeout := if timeoutMs < 0 then infinite else BitVec.ofInt 32 timeoutMs
  let r ← getOverlappedResultEx fd timeout
  if r.ok = false then
    giveUp fd
  else
    return r.len.toInt

/-- A transfer of `tuntap_read_tm` or `tuntap_write_tm`, once it is started. -/
def finishTransferTm (fd : Int) (started : IoRet) (timeoutMs : Int) : Win Int := do
  if started.ok then
    return started.len.toInt
  let errcode ← getLastError
  if errcode ≠ errorIoPending then
    logError .err errcode
    return -1
  waitCompletionOrTimeout fd timeoutMs

def tuntapReadTm (dev : Device) (size : Nat) (timeoutMs : Int) : Win Int := do
  let started ← readFile dev.tunFd (BitVec.ofNat 32 size)
  finishTransferTm dev.tunFd started timeoutMs

def tuntapWriteTm (dev : Device) (buf : List UInt8) (timeoutMs : Int) : Win Int := do
  let started ← writeFile dev.tunFd buf (BitVec.ofNat 32 buf.length)
  finishTransferTm dev.tunFd started timeoutMs

end Libtuntap.Windows
