import Libtuntap.CMem.Format
import Libtuntap.Effect.Trace
import Libtuntap.Unix.Call

/-!
# The dumps of `tuntap_log.c`

`tuntap_log_hexdump` goes through a block byte by byte and collects a line in
buffers of fixed size: the label in `addrstr`, the two columns in `hexstr` and
`charstr`. A byte of either column passes through `bytestr`, and a line that is
full goes out through `buf`. The buffers are kept with every write to them,
because whether one is long enough is not to be seen in what it holds.

`tuntap_log_chksum` adds up a block in an `int`, word by word, as a host with
the low byte first and a signed `char` reads it. An addition that overflows is
undefined. It wraps here, and a flag says that it has happened.
-/

namespace Libtuntap

open Effect CMem

/-- A message of `TUNTAP_LOG_NONE`. -/
def logged (msg : CString) : Event Call Resp := ⟨.log .none msg, ()⟩

theorem logged_injective : Function.Injective logged := by
  intro msg msg' h
  injection h with hcall
  injection hcall

/-- `isalnum` in the C locale. -/
def isalnum (b : UInt8) : Bool :=
  48 ≤ b && b ≤ 57 || 65 ≤ b && b ≤ 90 || 97 ≤ b && b ≤ 122

/-! ## `tuntap_log_hexdump` -/

/-- The buffers of the function. -/
inductive LineBuf where
  | addrstr
  | bytestr
  | hexstr
  | charstr
  | buf
deriving DecidableEq

/-- What the buffers hold, and the writes to them. -/
structure Line where
  addrstr : CString
  bytestr : CString
  hexstr : CString
  charstr : CString
  buf : CString
  writes : List (Write LineBuf)

namespace Line

/-- The buffers as they are declared. -/
def init : Line := ⟨.empty, .empty, .empty, .empty, .empty, []⟩

def wrote (line : Line) (dest : LineBuf) (room : Nat) (text : CString) : Line :=
  { line with writes := ⟨dest, room, text⟩ :: line.writes }

/-- `snprintf(addrstr, 10, ..)`. -/
def printAddrstr (line : Line) (text : CString) : Line :=
  { line.wrote .addrstr 9 text with addrstr := text.snprintf 10 }

/-- `snprintf(bytestr, 4, ..)`. -/
def printBytestr (line : Line) (text : CString) : Line :=
  { line.wrote .bytestr 3 text with bytestr := text.snprintf 4 }

/-- `snprintf(buf, 1024, ..)`. -/
def printBuf (line : Line) (text : CString) : Line :=
  { line.wrote .buf 1023 text with buf := text.snprintf 1024 }

/-- `strncat(hexstr, .., sizeof(hexstr) - strlen(hexstr) - 1)`. -/
def catHexstr (line : Line) (text : CString) : Line :=
  let n := 53 - line.hexstr.strlen - 1
  { line.wrote .hexstr n text with hexstr := line.hexstr.strncat text n }

/-- `strncat(charstr, .., sizeof(charstr) - strlen(charstr) - 1)`. -/
def catCharstr (line : Line) (text : CString) : Line :=
  let n := 21 - line.charstr.strlen - 1
  { line.wrote .charstr n text with charstr := line.charstr.strncat text n }

/-- `"[%4.4s]   %-50.50s  %s"` of the three strings. -/
def text (line : Line) : CString :=
  CString.lit "[" ++ (line.addrstr.take 4).padLeft 4 ++ CString.lit "]   " ++
    (line.hexstr.take 50).padRight 50 ++ CString.lit "  " ++ line.charstr

end Line

/-- The columns of a byte. -/
def storeByte (line : Line) (b : UInt8) : Line :=
  let c := if isalnum b then b else 46
  -- hex str, for the left side
  let line := line.printBytestr (CString.hexUpper 2 b.toNat ++ CString.lit " ")
  let line := line.catHexstr line.bytestr
  -- char str, for the right side
  let line := line.printBytestr (CString.char c)
  line.catCharstr line.bytestr

/-- `snprintf` of the line into `buf`, and the log call. -/
def logLine (line : Line) : Sys Line := do
  let line := line.printBuf line.text
  Prog.call (Call.log .none line.buf)
  return line

/-- One turn of the loop, for byte number `n`, counted from 1. -/
def hexdumpByte (n : Nat) (b : UInt8) (line : Line) : Sys Line := do
  let line := if n % 16 = 1 then line.printAddrstr (CString.hex 4 (n - 1)) else line
  let line := storeByte line b
  if n % 16 = 0 then
    let line ← logLine line
    return { line with hexstr := .empty, charstr := .empty }
  else if n % 8 = 0 then
    return (line.catHexstr (CString.lit "  ")).catCharstr (CString.lit " ")
  else
    return line

/-- The loop from byte number `n` on. -/
def hexdumpLoop : Nat → List UInt8 → Line → Sys Line
  | _, [], line => return line
  | n, b :: rest, line => do
      let line ← hexdumpByte n b line
      hexdumpLoop (n + 1) rest line

/-- The function answers nothing. What is answered here is what it leaves in its
buffers. -/
def tuntapLogHexdump (data : List UInt8) : Sys Line := do
  let line ← hexdumpLoop 1 data .init
  if line.hexstr.strlen > 0 then
    logLine line
  else
    return line

/-! ## `tuntap_log_chksum` -/

/-- The accumulator, and whether an addition has left the range of an `int`. -/
structure Sum where
  value : BitVec 32
  overflowed : Bool
deriving DecidableEq

def Sum.add (sum : Sum) (x : BitVec 32) : Sum :=
  ⟨sum.value + x, sum.overflowed || BitVec.saddOverflow sum.value x⟩

/-- `*sptr`, the low byte first. -/
def loadShort (lo hi : UInt8) : BitVec 32 := (hi.toBitVec ++ lo.toBitVec).signExtend 32

/-- The loop over the words, and the byte that is left when the count is odd. -/
def sumBlock : Sum → List UInt8 → Sum
  | sum, lo :: hi :: rest => sumBlock (sum.add (loadShort lo hi)) rest
  | sum, [b] => sum.add (b.toBitVec.signExtend 32)
  | sum, [] => sum

/-- The value logged. -/
def chksum (block : List UInt8) : BitVec 32 := ~~~(sumBlock ⟨0, false⟩ block).value

/-- `%0#4x`. -/
def hexAlternate (n : Nat) : CString :=
  if n = 0 then CString.hex 4 0 else CString.lit "0x" ++ CString.hex 2 n

def tuntapLogChksum (addr : List UInt8) : Sys Unit :=
  Prog.call (Call.log .none
    ((CString.lit "Checksum of this block: " ++ hexAlternate (chksum addr).toNat).snprintf 32))

end Libtuntap
