import Libtuntap.Unix.Device

/-!
# What the Windows library asks of its host

The calls of `tuntap-windows.c`, to Win32 and to the C runtime. A call that
hands back an error code, or a value when the code is `ERROR_SUCCESS`, has an
`Except` for its reply. Memory is asked for by name of the function: an address
is a number, and 0 is the null pointer.

A function that follows a null pointer, or that the runtime stops, does not
return. Its result says so, because a caller has no way to go on either.
-/

namespace Libtuntap.Windows

open Effect CMem

/-- The address of a block of memory. -/
abbrev Ptr := Nat

/-- A call to the host. -/
inductive Call where
  | malloc (size : Nat)
  | strdup (s : CString)
  | realloc (p : Ptr) (size : Nat)
  | free (p : Ptr)
  | log (level : Level) (msg : CString)
  | logError (level : Level) (code : Nat)
  | regOpenKeyEx (key : CString)
  | regQueryInfoKey (key : Int)
  | regEnumKeyEx (key : Int) (index keylen : Nat)
  | regQueryValueEx (key : Int) (name : CString) (len : Nat)
  | regCloseKey (key : Int)
  | createFile (path : CString)
  | getLastError
  | readFile (fd : Int) (size : BitVec 32)
  | writeFile (fd : Int) (buf : List UInt8) (size : BitVec 32)
  | getOverlappedResult (fd : Int)
  | getOverlappedResultEx (fd : Int) (timeout : BitVec 32)
  | cancelIo (fd : Int)
  | deviceIoControl {n : Nat} (fd : Int) (code : BitVec 32) (buf : Buf n)

/-- The reply to a transfer: whether it succeeded, and the bytes transferred. -/
structure IoRet where
  ok : Bool
  len : BitVec 32
deriving Inhabited

/-- The reply to a control request whose buffer comes back. -/
structure IoControlRet (n : Nat) where
  ok : Bool
  buf : Buf n
deriving Inhabited

@[reducible] def Resp : Call → Type
  | .malloc _ => Ptr
  | .strdup _ => Ptr
  | .realloc .. => Ptr
  | .free _ => Unit
  | .log .. => Unit
  | .logError .. => Unit
  | .regOpenKeyEx _ => Except Nat Int
  | .regQueryInfoKey _ => Except Nat Nat
  | .regEnumKeyEx .. => Except Nat CString
  | .regQueryValueEx .. => Except Nat CString
  | .regCloseKey _ => Nat
  | .createFile _ => Int
  | .getLastError => Nat
  | .readFile .. => IoRet
  | .writeFile .. => IoRet
  | .getOverlappedResult _ => IoRet
  | .getOverlappedResultEx .. => IoRet
  | .cancelIo _ => Bool
  | .deviceIoControl (n := n) .. => IoControlRet n

instance (c : Call) : Nonempty (Resp c) := by
  cases c <;> first | exact ⟨Except.error (0 : Nat)⟩ | infer_instance

/-- Programs of the Windows library. -/
abbrev Win := Prog Call Resp

abbrev malloc (size : Nat) : Win Ptr := Prog.call (Call.malloc size)
abbrev strdup (s : CString) : Win Ptr := Prog.call (Call.strdup s)
abbrev realloc (p : Ptr) (size : Nat) : Win Ptr := Prog.call (Call.realloc p size)
abbrev free (p : Ptr) : Win Unit := Prog.call (Call.free p)
abbrev tuntapLog (level : Level) (msg : String) : Win Unit :=
  Prog.call (Call.log level (CString.lit msg))
/-- `tuntap_log` of what `formated_error` makes of the code. -/
abbrev logError (level : Level) (code : Nat) : Win Unit := Prog.call (Call.logError level code)
abbrev regOpenKeyEx (key : CString) : Win (Except Nat Int) := Prog.call (Call.regOpenKeyEx key)
abbrev regQueryInfoKey (key : Int) : Win (Except Nat Nat) :=
  Prog.call (Call.regQueryInfoKey key)
abbrev regEnumKeyEx (key : Int) (index keylen : Nat) : Win (Except Nat CString) :=
  Prog.call (Call.regEnumKeyEx key index keylen)
abbrev regQueryValueEx (key : Int) (name : String) (len : Nat) : Win (Except Nat CString) :=
  Prog.call (Call.regQueryValueEx key (CString.lit name) len)
abbrev regCloseKey (key : Int) : Win Nat := Prog.call (Call.regCloseKey key)
abbrev createFile (path : CString) : Win Int := Prog.call (Call.createFile path)
abbrev getLastError : Win Nat := Prog.call Call.getLastError
abbrev readFile (fd : Int) (size : BitVec 32) : Win IoRet := Prog.call (Call.readFile fd size)
abbrev writeFile (fd : Int) (buf : List UInt8) (size : BitVec 32) : Win IoRet :=
  Prog.call (Call.writeFile fd buf size)
abbrev getOverlappedResult (fd : Int) : Win IoRet := Prog.call (Call.getOverlappedResult fd)
abbrev getOverlappedResultEx (fd : Int) (timeout : BitVec 32) : Win IoRet :=
  Prog.call (Call.getOverlappedResultEx fd timeout)
abbrev cancelIo (fd : Int) : Win Bool := Prog.call (Call.cancelIo fd)
abbrev deviceIoControl {n : Nat} (fd : Int) (code : BitVec 32) (buf : Buf n) :
    Win (IoControlRet n) :=
  Prog.call (Call.deviceIoControl fd code buf)

/-- What a call of a function comes to. -/
inductive Outcome (α : Type) where
  | returned (a : α)
  | crashed
deriving DecidableEq, Repr

/-! ## Parts of the C runtime -/

/-- `_snprintf_s` into `size` bytes. A text that does not fit is handed to the
invalid parameter handler, which ends the process. -/
def snprintf (size : Nat) (s : CString) : Option CString :=
  if s.strlen < size then some s else none

/-- `isspace`. -/
def isSpace (b : UInt8) : Bool := b = 32 || 9 ≤ b && b ≤ 13

/-- The value of a digit in a base of up to 16. -/
def digitVal (b : UInt8) : Option Nat :=
  if 48 ≤ b ∧ b ≤ 57 then some (b.toNat - 48)
  else if 97 ≤ b ∧ b ≤ 102 then some (b.toNat - 87)
  else if 65 ≤ b ∧ b ≤ 70 then some (b.toNat - 55)
  else none

/-- The number the digits of a base come to, up to the first other character. -/
def readDigits (base : Nat) : Nat → List UInt8 → Nat
  | acc, [] => acc
  | acc, b :: rest =>
      match digitVal b with
      | some d => if d < base then readDigits base (base * acc + d) rest else acc
      | none => acc

/-- The text starts with a digit of the base. -/
def startsWithDigit (base : Nat) (s : List UInt8) : Bool :=
  match s with
  | b :: _ => (digitVal b).any (· < base)
  | [] => false

/-- The subject of `strtol` with base 0, behind the sign: 0x for hexadecimal, 0
for octal, and decimal otherwise. -/
def scanMagnitude (s : List UInt8) : Option Nat :=
  match s with
  | [] => none
  | b :: rest =>
      if b = 48 then
        match rest with
        | [] => some 0
        | x :: hex =>
            if x = 120 ∨ x = 88 then
              if startsWithDigit 16 hex then some (readDigits 16 0 hex) else none
            else some (readDigits 8 0 rest)
      else if startsWithDigit 10 s then some (readDigits 10 0 s)
      else none

/-- The conversion `%i`. What an `int` does not hold is undefined; here it wraps. -/
def scanInt (s : List UInt8) : Option Int :=
  match s.dropWhile isSpace with
  | [] => none
  | b :: rest =>
      if b = 45 then (scanMagnitude rest).map fun n : Nat => (-(n : Int)).bmod (2 ^ 32)
      else if b = 43 then (scanMagnitude rest).map fun n : Nat => (n : Int).bmod (2 ^ 32)
      else (scanMagnitude (b :: rest)).map fun n : Nat => (n : Int).bmod (2 ^ 32)

/-- `strncmp` of the length of the literal finds no difference. -/
def startsWith (s start : CString) : Bool := start.bytes.isPrefixOf s.bytes

/-- `sscanf` of a literal and a `%i`, when it converts one item. -/
def sscanfInt (s literal : CString) : Option Int :=
  if startsWith s literal then scanInt (s.bytes.drop literal.strlen) else none

end Libtuntap.Windows
