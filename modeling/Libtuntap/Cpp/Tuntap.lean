import Libtuntap.Effect.Unique
import Libtuntap.Unix.Session

/-!
# The C++ binding

`bindings/cpp/tuntap++.hh` and `tuntap++.cc`. The class `tuntap` is one member,
a `std::unique_ptr<device, TunTapDestroyer>`, and every method is a call of the
C API on the pointer with its answer turned into an exception. So the programs
here are written over an interface of their own, in which the calls are the
functions of `tuntap.h` and a record is known by its address.

What the library does with such a call is `Lib.Step`: it runs the function on
the record at the address. A pointer that leads to no record has no meaning in
C; the calls a caller may make on a record are said by `Record.Admits`, and any
other call breaks the library for good.
-/

namespace Libtuntap.Cpp

open Effect CMem

/-- The address of a `struct device`. -/
abbrev Ptr := Nat

/-- The C API, as the binding calls it. -/
inductive Api where
  | init
  | call (dev : Option Ptr) (op : Op)

@[reducible] def Reply : Api → Type
  | .init => Option Ptr
  | .call .. => Ret

instance (c : Api) : Nonempty (Reply c) := by
  cases c with
  | init => exact ⟨none⟩
  | call => exact ⟨.void⟩

/-- Programs of the binding. -/
abbrev Cxx := Prog Api Reply

abbrev tuntapInit : Cxx (Option Ptr) := Prog.call Api.init
abbrev call (dev : Option Ptr) (op : Op) : Cxx Ret := Prog.call (Api.call dev op)

/-- What is thrown, with its text. -/
inductive Exn where
  | invalidArgument (what : String)
  | runtimeError (what : String)
deriving DecidableEq

/-- An `int` answer, as a condition reads it. -/
def Ret.code : Ret → Int
  | .int n | .bytes n _ => n
  | .void | .str _ => 0

/-- `std::string::c_str`: what C reads of it ends at its first zero. -/
def cStr (s : List UInt8) : CString := CString.ofBytes s

/-! ## The member `_dev` -/

/-- `TunTapDestroyer`. -/
structure TunTapDestroyer where
  persist : Bool

/-- The function that frees the record. -/
def TunTapDestroyer.teardown (destroyer : TunTapDestroyer) : Op :=
  if destroyer.persist then .release else .destroy

/-- `operator()`. -/
def TunTapDestroyer.apply (destroyer : TunTapDestroyer) (dev : Option Ptr) : Cxx Unit := do
  if dev = none then
    return ()
  let _ ← call dev destroyer.teardown
  return ()

/-- `std::unique_ptr<device, TunTapDestroyer>`. -/
structure UniquePtr where
  dev : Option Ptr
  destroyer : TunTapDestroyer

/-- `{nullptr, TunTapDestroyer()}`. -/
def UniquePtr.null : UniquePtr := ⟨none, ⟨false⟩⟩

/-- The destructor of a `unique_ptr` calls the deleter on a pointer that is not
null, and the deleter looks again. -/
def UniquePtr.destroy (p : UniquePtr) : Cxx Unit := do
  if p.dev = none then
    return ()
  p.destroyer.apply p.dev

/-- `release` of a `unique_ptr` keeps the deleter. -/
def UniquePtr.release (p : UniquePtr) : UniquePtr := { p with dev := none }

/-! ## The class -/

/-- A `throw` in the constructor: the members built so far are destroyed. -/
def throwing {α : Type} (dev : UniquePtr) (e : Exn) : Cxx (Except Exn α) := do
  dev.destroy
  return .error e

/-- The mode has none of the two kinds, or both. -/
def unknownMode (mode : Mode) : Bool :=
  ((mode &&& tuntapModeEthernet) == tuntapModeEthernet) ==
    ((mode &&& tuntapModeTunnel) == tuntapModeTunnel)

/-- `tuntap::tuntap(int mode, int id)`. -/
def tuntap (mode : Mode) (id : Int) : Cxx (Except Exn UniquePtr) := do
  let p ← tuntapInit
  let dev : UniquePtr := ⟨p, ⟨decide mode.isPersist⟩⟩
  if unknownMode mode = true then
    throwing dev (.invalidArgument "Unknown tuntap mode")
  else if id < 0 ∨ id > tuntapIdAny then
    throwing dev (.invalidArgument "Tunnel ID is invalid")
  else
    let r ← call dev.dev (.start mode id)
    if Ret.code r ≠ 0 then
      throwing dev (.runtimeError "tuntap_start failed")
    else
      return .ok dev

/-- A method that passes the answer on. -/
def forward (op : Op) (dev : Option Ptr) : Cxx (Except Exn Ret) := do
  let r ← call dev op
  return .ok r

/-- A method that throws when the answer is not zero. -/
def throwUnless (op : Op) (what : String) (dev : Option Ptr) : Cxx (Except Exn Ret) := do
  let r ← call dev op
  if Ret.code r ≠ 0 then
    return .error (.runtimeError what)
  return .ok .void

def name : Option Ptr → Cxx (Except Exn Ret) := forward .getIfname

def setName (s : List UInt8) : Option Ptr → Cxx (Except Exn Ret) :=
  throwUnless (.setIfname (some (cStr s))) "Failed to set ifname"

def hwaddr : Option Ptr → Cxx (Except Exn Ret) := forward .getHwaddr

def setHwaddr (s : List UInt8) : Option Ptr → Cxx (Except Exn Ret) :=
  throwUnless (.setHwaddr (cStr s)) "Failed to set hwaddr"

def descr : Option Ptr → Cxx (Except Exn Ret) := forward .getDescr

def setDescr (s : List UInt8) : Option Ptr → Cxx (Except Exn Ret) :=
  throwUnless (.setDescr (some (cStr s))) "Failed to set descr"

def nativeHandle : Option Ptr → Cxx (Except Exn Ret) := forward .getFd

def up : Option Ptr → Cxx (Except Exn Ret) :=
  throwUnless .up "Failed to bring up tuntap device"

def down : Option Ptr → Cxx (Except Exn Ret) :=
  throwUnless .down "Failed to bring down tuntap device"

def mtu : Option Ptr → Cxx (Except Exn Ret) := forward .getMtu

def setMtu (m : BitVec 32) (dev : Option Ptr) : Cxx (Except Exn Ret) := do
  if m.toInt < 1 ∨ m.toInt > 65535 then
    return .error (.invalidArgument "Invalid mtu")
  throwUnless (.setMtu m) "Failed to set mtu for tuntap device" dev

def ip (s : List UInt8) (netmask : Int) (dev : Option Ptr) : Cxx (Except Exn Ret) := do
  if netmask > 128 then
    return .error (.invalidArgument "Invalid netmask")
  throwUnless (.setIp (some (cStr s)) netmask) "Failed to set ip for tuntap device" dev

def read (len : Nat) (timeoutMs : Int) : Option Ptr → Cxx (Except Exn Ret) :=
  forward (.readTm len timeoutMs)

def write (buf : List UInt8) (timeoutMs : Int) : Option Ptr → Cxx (Except Exn Ret) :=
  forward (.writeTm buf timeoutMs)

/-- `static_cast<int>(b)`. -/
def intOfBool (b : Bool) : BitVec 32 := if b then 1 else 0

def nonblocking (b : Bool) : Option Ptr → Cxx (Except Exn Ret) :=
  throwUnless (.setNonblocking (intOfBool b))
    "Failed to change non-blocking state for tuntap device"

def debug (b : Bool) : Option Ptr → Cxx (Except Exn Ret) :=
  throwUnless (.setDebug (intOfBool b)) "Failed to change debugging state for tuntap device"

/-- The methods that call the C API. -/
inductive Method where
  | name
  | setName (s : List UInt8)
  | hwaddr
  | setHwaddr (s : List UInt8)
  | descr
  | setDescr (s : List UInt8)
  | nativeHandle
  | up
  | down
  | mtu
  | setMtu (m : BitVec 32)
  | ip (s : List UInt8) (netmask : Int)
  | read (len : Nat) (timeoutMs : Int)
  | write (buf : List UInt8) (timeoutMs : Int)
  | nonblocking (b : Bool)
  | debug (b : Bool)

def Method.prog : Method → Option Ptr → Cxx (Except Exn Ret)
  | .name => Cpp.name
  | .setName s => Cpp.setName s
  | .hwaddr => Cpp.hwaddr
  | .setHwaddr s => Cpp.setHwaddr s
  | .descr => Cpp.descr
  | .setDescr s => Cpp.setDescr s
  | .nativeHandle => Cpp.nativeHandle
  | .up => Cpp.up
  | .down => Cpp.down
  | .mtu => Cpp.mtu
  | .setMtu m => Cpp.setMtu m
  | .ip s netmask => Cpp.ip s netmask
  | .read len timeoutMs => Cpp.read len timeoutMs
  | .write buf timeoutMs => Cpp.write buf timeoutMs
  | .nonblocking b => Cpp.nonblocking b
  | .debug b => Cpp.debug b

/-! ## The library under the binding -/

/-- A record, with the mode of the start it was given. -/
structure Record where
  dev : Device
  mode : Option Mode

/-- The calls the life of a record allows: one start, then the functions of a
started device, and at the end the function that suits the mode. -/
def Record.Admits (r : Record) : Op → Prop
  | .start .. => r.mode = none
  | .release => ∀ m, r.mode = some m → m.isPersist
  | .destroy => ∀ m, r.mode = some m → ¬ m.isPersist
  | _ => r.dev.tunFd ≠ -1

/-- The mode of a record after a call. -/
def Record.modeAfter (r : Record) : Op → Option Mode
  | .start mode _ => some mode
  | _ => r.mode

/-- The records that are alive, and the kernel. -/
structure Lib where
  recs : Ptr → Option Record
  kern : Kern

/-- `tuntap_init`: a record at an address that was free, or none. -/
def Lib.Inits (R : Rules) (l : Lib) (p : Option Ptr) (l' : Lib) : Prop :=
  ∃ tr dev, Libtuntap.tuntapInit.Runs tr dev ∧ (kernel R).Steps l.kern tr l'.kern ∧
    match dev, p with
    | none, none => l'.recs = l.recs
    | some d, some q => l.recs q = none ∧
        l'.recs = Function.update l.recs q (some ⟨d, none⟩)
    | _, _ => False

/-- A function called on the record at `p`. -/
def Lib.Runs (R : Rules) (libc : Libc) (l : Lib) (p : Ptr) (r : Record) (op : Op) (ret : Ret)
    (l' : Lib) : Prop :=
  ∃ tr d, (op.prog R.os libc r.dev).Runs tr (ret, d) ∧ (kernel R).Steps l.kern tr l'.kern ∧
    l'.recs = Function.update l.recs p (d.map fun d => ⟨d, r.modeAfter op⟩)

/-- One call of the C API. A library that was broken stays so. -/
def Lib.Step (R : Rules) (libc : Libc) :
    Option Lib → (c : Api) → Reply c → Option Lib → Prop
  | none, _, _, s' => s' = none
  | some l, .init, p, s' => ∃ l', s' = some l' ∧ l.Inits R p l'
  | some l, .call dev op, ret, s' =>
      (∃ p r l', dev = some p ∧ l.recs p = some r ∧ r.Admits op ∧ s' = some l' ∧
        l.Runs R libc p r op ret l') ∨
      (¬ ∃ p r, dev = some p ∧ l.recs p = some r ∧ r.Admits op) ∧ s' = none

/-- The library, as what the programs of the binding step along. -/
def lib (R : Rules) (libc : Libc) : Kernel Api Reply (Option Lib) := Lib.Step R libc

/-! ## Programs that use the class -/

/-- The objects of a program, at the storage `ι`, and the library. Storage
without an object holds nothing. -/
structure State (ι : Type) where
  objs : ι → Option UniquePtr
  lib : Option Lib

/-- A statement, with the calls it made and what came of it. -/
inductive Act (ι : Type) where
  | construct (i : ι) (mode : Mode) (id : Int) (tr : List (Event Api Reply))
      (res : Except Exn UniquePtr)
  | moveConstruct (i j : ι)
  | method (i : ι) (m : Method) (tr : List (Event Api Reply)) (res : Except Exn Ret)
  | release (i : ι)
  | destruct (i : ι) (tr : List (Event Api Reply))
  | others

section Step

variable {ι : Type} [DecidableEq ι]

/-- The statements of a program that keeps to the rules of the language: an
object is built where there is none and used where there is one. Between two of
them the rest of the system may do anything to the kernel. -/
inductive State.Step (R : Rules) (libc : Libc) : State ι → Act ι → State ι → Prop where
  | construct {s : State ι} {i : ι} {mode : Mode} {id : Int} {tr : List (Event Api Reply)}
      {res : Except Exn UniquePtr} {l : Option Lib} :
      s.objs i = none → (tuntap mode id).Runs tr res → (Cpp.lib R libc).Steps s.lib tr l →
      Step R libc s (.construct i mode id tr res)
        ⟨Function.update s.objs i res.toOption, l⟩
  | moveConstruct {s : State ι} {i j : ι} {t : UniquePtr} :
      s.objs i = none → s.objs j = some t →
      Step R libc s (.moveConstruct i j)
        ⟨Function.update (Function.update s.objs j (some .null)) i (some t), s.lib⟩
  | method {s : State ι} {i : ι} {u : UniquePtr} {m : Method} {tr : List (Event Api Reply)}
      {res : Except Exn Ret} {l : Option Lib} :
      s.objs i = some u → (m.prog u.dev).Runs tr res → (Cpp.lib R libc).Steps s.lib tr l →
      Step R libc s (.method i m tr res) ⟨s.objs, l⟩
  | release {s : State ι} {i : ι} {u : UniquePtr} : s.objs i = some u →
      Step R libc s (.release i) ⟨Function.update s.objs i (some u.release), s.lib⟩
  | destruct {s : State ι} {i : ι} {u : UniquePtr} {tr : List (Event Api Reply)}
      {l : Option Lib} :
      s.objs i = some u → u.destroy.Runs tr () → (Cpp.lib R libc).Steps s.lib tr l →
      Step R libc s (.destruct i tr) ⟨Function.update s.objs i none, l⟩
  | others {objs : ι → Option UniquePtr} {l : Lib} {k : Kern} :
      Step R libc ⟨objs, some l⟩ .others ⟨objs, some { l with kern := k }⟩

end Step

end Libtuntap.Cpp
