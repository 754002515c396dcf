import Libtuntap.Unix.Call

/-!
# The device record and the structures passed to the kernel

`struct device` from `private.h`, the constants of `tuntap.h`, and the layouts
of the request structures. `dev->sys` is left out: it is set to `NULL` once and
no Unix file reads it.

A structure is a block of memory and its fields are offsets, the same on every
system for the part that matters here: 16 bytes of name, then a union whose
members all start at offset 16. A `struct ifreq` is 40 bytes long on 64-bit
Linux and 32 on the BSDs. Keeping the bytes is what lets a copy of one byte too
many, or a request given the wrong structure, mean here what it means in C.
-/

namespace Libtuntap

open Effect CMem

def tuntapIdMax : Int := 256
def tuntapIdAny : Int := 257

/-- Modes are sets of bits in an `int`. -/
abbrev Mode := BitVec 32

def tuntapModeEthernet : Mode := 0x0001
def tuntapModeTunnel : Mode := 0x0002
def tuntapModePersist : Mode := 0x0004

/-- `mode & TUNTAP_MODE_PERSIST`. -/
def Mode.isPersist (mode : Mode) : Prop := mode &&& tuntapModePersist ≠ 0

/-- `mode & ~TUNTAP_MODE_PERSIST`. -/
def Mode.clearPersist (mode : Mode) : Mode := mode &&& ~~~tuntapModePersist

instance (mode : Mode) : Decidable mode.isPersist :=
  inferInstanceAs (Decidable (mode &&& tuntapModePersist ≠ 0))

/-- Without the bit there is nothing to clear. -/
theorem Mode.clearPersist_eq (mode : Mode) :
    (if mode.isPersist then mode.clearPersist else mode) = mode.clearPersist := by
  by_cases h : mode.isPersist
  · exact if_pos h
  · rw [if_neg h]
    have h0 : mode &&& tuntapModePersist = 0 := not_not.mp h
    refine BitVec.eq_of_getLsbD_eq fun i hi => ?_
    have hbit := congrArg (fun w => w.getLsbD i) h0
    simp only [BitVec.getLsbD_and] at hbit
    simp only [Mode.clearPersist, BitVec.getLsbD_and, BitVec.getLsbD_not, hi, decide_true,
      Bool.true_and]
    cases hp : tuntapModePersist.getLsbD i with
    | false => simp
    | true =>
        rw [hp, Bool.and_true] at hbit
        rw [hbit]
        simp

/-- `IF_NAMESIZE`. -/
def ifNamesize : Nat := 16

/-- `struct device`. -/
structure Device where
  tunFd : Int
  ctrlSock : Int
  flags : BitVec 32
  hwaddr : Buf 6
  ifName : Buf 17

/-- `tuntap_init`, once memory was found. -/
def Device.init : Device where
  tunFd := -1
  ctrlSock := -1
  flags := 0
  hwaddr := Buf.zero
  ifName := Buf.zero

def tuntapInit : Sys (Option Device) := do
  let found ← malloc
  if found = false then
    return none
  return some Device.init

/-! ## `struct ifreq` and its relatives -/

/-- `struct ifreq` on 64-bit Linux. -/
abbrev Ifreq := Buf 40

/-- `struct ifreq` on the BSDs and Darwin. -/
abbrev BsdIfreq := Buf 32

/-- `struct ifaliasreq`: name, address, broadcast address and mask. -/
abbrev Ifaliasreq := Buf 64

/-- `struct in6_ifreq`: address, prefix length and interface index. -/
abbrev In6Ifreq := Buf 24

def afInet : BitVec 16 := 2
def afLink : UInt8 := 18
def arphrdEther : BitVec 16 := 1

def iffUp : BitVec 16 := 0x0001
def iffTun : BitVec 16 := 0x0001
def iffTap : BitVec 16 := 0x0002
def iffNoPi : BitVec 16 := 0x1000
def iffLink0 : BitVec 16 := 0x1000

section Fields

variable {n : Nat}

/-- `ifr_name`. -/
def ifrName (ifr : Buf n) : Buf 16 := ifr.slice 0 16

/-- `ifr_flags`. -/
def ifrFlags (ifr : Buf n) : BitVec 16 := Buf.load16 (ifr.slice 16 2)

def setIfrFlags (ifr : Buf n) (flags : BitVec 16) : Buf n :=
  ifr.memcpy 16 (Buf.store16 flags) 2

/-- `ifr_mtu` and `ifr_ifindex`, an `int` in the union. -/
def ifrInt (ifr : Buf n) : BitVec 32 := Buf.load32 (ifr.slice 16 4)

def setIfrInt (ifr : Buf n) (v : BitVec 32) : Buf n := ifr.memcpy 16 (Buf.store32 v) 4

/-- The first six bytes of `ifr_hwaddr.sa_data`. -/
def ifrHwaddr (ifr : Buf n) : Buf 6 := ifr.slice 18 6

/-- `sin_addr` of the address in the union, in network order. -/
def ifrInAddr (ifr : Buf n) : Buf 4 := ifr.slice 20 4

/-- `sin_addr` of `ifra_mask`. -/
def ifraMask (ifa : Buf n) : Buf 4 := ifa.slice 52 4

/-- `ifr_newname`, which lies over the union. -/
def ifrNewname (ifr : Buf n) : Buf 16 := ifr.slice 16 16

@[simp] theorem ifrName_setIfrFlags (ifr : Buf n) (flags : BitVec 16) :
    ifrName (setIfrFlags ifr flags) = ifrName ifr :=
  Buf.slice_memcpy_disjoint _ _ _ _ _ _ (by omega)

theorem ifrFlags_setIfrFlags (ifr : Buf n) (flags : BitVec 16) (hn : 18 ≤ n) :
    ifrFlags (setIfrFlags ifr flags) = flags := by
  unfold ifrFlags setIfrFlags
  rw [Buf.slice_memcpy_same _ _ _ hn, Buf.load16_store16]

@[simp] theorem ifrName_setIfrInt (ifr : Buf n) (v : BitVec 32) :
    ifrName (setIfrInt ifr v) = ifrName ifr :=
  Buf.slice_memcpy_disjoint _ _ _ _ _ _ (by omega)

theorem ifrInt_setIfrInt (ifr : Buf n) (v : BitVec 32) (hn : 20 ≤ n) :
    ifrInt (setIfrInt ifr v) = v := by
  unfold ifrInt setIfrInt
  rw [Buf.slice_memcpy_same _ _ _ hn, Buf.load32_store32]

/-- The copy of `sizeof dev->if_name` bytes carries the 16 that are the name. -/
theorem ifrName_memcpy (ifr : Buf n) (ifName : Buf 17) (hn : 16 ≤ n) :
    ifrName (ifr.memcpy 0 ifName 17) = ifName.slice 0 16 :=
  Buf.slice_memcpy_inside _ _ _ _ _ _ (by omega) (by omega) hn

/-- What is written behind the name leaves the name. -/
theorem ifrName_memcpy_of_le {m : Nat} (ifr : Buf n) (src : Buf m) (off len : Nat)
    (h : 16 ≤ off) : ifrName (ifr.memcpy off src len) = ifrName ifr :=
  Buf.slice_memcpy_disjoint _ _ _ _ _ _ (by omega)

theorem ifrName_memset_of_le (ifr : Buf n) (off : Nat) (v : UInt8) (len : Nat)
    (h : 16 ≤ off) : ifrName (ifr.memset off v len) = ifrName ifr :=
  Buf.slice_memset_disjoint _ _ _ _ _ _ (by omega)

end Fields

/-- `struct sockaddr_in` on Linux. -/
def sockaddrIn (addr : Buf 4) : Buf 16 :=
  (Buf.zero.memcpy 0 (Buf.store16 afInet) 2).memcpy 4 addr 4

/-- `struct sockaddr_in` on the BSDs: a length byte, then a one-byte family. -/
def bsdSockaddrIn (addr : Buf 4) : Buf 16 := fun i =>
  if i = 0 then 16 else if i = 1 then 2 else (Buf.zero.memcpy 4 addr 4) i

/-- `htonl` on a little-endian host. -/
def htonl (x : BitVec 32) : BitVec 32 :=
  x.extractLsb' 0 8 ++ x.extractLsb' 8 8 ++ x.extractLsb' 16 8 ++ x.extractLsb' 24 8

end Libtuntap
