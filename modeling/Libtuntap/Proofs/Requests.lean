import Libtuntap.CMem.Decimal
import Libtuntap.Unix.Kernel

/-!
# The requests, as a kernel reads them

The back ends fill in the name of a request in three ways: a copy of 17 bytes
of `if_name`, a `strlcpy` of 16, and the `strncpy` of 16 of the rename. A kernel
reads 15 bytes of it, so all three name the same interface. What follows the
name is written by offset, and every field is read back here from the offsets
it was written to.
-/

namespace Libtuntap

open Effect CMem

/-- The request is about the interface the device has the name of. -/
def Names (dev : Device) (n : Nat) (arg : Buf n) : Prop :=
  (ifrName arg).cstr.take 15 = dev.ifName.cstr.take 15

section Names

variable {dev : Device} {n : Nat}

theorem Names.of_eq {a b : Buf n} (h : Names dev n a) (hab : ifrName b = ifrName a) :
    Names dev n b := by
  unfold Names
  rw [hab]
  exact h

/-- What is written behind the name leaves the name. -/
theorem Names.memcpy {m : Nat} {arg : Buf n} {src : Buf m} {off len : Nat}
    (h : Names dev n arg) (hoff : 16 ≤ off) : Names dev n (arg.memcpy off src len) :=
  h.of_eq (ifrName_memcpy_of_le _ _ _ _ hoff)

theorem Names.memset {arg : Buf n} {v : UInt8} {off len : Nat} (h : Names dev n arg)
    (hoff : 16 ≤ off) : Names dev n (arg.memset off v len) :=
  h.of_eq (ifrName_memset_of_le _ _ _ _ hoff)

/-- The start of the name, cut to 15 bytes or to 16 first. -/
theorem names_of_slice {arg : Buf n} (h : ifrName arg = dev.ifName.slice 0 16) :
    Names dev n arg := by
  unfold Names
  rw [h, Buf.cstr_slice_zero _ _ (by decide), CString.take_take]
  rfl

theorem names_ifreqNamed (os : Os) : Names dev os.sizeofIfreq (ifreqNamed os dev) := by
  have h16 : 16 ≤ os.sizeofIfreq := Nat.le_trans (by decide) os.le_sizeofIfreq
  exact names_of_slice (ifrName_memcpy _ _ h16)

theorem names_linux : Names dev 40 (Linux.ifreqNamed dev) :=
  names_of_slice (ifrName_memcpy _ _ (by decide))

theorem names_strlcpy (hn : 16 ≤ n) :
    Names dev n ((Buf.zero : Buf n).strlcpy 0 dev.ifName.cstr 16) := by
  unfold Names ifrName
  rw [Buf.cstr_slice_strlcpy _ (by decide) (by decide) (by omega), CString.take_take]
  rfl

theorem names_freeBsd : Names dev 32 (FreeBsd.ifreqNamed dev) := names_strlcpy (by decide)

theorem names_reqNamed (hn : 16 ≤ n) : Names dev n (Bsd.reqNamed n dev) := names_strlcpy hn

/-- The request of a rename carries both names, whole. -/
theorem names_renaming (ifname : CString) (len : Nat) :
    Names dev 40 (((Buf.zero : Ifreq).strncpy 0 dev.ifName.cstr ifNamesize).strncpy 16 ifname
      len) := by
  unfold Names ifrName
  rw [Buf.slice_strncpy_disjoint _ _ _ _ _ _ (by omega),
    Buf.cstr_slice_strncpy _ (fun i _ _ => Buf.byte_zero i) (by decide) (by decide),
    CString.take_take]
  rfl

theorem ifrNewname_renaming {ifname : CString} (h : ifname.strlen ≤ ifNamesize) :
    (ifrNewname (((Buf.zero : Ifreq).strncpy 0 dev.ifName.cstr ifNamesize).strncpy 16 ifname
      ifname.strlen)).cstr = ifname := by
  unfold ifNamesize at h
  unfold ifrNewname
  rw [Buf.cstr_slice_strncpy _ _ h (by decide)]
  · exact CString.take_of_strlen_le (Nat.le_refl _)
  · intro i hi _
    rw [Buf.byte_strncpy, if_neg (by unfold ifNamesize; omega), Buf.byte_zero]

end Names

/-! ## The copy in the record -/

theorem cstr_copied (ifName : Buf 17) (s : CString) :
    (ifName.strlcpy 0 s 17).cstr = s.take 16 := by
  rw [← Buf.slice_self (ifName.strlcpy 0 s 17)]
  exact Buf.cstr_slice_strlcpy _ (by omega) (by omega) (by omega)

/-- A request holds a short name whole. -/
theorem cstr_requested {n : Nat} (b : Buf n) {s : CString} (hn : 16 ≤ n) (hs : s.strlen ≤ 15) :
    (ifrName (b.strlcpy 0 s 16)).cstr = s := by
  unfold ifrName
  rw [Buf.cstr_slice_strlcpy _ (by omega) (by omega) (by omega),
    CString.take_of_strlen_le (by omega)]

/-- And so does the record, which it is copied to. -/
theorem cstr_named {n : Nat} (ifName : Buf 17) (b : Buf n) {s : CString} (hn : 16 ≤ n)
    (hs : s.strlen ≤ 15) :
    (ifName.strlcpy 0 (ifrName (b.strlcpy 0 s 16)).cstr 17).cstr = s := by
  rw [cstr_copied, cstr_requested b hn hs, CString.take_of_strlen_le (by omega)]

/-- The name of a unit is such a name, and so is the one the loops end on. -/
theorem strlen_unit_le {type : CString} (htype : type.strlen = 3) {tun : Int} (h0 : 0 ≤ tun)
    (hmax : tun ≤ tuntapIdMax) : (type ++ CString.int tun).strlen ≤ 15 := by
  obtain ⟨u, rfl⟩ := Int.eq_ofNat_of_zero_le h0
  have hu : u ≤ 256 := by
    unfold tuntapIdMax at hmax
    omega
  have hlen := CString.strlen_int_le (n := u) (k := 3) (by omega) (by omega)
  rw [CString.strlen_append]
  omega

/-! ## The requests of IPv6 -/

/-- An IPv6 address and its prefix length, as the kernel keeps them. -/
abbrev Inet6 := Buf 16 × BitVec 32

/-- What a cleared request names. -/
def unspecified : Inet6 := (Buf.zero, 0)

/-- The address and the interface a `struct in6_ifreq` names. -/
def inet6Named {n : Nat} (arg : Buf n) : Inet6 :=
  (arg.slice 0 16, Buf.load32 (arg.slice 16 4))

def indexNamed {n : Nat} (arg : Buf n) : Nat := (Buf.load32 (arg.slice 20 4)).toNat

/-- The request of the deletion has an index and is otherwise clear. -/
theorem inet6Named_index (index : BitVec 32) :
    inet6Named ((Buf.zero : In6Ifreq).memcpy 20 (Buf.store32 index) 4) = unspecified := by
  unfold inet6Named unspecified
  rw [Buf.slice_memcpy_disjoint _ _ _ _ _ _ (by omega),
    Buf.slice_memcpy_disjoint _ _ _ _ _ _ (by omega)]
  refine Prod.ext ?_ (by decide)
  refine Buf.ext_byte fun i hi => ?_
  rw [Buf.byte_slice, if_pos hi, Buf.byte_zero, Buf.byte_zero]

/-- The request of the new address has all three. -/
theorem inet6Named_request (ifrv6 : In6Ifreq) (s6 : Buf 16) (prefixLen : BitVec 32) :
    inet6Named ((ifrv6.memcpy 16 (Buf.store32 prefixLen) 4).memcpy 0 s6 16) =
      (s6, prefixLen) := by
  unfold inet6Named
  rw [Buf.slice_memcpy_same _ _ _ (by decide), Buf.slice_memcpy_disjoint _ _ _ _ _ _ (by omega),
    Buf.slice_memcpy_same _ _ _ (by decide), Buf.load32_store32]

theorem indexNamed_request (ifrv6 : In6Ifreq) (s6 : Buf 16) (prefixLen : BitVec 32) :
    indexNamed ((ifrv6.memcpy 16 (Buf.store32 prefixLen) 4).memcpy 0 s6 16) =
      indexNamed ifrv6 := by
  unfold indexNamed
  rw [Buf.slice_memcpy_disjoint _ _ _ _ _ _ (by omega),
    Buf.slice_memcpy_disjoint _ _ _ _ _ _ (by omega)]

theorem indexNamed_index (index : BitVec 32) :
    indexNamed ((Buf.zero : In6Ifreq).memcpy 20 (Buf.store32 index) 4) = index.toNat := by
  unfold indexNamed
  rw [Buf.slice_memcpy_same _ _ _ (by decide), Buf.load32_store32]

/-! ## The interface reached -/

/-- Through its control socket the device reaches an interface, under the name
it has in the record. -/
structure Kern.Reaches (s : Kern) (dev : Device) (i : Nat) (f : Iface) : Prop where
  sock : s.fds dev.ctrlSock = some (.socket .inet)
  iface : s.ifs i = some f
  name : f.name = dev.ifName.cstr.take 15

section Reaches

variable {s s' : Kern} {dev : Device} {i : Nat} {f : Iface} {n : Nat} {arg : Buf n}
  {change : Iface → Iface}

theorem Kern.Reaches.found (h : s.Reaches dev i f) (hn : Names dev n arg) : s.Found arg i f :=
  ⟨h.iface, h.name.trans hn.symm⟩

/-- A request the device makes changes that interface and nothing else. -/
theorem Kern.Reaches.alters (h : s.Reaches dev i f) (hn : Names dev n arg) {fd : Int}
    (ha : s.Alters fd arg change s') : s.Put s' i (change f) := by
  obtain ⟨-, j, g, hg, hput⟩ := ha
  obtain ⟨rfl, rfl⟩ := (h.found hn).unique hg
  exact hput

theorem Kern.Reaches.put {g : Iface} (h : s.Reaches dev i f) (hput : s.Put s' i g)
    (hname : g.name = f.name) : s'.Reaches dev i g := by
  obtain ⟨hfds, hifs⟩ := hput
  refine ⟨?_, ?_, hname.trans h.name⟩
  · rw [hfds]
    exact h.sock
  · rw [hifs, Function.update_self]

/-- It is still there after a request that leaves its name. -/
theorem Kern.Reaches.after (h : s.Reaches dev i f) (hn : Names dev n arg) {fd : Int}
    (ha : s.Alters fd arg change s') (hname : (change f).name = f.name) :
    s'.Reaches dev i (change f) :=
  h.put (h.alters hn ha) hname

/-- The kernel can grant it. -/
theorem Kern.Reaches.altered (h : s.Reaches dev i f) (hn : Names dev n arg)
    (hname : (change f).name = f.name) :
    s.Alters dev.ctrlSock arg change (s.setIface i f (change f) h.iface hname) :=
  ⟨⟨.inet, h.sock⟩, i, f, h.found hn, rfl, rfl⟩

end Reaches

/-- A device `tun0` and its machine, for runs on fixed inputs. -/
def Device.tun0 : Device :=
  { Device.init with
    tunFd := 4
    ctrlSock := 3
    ifName := Buf.zero.strlcpy 0 (CString.lit "tun0") 17 }

def Kern.tun0 : Kern :=
  (Kern.single (Iface.named (CString.lit "tun0")) (by decide)).setFd 3 (some (.socket .inet))

theorem Kern.tun0_reaches : Kern.tun0.Reaches Device.tun0 0 (Iface.named (CString.lit "tun0")) :=
  ⟨rfl, rfl, by decide⟩

/-! ## The flag word -/

theorem or_iffUp_and_iffUp (flags : BitVec 16) : (flags ||| iffUp) &&& iffUp = iffUp := by
  refine BitVec.eq_of_getLsbD_eq fun i hi => ?_
  simp only [BitVec.getLsbD_and, BitVec.getLsbD_or]
  cases iffUp.getLsbD i <;> simp

theorem and_not_iffUp_and_iffUp (flags : BitVec 16) : flags &&& ~~~iffUp &&& iffUp = 0 := by
  refine BitVec.eq_of_getLsbD_eq fun i hi => ?_
  simp only [BitVec.getLsbD_and, BitVec.getLsbD_not]
  cases iffUp.getLsbD i <;> simp

end Libtuntap
