import Libtuntap.Proofs.Scan

/-!
# The link-layer address of a tap device

NetBSD and Darwin have the address of a new tap device from the list of
`getifaddrs`: the first entry with the name of the interface, and of its address
the six bytes at offset 12. The entry looked for is the link-level one, a
`sockaddr_dl`, in which the name starts at offset 8 and the address follows it.
So the bytes are the address when the name has four characters, tap0 to tap9,
and when no other entry of the interface comes first.
-/

namespace Libtuntap

open Effect CMem

namespace Ifaddr

/-- The family of the entry is `AF_LINK`. -/
def IsLink (pifa : Ifaddr) : Prop := pifa.ifaAddr 1 = afLink

instance (pifa : Ifaddr) : Decidable pifa.IsLink :=
  inferInstanceAs (Decidable (pifa.ifaAddr 1 = afLink))

/-- The address of a link-level entry, which follows the name. -/
def lladdr (pifa : Ifaddr) : Buf 6 := fun i => pifa.ifaAddr (8 + pifa.ifaName.strlen + i)

/-- The bytes at `sa_data + 10`. -/
def copied (pifa : Ifaddr) : Buf 6 := fun i => pifa.ifaAddr (2 + 10 + i)

/-- A link-level entry carries its name. -/
def WellFormed (pifa : Ifaddr) : Prop :=
  pifa.IsLink → ∀ i (h : i < pifa.ifaName.strlen),
    pifa.ifaAddr (8 + i) = pifa.ifaName.bytes.get ⟨i, h⟩

/-- A name of four characters puts the address at offset 12. -/
theorem copied_eq_lladdr {pifa : Ifaddr} (h : pifa.ifaName.strlen = 4) :
    pifa.copied = pifa.lladdr := by
  unfold copied lladdr
  rw [h]

end Ifaddr

/-- The link-level entry of an interface. -/
def linkEntry (ifa : List Ifaddr) (name : CString) : Option Ifaddr :=
  ifa.find? fun pifa => pifa.ifaName = name ∧ pifa.IsLink

/-- The address the record should have: that of the link-level entry, and
without one what it had. -/
def lladdrOf (ifa : List Ifaddr) (name : CString) (hwaddr : Buf 6) : Buf 6 :=
  match linkEntry ifa name with
  | some pifa => pifa.lladdr
  | none => hwaddr

/-- The address the loop leaves in the record. -/
def savedOf (ifa : List Ifaddr) (name : CString) (hwaddr : Buf 6) : Buf 6 :=
  match ifa.find? fun pifa => pifa.ifaName = name with
  | some pifa => pifa.copied
  | none => hwaddr

/-- `getifaddrs` gives this list. -/
def Lists (ifa : List Ifaddr) : Event Call Resp → Prop
  | ⟨.getifaddrs, r⟩ => r = some ifa
  | _ => True

/-- After a success the address is the one the loop leaves. -/
def Saves (ifa : List Ifaddr) (hwaddr : Buf 6) (r : Int × Device) : Prop :=
  r.1 ≠ -1 → r.2.hwaddr = savedOf ifa r.2.ifName.cstr hwaddr

section Start

variable {ifa : List Ifaddr} {dev : Device} {mode : Mode} {tun : Int} {hwaddr : Buf 6}

/-- The programs of a start, on this list. -/
abbrev OnList {α : Type} (ifa : List Ifaddr) (Q : α → Prop) (p : Sys α) : Prop :=
  p.Given (Lists ifa) (fun _ => True) Q

theorem onList_any {α : Type} (p : Sys α) : OnList ifa (fun _ => True) p := by
  induction p with
  | ret a => trivial
  | sys c k ih => exact fun r _ => ⟨trivial, ih r⟩

theorem call_onList {α : Type} {Q : α → Prop} {c : Call} {f : Resp c → Sys α}
    (h : ∀ r, OnList ifa Q (f r)) : OnList ifa Q ((Prog.call c : Sys (Resp c)) >>= f) :=
  (Prog.given_call_bind _ _).mpr fun r _ => ⟨trivial, h r⟩

theorem saveLladdr_onList : OnList ifa (fun d => d.ifName = dev.ifName ∧
    d.hwaddr = savedOf ifa dev.ifName.cstr dev.hwaddr) (Bsd.saveLladdr dev) := by
  unfold Bsd.saveLladdr
  refine (Prog.given_call_bind _ _).mpr fun r hr => ⟨trivial, ?_⟩
  obtain rfl : r = some ifa := hr
  unfold savedOf
  dsimp only
  cases ifa.find? (fun pifa => pifa.ifaName = dev.ifName.cstr) with
  | none => exact fun _ _ => ⟨trivial, rfl, rfl⟩
  | some pifa => exact ⟨rfl, rfl⟩

theorem saves_failed {d : Device} : Saves ifa hwaddr (-1, d) := fun h => absurd rfl h

/-- A check that ends the start with a message saves nothing. -/
theorem check_onList {p : Prop} [Decidable p] {level : Level} {msg : CString} {d : Device}
    {q : Sys (Int × Device)} (h : ¬ p → OnList ifa (Saves ifa hwaddr) q) :
    OnList ifa (Saves ifa hwaddr)
      (if p then Prog.call (Call.log level msg) >>= fun _ => Prog.ret (-1, d) else q) :=
  (Prog.given_ite _ _ _).mpr ⟨fun _ => call_onList fun _ => saves_failed, h⟩

theorem Darwin.configure_onList {type : CString} {fd : Int} {ifr : BsdIfreq}
    (hmode : mode = tuntapModeEthernet) :
    OnList ifa (Saves ifa dev.hwaddr) (Darwin.configure dev mode type fd tun ifr) := by
  dsimp only [Darwin.configure]
  refine call_onList fun r => ?_
  refine check_onList fun _ => ?_
  refine call_onList fun r' => ?_
  refine check_onList fun _ => ?_
  rw [if_pos hmode]
  refine saveLladdr_onList.bind fun d hd _ => ?_
  rw [hd.2, hd.1]

theorem Darwin.tuntapSysStart_onList (hmode : mode.clearPersist = tuntapModeEthernet) :
    OnList ifa (Saves ifa dev.hwaddr) (Darwin.tuntapSysStart dev mode tun) := by
  dsimp only [Darwin.tuntapSysStart]
  refine call_onList fun ifr => ?_
  refine check_onList fun hpersist => ?_
  refine check_onList fun _ => ?_
  refine (onList_any _).bind fun o _ => ?_
  cases o with
  | none => exact saves_failed
  | some found =>
      refine (onList_any _).bind fun goesOn _ => ?_
      refine (Prog.given_ite _ _ _).mpr ⟨fun _ => saves_failed, fun _ => ?_⟩
      refine Darwin.configure_onList ?_
      rw [← hmode, ← Mode.clearPersist_eq, if_neg hpersist]

theorem NetBsd.tuntapSysStartTap_onList :
    OnList ifa (Saves ifa dev.hwaddr) (NetBsd.tuntapSysStartTap dev tun) := by
  dsimp only [NetBsd.tuntapSysStartTap]
  refine (onList_any _).bind fun o _ => ?_
  cases o with
  | none => exact saves_failed
  | some name =>
      refine call_onList fun fd => ?_
      refine check_onList fun _ => ?_
      refine call_onList fun r => ?_
      refine check_onList fun _ => ?_
      refine call_onList fun r' => ?_
      refine check_onList fun _ => ?_
      refine saveLladdr_onList.bind fun d hd _ => ?_
      dsimp only at hd ⊢
      rw [hd.2, hd.1]

theorem NetBsd.tuntapSysStart_onList (hmode : mode.clearPersist = tuntapModeEthernet) :
    OnList ifa (Saves ifa dev.hwaddr) (NetBsd.tuntapSysStart dev mode tun) := by
  dsimp only [NetBsd.tuntapSysStart]
  refine (onList_any _).bind fun goesOn _ => ?_
  refine (Prog.given_ite _ _ _).mpr ⟨fun _ => saves_failed, fun _ => ?_⟩
  rw [Mode.clearPersist_eq, if_pos hmode]
  exact NetBsd.tuntapSysStartTap_onList

/-- The back ends that search the list. -/
def Searches (os : Os) : Prop := os = .netBsd ∨ os = .darwin

theorem tuntapSysStart_onList {os : Os} (hos : Searches os)
    (hmode : mode.clearPersist = tuntapModeEthernet) :
    OnList ifa (Saves ifa dev.hwaddr) (tuntapSysStart os dev mode tun) := by
  rcases hos with rfl | rfl
  · exact NetBsd.tuntapSysStart_onList hmode
  · exact Darwin.tuntapSysStart_onList hmode

theorem tuntapStart_onList {os : Os} (hos : Searches os)
    (hmode : mode.clearPersist = tuntapModeEthernet) :
    OnList ifa (fun r => r.1 = 0 → r.2.hwaddr = savedOf ifa r.2.ifName.cstr dev.hwaddr)
      (tuntapStart os dev mode tun) := by
  have hclean : ∀ {fd sock d}, OnList ifa
      (fun r => r.1 = 0 → r.2.hwaddr = savedOf ifa r.2.ifName.cstr dev.hwaddr)
        (startClean fd sock d) := by
    intro fd sock d
    simp [OnList, startClean]
  unfold tuntapStart
  refine (Prog.given_ite _ _ _).mpr ⟨fun _ _ _ => ⟨trivial, fun h => ?_⟩, fun _ => ?_⟩
  · cases h
  refine call_onList fun sock => ?_
  refine (Prog.given_ite _ _ _).mpr ⟨fun _ => hclean, fun _ => ?_⟩
  refine (Prog.given_ite _ _ _).mpr ⟨fun _ => hclean, fun _ => ?_⟩
  refine (tuntapSysStart_onList hos hmode).bind fun r hr => ?_
  obtain ⟨fd, d⟩ := r
  refine (Prog.given_ite _ _ _).mpr ⟨fun _ => hclean, fun hfd _ => ?_⟩
  exact hr hfd

end Start

/-! ## The right bytes -/

/-- The name of a tap unit. -/
def tapName (n : Nat) : CString := CString.lit "tap" ++ CString.int n

theorem strlen_tapName {n : Nat} (h : n < 10) : (tapName n).strlen = 4 := by
  unfold tapName CString.strlen
  have hdigit : (CString.int n).bytes.length = 1 := by
    rw [CString.bytes_int, List.length_map, Nat.toDigits_of_lt_base h]
    rfl
  have hlen := CString.strlen_append (CString.lit "tap") (CString.int n)
  unfold CString.strlen at hlen
  rw [hlen, hdigit]
  decide

/-- The bytes at offset 12 of the entry are those of the address behind the name. -/
def Ifaddr.Repeats (pifa : Ifaddr) : Prop :=
  ∀ i : Fin 6, pifa.ifaAddr (2 + 10 + i) = pifa.ifaAddr (8 + pifa.ifaName.strlen + i)

/-- The first entry of the unit is its link-level one and the unit has one
digit; or the bytes copied from it are the right ones by accident. -/
def LinkFirst (ifa : List Ifaddr) (n : Nat) (hwaddr : Buf 6) : Prop :=
  ∀ pifa, (ifa.find? fun pifa => pifa.ifaName = tapName n) = some pifa →
    pifa.IsLink ∧ (n < 10 ∨ pifa.Repeats) ∨
      ¬ pifa.IsLink ∧ pifa.copied = lladdrOf ifa (tapName n) hwaddr

section Right

variable {ifa : List Ifaddr} {name : CString} {pifa : Ifaddr} {hwaddr : Buf 6} {n : Nat}

theorem find_name (h : (ifa.find? fun pifa => pifa.ifaName = name) = some pifa) :
    pifa.ifaName = name := by
  simpa using List.find?_some h

/-- Where the first entry of the name is link-level, it is the one looked for. -/
theorem linkEntry_of_first (h : (ifa.find? fun pifa => pifa.ifaName = name) = some pifa)
    (hlink : pifa.IsLink) : linkEntry ifa name = some pifa := by
  unfold linkEntry
  induction ifa with
  | nil => cases h
  | cons head tail ih =>
      by_cases hname : head.ifaName = name
      · rw [List.find?_cons_of_pos (by simpa using hname)] at h
        obtain rfl := Option.some.inj h
        exact List.find?_cons_of_pos (by simpa using ⟨hname, hlink⟩)
      · rw [List.find?_cons_of_neg (by simpa using hname)] at h
        rw [List.find?_cons_of_neg (by simp [hname])]
        exact ih h

theorem linkEntry_of_none (h : (ifa.find? fun pifa => pifa.ifaName = name) = none) :
    linkEntry ifa name = none := by
  unfold linkEntry
  simp only [List.find?_eq_none, decide_eq_true_eq] at h ⊢
  exact fun pifa hp hand => h pifa hp hand.1

theorem savedOf_eq_iff :
    savedOf ifa (tapName n) hwaddr = lladdrOf ifa (tapName n) hwaddr ↔
      LinkFirst ifa n hwaddr := by
  unfold savedOf LinkFirst
  cases hfirst : ifa.find? fun pifa => pifa.ifaName = tapName n with
  | none =>
      unfold lladdrOf
      rw [linkEntry_of_none hfirst]
      exact iff_of_true rfl fun _ h => by cases h
  | some pifa =>
      have hname := find_name hfirst
      simp only [Option.some.injEq, forall_eq']
      by_cases hlink : pifa.IsLink
      · have haddr : lladdrOf ifa (tapName n) hwaddr = pifa.lladdr := by
          unfold lladdrOf
          rw [linkEntry_of_first hfirst hlink]
        rw [haddr]
        constructor
        · intro h
          exact Or.inl ⟨hlink, Or.inr fun i => congrFun h i⟩
        · rintro (⟨-, hdigit | hrepeats⟩ | ⟨hno, -⟩)
          · refine Ifaddr.copied_eq_lladdr ?_
            rw [hname]
            exact strlen_tapName hdigit
          · exact funext hrepeats
          · exact absurd hlink hno
      · constructor
        · exact fun h => Or.inr ⟨hlink, h⟩
        · rintro (⟨hyes, -⟩ | ⟨-, h⟩)
          · exact absurd hyes hlink
          · exact h

end Right

section Started

variable {os : Os} {ifa : List Ifaddr} {dev : Device} {mode : Mode} {tun : Int} {n : Nat}
  {tr : List (Event Call Resp)} {r : Int × Device}

/-- After a successful start of a tap unit, the address is the one of its
link-level entry exactly when that entry comes first and the unit has one digit,
accidents apart. -/
theorem saved_hwaddr_iff (hos : Searches os) (hmode : mode.clearPersist = tuntapModeEthernet)
    (hr : (tuntapStart os dev mode tun).Runs tr r) (hok : r.1 = 0)
    (hlist : ∀ e ∈ tr, Lists ifa e) (hname : r.2.ifName.cstr = tapName n) :
    r.2.hwaddr = lladdrOf ifa (tapName n) dev.hwaddr ↔ LinkFirst ifa n dev.hwaddr := by
  have hsaved := ((tuntapStart_onList hos hmode).of_runs hr hlist).2 hok
  rw [hsaved, hname]
  exact savedOf_eq_iff

/-- A kernel can give any list. -/
theorem listing_replies (type : CString) (units : Nat → Option Int) (ifa : List Ifaddr)
    (s : List Int) (c : Call) :
    ∃ r s', (scanning type units).Only (Lists ifa) s c r s' := by
  obtain ⟨r, s', h⟩ := scanning_replies type units s c
  cases c with
  | getifaddrs => exact ⟨some ifa, s, rfl, rfl⟩
  | _ => exact ⟨r, s', trivial, h⟩

/-- A start of a given tap unit on Darwin, with a given list. -/
theorem exists_tap_start (ifa : List Ifaddr) (hn : (n : Int) < tuntapIdMax) : ∃ tr r,
    (tuntapStart .darwin Device.init tuntapModeEthernet tuntapIdAny).Runs tr r ∧ r.1 = 0 ∧
      (∀ e ∈ tr, Lists ifa e) ∧ r.2.ifName.cstr = tapName n := by
  obtain ⟨tr, r, left, hr, hs⟩ := Kernel.exists_steps
    (listing_replies (CString.lit "tap") (onlyUnit n 5) ifa)
    (tuntapStart .darwin Device.init tuntapModeEthernet tuntapIdAny) []
  obtain ⟨hsteps, hlists⟩ := hs.of_only
  have hscans : Scans .darwin tuntapModeEthernet (CString.lit "tap") := Or.inl ⟨rfl, rfl⟩
  have hends := (tuntapStart_scans rfl hscans (onlyUnit_nonneg (by decide))).of_runs hr hsteps
  have hright := hends.right fun u m hlow => by
    rw [lowest_onlyUnit hlow]
    decide
  have hopens : onlyUnit n 5 n = some 5 := if_pos rfl
  have hok := hright.succeeds.mpr ⟨n, hn, by rw [hopens]; decide⟩
  have hlow : Lowest (onlyUnit n 5) n 5 :=
    ⟨hn, hopens, fun v hv => if_neg (Nat.ne_of_lt hv)⟩
  exact ⟨tr, r, hr, hok, hlists, (hright.lowest hok n 5 hlow).2.1⟩

/-- The link-level entry of an interface with the address 02:00:00:00:00:00. -/
def Ifaddr.link (name : CString) : Ifaddr where
  ifaName := name
  ifaAddr i :=
    if i = 1 then afLink
    else if h : 8 ≤ i ∧ i - 8 < name.strlen then name.bytes.get ⟨i - 8, h.2⟩
    else if i = 8 + name.strlen then 2
    else 0

theorem Ifaddr.wellFormed_link (name : CString) : (Ifaddr.link name).WellFormed := by
  intro _ i h
  have h1 : ¬ 8 + i = 1 := by omega
  have hin : 8 ≤ 8 + i ∧ 8 + i - 8 < name.strlen := by
    have hlt : i < name.strlen := h
    omega
  show (if 8 + i = 1 then _ else if h : _ then _ else _) = _
  rw [if_neg h1, dif_pos hin]
  simp only [Nat.add_sub_cancel_left]
  rfl

/-- The start of tap3, whose link-level entry is the only one. -/
theorem saved_hwaddr_tap_three : ∃ tr r,
    (tuntapStart .darwin Device.init tuntapModeEthernet tuntapIdAny).Runs tr r ∧ r.1 = 0 ∧
      r.2.hwaddr = (Ifaddr.link (tapName 3)).lladdr := by
  obtain ⟨tr, r, hr, hok, hlists, hname⟩ :=
    exists_tap_start (n := 3) [Ifaddr.link (tapName 3)] (by decide)
  have hfirst : LinkFirst [Ifaddr.link (tapName 3)] 3 Device.init.hwaddr := by
    intro pifa hpifa
    have hmem := List.mem_of_find?_eq_some hpifa
    obtain rfl := List.mem_singleton.mp hmem
    exact Or.inl ⟨rfl, Or.inl (by decide)⟩
  refine ⟨tr, r, hr, hok, ?_⟩
  have hright := (saved_hwaddr_iff (Or.inr rfl) (by decide) hr hok hlists hname).mpr hfirst
  rw [hright]
  decide

/-- The name tap10 pushes the address one byte further. -/
theorem saved_hwaddr_shifted : ¬ ∀ (os : Os) (ifa : List Ifaddr) (dev : Device) (mode : Mode)
    (tun : Int) (n : Nat) (tr : List (Event Call Resp)) (r : Int × Device),
    Searches os → mode.clearPersist = tuntapModeEthernet → (n : Int) < tuntapIdMax →
      (∀ pifa ∈ ifa, pifa.WellFormed) → (tuntapStart os dev mode tun).Runs tr r → r.1 = 0 →
        (∀ e ∈ tr, Lists ifa e) → r.2.ifName.cstr = tapName n →
          r.2.hwaddr = lladdrOf ifa (tapName n) dev.hwaddr := by
  intro hclaim
  obtain ⟨tr, r, hr, hok, hlists, hname⟩ :=
    exists_tap_start (n := 10) [Ifaddr.link (tapName 10)] (by decide)
  have hright := hclaim _ _ _ _ _ _ _ _ (Or.inr rfl) (by decide) (by decide)
    (fun pifa hp => by
      obtain rfl := List.mem_singleton.mp hp
      exact Ifaddr.wellFormed_link _) hr hok hlists hname
  have hsaved := ((tuntapStart_onList (Or.inr rfl) (by decide)).of_runs hr hlists).2 hok
  rw [hname, hright] at hsaved
  have hfirst : (List.find? (fun pifa => pifa.ifaName = tapName 10)
      [Ifaddr.link (tapName 10)]) = some (Ifaddr.link (tapName 10)) :=
    List.find?_cons_of_pos (by decide)
  rcases savedOf_eq_iff.mp hsaved.symm _ hfirst with ⟨-, hlt | hrepeats⟩ | ⟨hno, -⟩
  · exact absurd hlt (by decide)
  · exact absurd (hrepeats ⟨0, by decide⟩) (by decide)
  · exact hno rfl

end Started

end Libtuntap
