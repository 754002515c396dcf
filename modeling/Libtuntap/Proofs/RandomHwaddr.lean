import Libtuntap.Effect.Wp
import Libtuntap.Unix.Core

/-!
# Random addresses of several devices

`tuntap_set_hwaddr(dev, "random")` takes six bytes from the generator of the
process. Before it does so it seeds the generator with the time in seconds, on
every call. So the address is the first block of the stream that belongs to the
second of the call, whatever has been drawn before, and the blocks behind the
first, where a good generator differs, are never reached.

The host below is as much of a host as that takes: a generator, the seed it has
and how far it has been read, and what the clock will show. What it answers to
any other call is left open.
-/

namespace Libtuntap

open Effect CMem

/-- The bytes that follow a seed. -/
abbrev Generator := BitVec 32 → Nat → UInt8

/-- The generator of the process, and the readings the clock is going to give. -/
structure Entropy where
  seed : BitVec 32
  pos : Nat
  clock : List Int

/-- A host with this generator. -/
def host (gen : Generator) : Kernel Call Resp Entropy := fun s c r s' =>
  match c, r with
  | .time, now => ∃ rest, s.clock = now :: rest ∧ s' = { s with clock := rest }
  | .srandom seed, _ => s' = { s with seed := seed, pos := 0 }
  | .random, r => UInt8.ofNat r = gen s.seed s.pos ∧ s' = { s with pos := s.pos + 1 }
  | _, _ => s' = s

/-- Block number `k` of a stream, masked as an address. -/
def maskedBlock (stream : Nat → UInt8) (k : Nat) : Buf 6 := fun i =>
  if i.val = 0 then stream (6 * k) &&& 0xfc else stream (6 * k + i)

/-- The first `n` blocks that follow a seed are pairwise different. -/
def BlocksDiffer (gen : Generator) (n : Nat) : Prop :=
  ∀ seed, ∀ k < n, ∀ l < n, maskedBlock (gen seed) k = maskedBlock (gen seed) l → k = l

/-- `tuntap_set_hwaddr(dev, "random")`, on one device after the other. -/
def setRandomHwaddrs (os : Os) (libc : Libc) : List Device → Sys (List (Int × Device))
  | [] => return []
  | dev :: devs => do
      let r ← tuntapSetHwaddr os libc dev (CString.lit "random")
      let rs ← setRandomHwaddrs os libc devs
      return r :: rs

/-- These calls have succeeded at these readings of the clock. -/
def Succeeded (gen : Generator) (os : Os) (libc : Libc) (devs : List Device) (clock : List Int)
    (rs : List (Int × Device)) : Prop :=
  (∀ r ∈ rs, r.1 = 0) ∧ ∃ tr s s', (setRandomHwaddrs os libc devs).Runs tr rs ∧
    (host gen).Steps s tr s' ∧ s.clock = clock ∧ s'.clock = []

def SameSecond (clock : List Int) : Prop := ∀ now ∈ clock, ∀ now' ∈ clock, now = now'

/-! ## One call -/

/-- The address that belongs to a second. -/
def addressAt (gen : Generator) (now : Int) : Buf 6 := maskedBlock (gen (BitVec.ofInt 32 now)) 0

section Call

variable {gen : Generator} {os : Os} {libc : Libc} {dev : Device} {s : Entropy}

theorem fillRandom_wp (n i : Nat) (ethRand : Buf 6) (hi : i + n ≤ 6) :
    (fillRandom n i ethRand).Wp (host gen) (fun a s' => s'.clock = s.clock ∧
      ∀ j < 6, a.byte j = if i ≤ j ∧ j < i + n then gen s.seed (s.pos + (j - i))
        else ethRand.byte j) s := by
  induction n generalizing i ethRand s with
  | zero =>
      refine ⟨rfl, fun j _ => ?_⟩
      rw [if_neg (by omega)]
  | succ n ih =>
      rintro r s' ⟨hr, rfl⟩
      refine (ih (i + 1) _ (by omega)).mono fun a s' h => ?_
      obtain ⟨hclock, hbytes⟩ := h
      refine ⟨hclock, fun j hj => ?_⟩
      rw [hbytes j hj, Buf.byte_memset]
      by_cases hij : j = i
      · subst hij
        rw [if_neg (by omega), if_pos (by omega), if_pos (by omega), hr, Nat.sub_self]
        rfl
      · by_cases hlt : i ≤ j ∧ j < i + (n + 1)
        · rw [if_pos (by omega), if_pos hlt]
          show gen s.seed (s.pos + 1 + (j - (i + 1))) = _
          rw [show s.pos + 1 + (j - (i + 1)) = s.pos + (j - i) by omega]
        · rw [if_neg (by omega), if_neg (by omega), if_neg hlt]

theorem byte_maskedBlock (stream : Nat → UInt8) (k : Nat) {j : Nat} (hj : j < 6) :
    (maskedBlock stream k).byte j =
      if j = 0 then stream (6 * k) &&& 0xfc else stream (6 * k + j) := by
  rw [Buf.byte_of_lt hj]
  rfl

/-- Whatever has been drawn before, the address is that of the second. -/
theorem randomHwaddr_wp : randomHwaddr.Wp (host gen) (fun a s' =>
    ∃ now, s.clock = now :: s'.clock ∧ a = addressAt gen now) s := by
  rintro ethRand s₁ rfl now s₂ ⟨rest, hclock, rfl⟩ _ s₃ rfl
  refine (fillRandom_wp 6 0 ethRand (by omega)).bind fun a s' h => ?_
  obtain ⟨hrest, hdrawn⟩ := h
  have hbytes : ∀ j < 6, a.byte j = gen (BitVec.ofInt 32 now) j := by
    intro j hj
    rw [hdrawn j hj, if_pos (by omega)]
    show gen (BitVec.ofInt 32 now) (0 + (j - 0)) = _
    rw [Nat.zero_add, Nat.sub_zero]
  refine ⟨now, hclock.trans (by rw [hrest]), Buf.ext_byte fun j hj => ?_⟩
  unfold addressAt
  rw [Buf.byte_memset, byte_maskedBlock _ _ hj, hbytes 0 (by omega), hbytes j hj, Nat.mul_zero]
  by_cases hzero : j = 0
  · rw [if_pos (by omega), if_pos hzero]
  · rw [if_neg (by omega), if_neg hzero, Nat.zero_add]

/-- A call that neither draws nor looks at the clock. -/
def Calm (gen : Generator) (c : Call) : Prop := ∀ s r s', host gen s c r s' → s' = s

theorem tuntapSysSetHwaddr_calm (gen : Generator) (os : Os) (dev : Device) (ethAddr : Buf 6) :
    (tuntapSysSetHwaddr os dev ethAddr).AllCalls (Calm gen) := by
  cases os <;> simp [tuntapSysSetHwaddr, Linux.tuntapSysSetHwaddr, FreeBsd.tuntapSysSetHwaddr,
    OpenBsd.tuntapSysSetHwaddr, NetBsd.tuntapSysSetHwaddr, Darwin.tuntapSysSetHwaddr, Calm, host]

/-- The request leaves the generator and the clock, and the record has the
address. -/
theorem setHwaddrTo_host (ethAddr : Buf 6) : (setHwaddrTo os dev ethAddr).Wp (host gen)
    (fun r s' => s' = s ∧ r.2.hwaddr = ethAddr) s := by
  have hcalm := tuntapSysSetHwaddr_calm gen os { dev with hwaddr := ethAddr } ethAddr
  have hidle := hcalm.wp (K := host gen) (J := fun s' => s' = s) rfl
    fun c hc m r m' hstep hm => (hc m r m' hstep).trans hm
  refine hidle.bind fun ret s' hs => ?_
  rw [Prog.wp_ite]
  exact ⟨fun _ => ⟨hs, rfl⟩, fun _ => ⟨hs, rfl⟩⟩

theorem tuntapSetHwaddr_random_wp :
    (tuntapSetHwaddr os libc dev (CString.lit "random")).Wp (host gen) (fun r s' =>
      ∃ now, s.clock = now :: s'.clock ∧ r.2.hwaddr = addressAt gen now) s := by
  unfold tuntapSetHwaddr
  rw [if_pos rfl]
  refine randomHwaddr_wp.bind fun a s' h => ?_
  obtain ⟨now, hclock, rfl⟩ := h
  refine (setHwaddrTo_host _).mono fun r s'' hset => ?_
  obtain ⟨rfl, haddr⟩ := hset
  exact ⟨now, hclock, haddr⟩

end Call

/-! ## One device after the other -/

section Calls

variable {gen : Generator} {os : Os} {libc : Libc} {devs : List Device} {clock : List Int}
  {rs : List (Int × Device)} {s : Entropy}

theorem setRandomHwaddrs_wp (devs : List Device) :
    (setRandomHwaddrs os libc devs).Wp (host gen) (fun rs s' => rs.length = devs.length ∧
      ∃ used, s.clock = used ++ s'.clock ∧ rs.map (·.2.hwaddr) = used.map (addressAt gen)) s := by
  induction devs generalizing s with
  | nil => exact ⟨rfl, [], rfl, rfl⟩
  | cons dev devs ih =>
      refine tuntapSetHwaddr_random_wp.bind fun r s₁ h => ?_
      obtain ⟨now, hclock, haddr⟩ := h
      refine ih.bind fun rs s₂ h => ?_
      obtain ⟨hlen, used, hused, haddrs⟩ := h
      refine ⟨by rw [List.length_cons, List.length_cons, hlen], now :: used, ?_, ?_⟩
      · rw [hclock, hused]
        rfl
      · rw [List.map_cons, List.map_cons, haddr, haddrs]

theorem Succeeded.addresses (h : Succeeded gen os libc devs clock rs) :
    rs.length = devs.length ∧ rs.map (·.2.hwaddr) = clock.map (addressAt gen) := by
  obtain ⟨-, tr, s, s', hruns, hsteps, rfl, hend⟩ := h
  obtain ⟨hlen, used, hused, haddrs⟩ := (setRandomHwaddrs_wp devs).of_runs hruns hsteps
  rw [hend, List.append_nil] at hused
  exact ⟨hlen, by rw [haddrs, hused]⟩

theorem Succeeded.same_address (h : Succeeded gen os libc devs clock rs) (hsame : SameSecond clock)
    {a a' : Buf 6} (ha : a ∈ rs.map (·.2.hwaddr)) (ha' : a' ∈ rs.map (·.2.hwaddr)) : a = a' := by
  rw [h.addresses.2] at ha ha'
  obtain ⟨now, hnow, rfl⟩ := List.mem_map.mp ha
  obtain ⟨now', hnow', rfl⟩ := List.mem_map.mp ha'
  rw [hsame now hnow now' hnow']

theorem pairwise_ne_iff_of_same {α : Type} {l : List α} (h : ∀ a ∈ l, ∀ b ∈ l, a = b) :
    l.Pairwise (· ≠ ·) ↔ l.length ≤ 1 := by
  match l with
  | [] => simp
  | [a] => simp
  | a :: b :: l =>
      have hab : a = b := h a (by simp) b (by simp)
      simp [hab]

theorem Succeeded.distinct_iff (h : Succeeded gen os libc devs clock rs)
    (hsame : SameSecond clock) :
    (rs.map (·.2.hwaddr)).Pairwise (· ≠ ·) ↔ devs.length ≤ 1 := by
  rw [pairwise_ne_iff_of_same fun a ha a' ha' => h.same_address hsame ha ha', List.length_map,
    h.addresses.1]

end Calls

/-! ## Calls that succeed -/

section Granted

variable {gen : Generator} {libc : Libc} {dev : Device} {s : Entropy}

theorem fillRandom_may (n i : Nat) (ethRand : Buf 6) :
    (fillRandom n i ethRand).May (host gen) (fun _ s' => s'.clock = s.clock) s := by
  induction n generalizing i ethRand s with
  | zero => rfl
  | succ n ih =>
      refine ⟨(gen s.seed s.pos).toNat, { s with pos := s.pos + 1 }, ?_, ?_⟩
      · exact ⟨UInt8.ofNat_toNat, rfl⟩
      · exact ih (s := { s with pos := s.pos + 1 }) (i + 1) _

theorem tuntapSetHwaddr_random_may {now : Int} {rest : List Int} (h : s.clock = now :: rest) :
    (tuntapSetHwaddr .linux libc dev (CString.lit "random")).May (host gen)
      (fun r s' => r.1 = 0 ∧ s'.clock = rest) s := by
  unfold tuntapSetHwaddr
  rw [if_pos rfl]
  have hrandom : randomHwaddr.May (host gen) (fun _ s' => s'.clock = rest) s := by
    refine ⟨Buf.zero, s, rfl, now, _, ⟨rest, h, rfl⟩, (), _, rfl, ?_⟩
    exact (fillRandom_may 6 0 Buf.zero).bind fun _ _ hclock => hclock
  refine hrandom.bind fun a s' hclock => ?_
  simp only [setHwaddrTo, tuntapSysSetHwaddr, Linux.tuntapSysSetHwaddr, Prog.bind_assoc]
  exact ⟨⟨0, .other⟩, s', rfl, rfl, hclock⟩

theorem setRandomHwaddrs_may (devs : List Device) (h : s.clock.length = devs.length) :
    (setRandomHwaddrs .linux libc devs).May (host gen)
      (fun rs s' => (∀ r ∈ rs, r.1 = 0) ∧ s'.clock = []) s := by
  induction devs generalizing s with
  | nil => exact ⟨fun r hr => absurd hr List.not_mem_nil, List.eq_nil_of_length_eq_zero h⟩
  | cons dev devs ih =>
      obtain ⟨now, rest, hclock⟩ := List.exists_cons_of_length_eq_add_one h
      refine (tuntapSetHwaddr_random_may hclock).bind fun r s₁ hr => ?_
      have hrest : s₁.clock.length = devs.length := by
        rw [hclock, List.length_cons, List.length_cons] at h
        rw [hr.2]
        omega
      refine (ih hrest).bind fun rs s₂ hrs => ?_
      refine ⟨fun x hx => ?_, hrs.2⟩
      rcases List.mem_cons.mp hx with rfl | hx
      · exact hr.1
      · exact hrs.1 x hx

/-- A kernel can grant every one of the calls, at any readings. -/
theorem exists_succeeded (gen : Generator) (libc : Libc) (devs : List Device) (clock : List Int)
    (h : clock.length = devs.length) : ∃ rs, Succeeded gen .linux libc devs clock rs := by
  have hmay : (setRandomHwaddrs .linux libc devs).May (host gen)
      (fun rs s' => (∀ r ∈ rs, r.1 = 0) ∧ s'.clock = []) ⟨0, 0, clock⟩ :=
    setRandomHwaddrs_may devs h
  obtain ⟨tr, rs, s', hruns, hsteps, hok, hend⟩ := (Prog.may_iff _).mp hmay
  exact ⟨rs, hok, tr, ⟨0, 0, clock⟩, s', hruns, hsteps, rfl, hend⟩

end Granted

/-! ## Two devices in one second -/

/-- A generator that numbers its blocks. -/
def counting : Generator := fun _ pos =>
  if pos % 6 = 0 then 0 else UInt8.ofNat (pos / 6 / 256 ^ (pos % 6 - 1))

theorem byte_counting (seed : BitVec 32) (k : Nat) {j : Nat} (hj : j < 5) :
    (maskedBlock (counting seed) k).byte (j + 1) = UInt8.ofNat (k / 256 ^ j) := by
  have hmod : (6 * k + (j + 1)) % 6 = j + 1 := by omega
  have hdiv : (6 * k + (j + 1)) / 6 = k := by omega
  rw [byte_maskedBlock _ _ (by omega), if_neg (by omega)]
  unfold counting
  rw [hmod, if_neg (by omega), hdiv, Nat.add_sub_cancel]

theorem counting_blocks : BlocksDiffer counting (2 ^ 40) := by
  intro seed k hk l hl heq
  have hbyte : ∀ j < 5, k / 256 ^ j % 256 = l / 256 ^ j % 256 := by
    intro j hj
    have hnat := congrArg (fun b : Buf 6 => (b.byte (j + 1)).toNat) heq
    simp only [byte_counting seed _ hj, UInt8.toNat_ofNat'] at hnat
    exact hnat
  have h0 := hbyte 0 (by omega)
  have h1 := hbyte 1 (by omega)
  have h2 := hbyte 2 (by omega)
  have h3 := hbyte 3 (by omega)
  have h4 := hbyte 4 (by omega)
  omega

def Device.onTap (fd : Int) : Device := { Device.init with tunFd := fd, ctrlSock := 3 }

theorem sameSecond_twice (now : Int) : SameSecond [now, now] := by
  intro a ha b hb
  simp only [List.mem_cons, List.not_mem_nil, or_false, or_self] at ha hb
  rw [ha, hb]

/-- Within a second the addresses are pairwise different when there is no pair. -/
theorem random_hwaddrs_distinct_iff {gen : Generator} {os : Os} {libc : Libc}
    {devs : List Device} {clock : List Int} {rs : List (Int × Device)}
    (h : Succeeded gen os libc devs clock rs) :
    (SameSecond clock → (rs.map (·.2.hwaddr)).Pairwise (· ≠ ·)) ↔
      ¬ SameSecond clock ∨ devs.length ≤ 1 := by
  by_cases hsame : SameSecond clock
  · rw [h.distinct_iff hsame]
    simp [hsame]
  · simp [hsame]

/-- Two devices, one reading twice, on the numbering generator. -/
theorem random_hwaddrs_two : ∃ rs, Succeeded counting .linux Libc.refusing [.onTap 4, .onTap 5]
    [1000000000, 1000000000] rs ∧
      ((SameSecond [1000000000, 1000000000] → (rs.map (·.2.hwaddr)).Pairwise (· ≠ ·)) ↔
        ¬ SameSecond [1000000000, 1000000000] ∨ [Device.onTap 4, .onTap 5].length ≤ 1) := by
  obtain ⟨rs, h⟩ := exists_succeeded counting Libc.refusing [.onTap 4, .onTap 5]
    [1000000000, 1000000000] rfl
  exact ⟨rs, h, random_hwaddrs_distinct_iff h⟩

/-- They have the same address. -/
theorem random_hwaddrs_collide : BlocksDiffer counting (2 ^ 40) ∧ ∃ rs, Succeeded counting .linux
    Libc.refusing [.onTap 4, .onTap 5] [1000000000, 1000000000] rs ∧
      ¬ (rs.map (·.2.hwaddr)).Pairwise (· ≠ ·) := by
  obtain ⟨rs, h⟩ := exists_succeeded counting Libc.refusing [.onTap 4, .onTap 5]
    [1000000000, 1000000000] rfl
  refine ⟨counting_blocks, rs, h, ?_⟩
  rw [h.distinct_iff (sameSecond_twice _)]
  decide

end Libtuntap
