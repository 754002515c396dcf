import Libtuntap.Proofs.Requests
import Libtuntap.Effect.Wp

/-!
# The length of a description

Three places count the terminator of a description. The kernel counts it and
refuses what is then longer than its limit. The getter counts it, with a buffer
of the limit. The setter does not: it warns when the string alone is longer than
the limit, and passes it on as it is. So a string as long as the limit is
refused with no warning, and a longer one is announced to be truncated and is
refused too. What is left is the strings that fit.

The state of the kernel is the description, and whether the warning was logged.
FreeBSD goes by the length in the request: it keeps all but the last of that many
bytes. OpenBSD has no length to go by and reads the string to its end. A getter's
buffer that is too small for the description has nothing certain in it
afterwards, though the request succeeds.
-/

namespace Libtuntap

open Effect CMem

/-- `IF_DESCRSIZE` and `IFDESCRSIZE`. -/
def Os.descrLimit : Os → Nat
  | .freeBsd => FreeBsd.ifDescrsize
  | .openBsd => OpenBsd.ifdescrsize
  | _ => 0

/-- The back ends with descriptions. -/
def Os.HasDescr (os : Os) : Prop := os = .freeBsd ∨ os = .openBsd

/-- The warning of the setters. -/
def tooLong : CString := CString.lit "Parameter 'descr' is too long"

/-- The description of an interface. -/
structure Described where
  descr : CString
  warned : Bool

/-- The text a kernel takes from a request that hands over `len` bytes of `str`, and
the bytes it takes up. -/
def Os.descrHanded (os : Os) (str : CString) (len : Nat) : CString × Nat :=
  match os with
  | .freeBsd => (str.take (len - 1), len)
  | _ => (str, str.strlen + 1)

/-- A request that is about the interface of the device and hands over no more than
the limit. -/
def Describes (os : Os) (dev : Device) (fd : Int) {n : Nat} (arg : Buf n) (str : CString)
    (len : Nat) : Prop :=
  fd = dev.ctrlSock ∧ Names dev n arg ∧ (os.descrHanded str len).2 ≤ os.descrLimit

/-- One call, with an interface of the device's name under its control socket. A
description takes up at most the limit with its terminator, and a longer one is
refused. There is no other fault. -/
def Described.Step (os : Os) (dev : Device) (s : Described) :
    (c : Call) → Resp c → Described → Prop
  | .ioctlStr fd .siocsifdescr arg str len, r, s' =>
      Describes os dev fd arg str len ∧ r.ret = 0 ∧
          s' = { s with descr := (os.descrHanded str len).1 } ∨
        ¬ Describes os dev fd arg str len ∧ r.ret = -1 ∧ s' = s
  | .ioctlGetStr fd .siocgifdescr arg len, r, s' =>
      s' = s ∧ (fd = dev.ctrlSock → Names dev _ arg →
        r.ret = 0 ∧ (s.descr.strlen + 1 ≤ len → r.arg.cstr = s.descr))
  | .log level msg, _, s' =>
      s' = if level = .warn ∧ msg = tooLong then { s with warned := true } else s
  | _, _, s' => s' = s

def describing (os : Os) (dev : Device) : Kernel Call Resp Described :=
  Described.Step os dev

/-- A description is set, and then asked for. -/
def setThenGet (os : Os) (dev : Device) (s : CString) : Sys (Int × CString) := do
  let n ← tuntapSetDescr os dev (some s)
  let descr ← tuntapGetDescr os dev
  return (n, descr)

/-- What the warning and the two answers are to be. -/
structure RoundTrips (limit : Nat) (s : CString) (out : Int × CString) (warned : Bool) :
    Prop where
  exact_warning : warned = true ↔ ¬ s.strlen < limit
  stored : warned = false → out = (0, s)
  truncated : warned = true → out = (0, s.take (limit - 1))

/-! ## The two calls -/

section Calls

variable {os : Os} {dev : Device} {s : CString} {limit : Nat} {k : Described}

/-- What a setter answers and leaves: the new description, or the old one and
perhaps the warning. -/
def SetOutcome (limit : Nat) (old s : CString) (v : Int) (k : Described) : Prop :=
  s.strlen < limit ∧ v = 0 ∧ k = ⟨s, false⟩ ∨
    limit ≤ s.strlen ∧ v = -1 ∧ k = ⟨old, decide (limit < s.strlen)⟩

/-- The string of a setter is handed over whole. -/
theorem Os.descrHanded_whole (os : Os) (s : CString) :
    os.descrHanded s (s.strlen + 1) = (s, s.strlen + 1) := by
  cases os with
  | freeBsd => exact Prod.ext (CString.take_of_strlen_le (Nat.le_refl _)) rfl
  | _ => rfl

theorem describes_iff {n : Nat} {arg : Buf n} (hn : Names dev n arg) :
    Describes os dev dev.ctrlSock arg s (s.strlen + 1) ↔ s.strlen < os.descrLimit := by
  unfold Describes
  rw [os.descrHanded_whole]
  exact ⟨fun h => h.2.2, fun h => ⟨rfl, hn, h⟩⟩

/-- The request of a setter, behind the comparison. -/
theorem describe_wp {n : Nat} {arg : Buf n} {old : CString} (hn : Names dev n arg) :
    (ioctlStr dev.ctrlSock .siocsifdescr arg s (s.strlen + 1) >>= fun r =>
      if r.ret = -1 then
        tuntapLog .err "Can't set the interface description" >>= fun _ => Prog.ret (-1 : Int)
      else Prog.ret 0).Wp (describing os dev) (SetOutcome os.descrLimit old s)
        ⟨old, decide (os.descrLimit < s.strlen)⟩ := by
  refine (Prog.wp_call_bind _ _).mpr fun r k₁ hs => ?_
  rcases hs with ⟨hdescribes, hret, rfl⟩ | ⟨hno, hret, rfl⟩
  · have hfits := (describes_iff hn).mp hdescribes
    have hunwarned : decide (os.descrLimit < s.strlen) = false := decide_eq_false (by omega)
    rw [if_neg (by omega), hunwarned, os.descrHanded_whole]
    exact Or.inl ⟨hfits, rfl, rfl⟩
  · rw [if_pos hret]
    intro _ k₂ hlog
    exact Or.inr ⟨Nat.not_lt.mp fun hfits => hno ((describes_iff hn).mpr hfits), rfl, hlog⟩

/-- The comparison in front of the request. -/
theorem warn_wp {p : Sys Int} {descr : CString} {Q : Int → Described → Prop}
    (hp : p.Wp (describing os dev) Q ⟨descr, decide (limit < s.strlen)⟩) :
    (if s.strlen > limit then
      tuntapLog .warn "Parameter 'descr' is too long" >>= fun _ => p
    else p).Wp (describing os dev) Q ⟨descr, false⟩ := by
  refine (Prog.wp_ite _ _ _).mpr ⟨fun hlong _ k₁ hlog => ?_, fun hshort => ?_⟩
  · have hwarned : k₁ = ⟨descr, true⟩ := by
      rw [show k₁ = _ from hlog, if_pos ⟨rfl, rfl⟩]
    rw [hwarned, ← decide_eq_true hlong]
    exact hp
  · rw [← decide_eq_false hshort]
    exact hp

/-- The setter warns about what is longer than the limit and passes it on. -/
theorem tuntapSetDescr_wp (hos : os.HasDescr) (old : CString) :
    (tuntapSetDescr os dev (some s)).Wp (describing os dev)
      (SetOutcome os.descrLimit old s) ⟨old, false⟩ := by
  rcases hos with rfl | rfl
  · exact warn_wp (describe_wp names_freeBsd)
  · exact warn_wp (describe_wp (names_reqNamed (by decide)))

/-- The getter has room for whatever a setter may store. -/
theorem tuntapGetDescr_wp (hos : os.HasDescr) :
    (tuntapGetDescr os dev).Wp (describing os dev)
      (fun descr k' => k' = k ∧ (k.descr.strlen < os.descrLimit → descr = k.descr)) k := by
  rcases hos with rfl | rfl
  · refine (Prog.wp_call_bind _ _).mpr fun r k₁ hs => ?_
    obtain ⟨rfl, hget⟩ := hs
    obtain ⟨hret, hdescr⟩ := hget rfl names_freeBsd
    rw [if_neg (by omega)]
    exact ⟨rfl, hdescr⟩
  · refine (Prog.wp_call_bind _ _).mpr fun r k₁ hs => ?_
    obtain ⟨rfl, hget⟩ := hs
    obtain ⟨hret, hdescr⟩ := hget rfl (names_reqNamed (by decide))
    rw [if_neg (by omega)]
    exact ⟨rfl, hdescr⟩

end Calls

/-! ## The round trip -/

section RoundTrip

variable {os : Os} {dev : Device} {s : CString} {old : CString} {limit : Nat}
  {out : Int × CString}

theorem setThenGet_wp (hos : os.HasDescr) :
    (setThenGet os dev s).Wp (describing os dev)
      (fun out k => SetOutcome os.descrLimit old s out.1 k ∧
        (k.descr.strlen < os.descrLimit → out.2 = k.descr)) ⟨old, false⟩ := by
  refine (tuntapSetDescr_wp hos old).bind fun n k hset => ?_
  refine (tuntapGetDescr_wp hos).bind fun descr k' hget => ?_
  obtain ⟨rfl, hdescr⟩ := hget
  exact ⟨hset, hdescr⟩

theorem SetOutcome.roundTrips_iff {k : Described} (h : SetOutcome limit old s out.1 k)
    (hget : k.descr.strlen < limit → out.2 = k.descr) :
    RoundTrips limit s out k.warned ↔ s.strlen < limit := by
  rcases h with ⟨hlt, hn, rfl⟩ | ⟨hle, hn, rfl⟩
  · refine iff_of_true ⟨?_, fun _ => Prod.ext hn (hget hlt), fun h => by cases h⟩ hlt
    exact iff_of_false Bool.false_ne_true (not_not.mpr hlt)
  · refine iff_of_false (fun h => ?_) (by omega)
    have hanswer : out.1 = 0 := by
      cases hwarned : decide (limit < s.strlen) with
      | false => rw [h.stored hwarned]
      | true => rw [h.truncated hwarned]
    omega

/-- A description makes the round trip, with the warning where it belongs,
exactly when it fits with its terminator. -/
theorem descr_round_trip_iff {tr : List (Event Call Resp)} {k : Described} (hos : os.HasDescr)
    (hr : (setThenGet os dev s).Runs tr out)
    (hk : (describing os dev).Steps ⟨old, false⟩ tr k) :
    RoundTrips os.descrLimit s out k.warned ↔ s.strlen < os.descrLimit := by
  obtain ⟨hset, hget⟩ := (setThenGet_wp hos).of_runs hr hk
  exact hset.roundTrips_iff hget

end RoundTrip

/-! ## Runs on given strings -/

section Runs

variable {os : Os} {dev : Device} {s old : CString} {limit : Nat}

theorem describe_may {n : Nat} {arg : Buf n} {k : Described} (hn : Names dev n arg)
    (hk : k.descr.strlen < os.descrLimit) :
    (ioctlStr dev.ctrlSock .siocsifdescr arg s (s.strlen + 1) >>= fun r =>
      if r.ret = -1 then
        tuntapLog .err "Can't set the interface description" >>= fun _ => Prog.ret (-1 : Int)
      else Prog.ret 0).May (describing os dev) (fun _ k' => k'.descr.strlen < os.descrLimit) k := by
  refine (Prog.may_call_bind _ _).mpr ?_
  by_cases hfits : s.strlen < os.descrLimit
  · refine ⟨⟨0, .other⟩, { k with descr := s },
      Or.inl ⟨(describes_iff hn).mpr hfits, rfl, ?_⟩, hfits⟩
    rw [os.descrHanded_whole]
  · exact ⟨⟨-1, .other⟩, k, Or.inr ⟨fun h => hfits ((describes_iff hn).mp h), rfl, rfl⟩, (), k, rfl,
      hk⟩

theorem setDescr_may (hos : os.HasDescr) (hold : old.strlen < os.descrLimit) :
    (tuntapSetDescr os dev (some s)).May (describing os dev)
      (fun _ k => k.descr.strlen < os.descrLimit) ⟨old, false⟩ := by
  have hwarn : ∀ {p : Sys Int} {Q : Int → Described → Prop},
      (∀ warned, p.May (describing os dev) Q ⟨old, warned⟩) →
        (if s.strlen > os.descrLimit then
          tuntapLog .warn "Parameter 'descr' is too long" >>= fun _ => p
        else p).May (describing os dev) Q ⟨old, false⟩ := by
    intro p Q hp
    refine (Prog.may_ite _ _ _).mpr ?_
    by_cases hlong : s.strlen > os.descrLimit
    · exact Or.inl ⟨hlong, (), ⟨old, true⟩, (if_pos ⟨rfl, rfl⟩).symm, hp true⟩
    · exact Or.inr ⟨hlong, hp false⟩
  rcases hos with rfl | rfl
  · exact hwarn fun _ => describe_may names_freeBsd hold
  · exact hwarn fun _ => describe_may (names_reqNamed (by decide)) hold

/-- A buffer of the limit holds what is stored. -/
theorem getDescr_may (hos : os.HasDescr) {k : Described} (hk : k.descr.strlen < os.descrLimit) :
    (tuntapGetDescr os dev).May (describing os dev) (fun _ _ => True) k := by
  have hbuf : ∀ n, k.descr.strlen < n →
      ((Buf.zero : Buf n).strlcpy 0 k.descr n).cstr = k.descr := by
    intro n hn
    rw [← Buf.slice_self ((Buf.zero : Buf n).strlcpy 0 k.descr n),
      Buf.cstr_slice_strlcpy _ (by omega) (by omega) (by omega),
      CString.take_of_strlen_le (by omega)]
  rcases hos with rfl | rfl
  · exact ⟨⟨0, _⟩, k, ⟨rfl, fun _ _ => ⟨rfl, fun _ => hbuf _ hk⟩⟩, trivial⟩
  · exact ⟨⟨0, _⟩, k, ⟨rfl, fun _ _ => ⟨rfl, fun _ => hbuf _ hk⟩⟩, trivial⟩

/-- Every string can be tried. -/
theorem exists_setThenGet (os : Os) (hos : os.HasDescr) (hold : old.strlen < os.descrLimit)
    (dev : Device) (s : CString) : ∃ tr out k, (setThenGet os dev s).Runs tr out ∧
      (describing os dev).Steps ⟨old, false⟩ tr k := by
  have hmay : (setThenGet os dev s).May (describing os dev) (fun _ _ => True)
      ⟨old, false⟩ :=
    (setDescr_may hos hold).bind fun _ _ hk => (getDescr_may hos hk).bind fun _ _ _ => trivial
  obtain ⟨tr, out, k, hr, hs, -⟩ := (Prog.may_iff _).mp hmay
  exact ⟨tr, out, k, hr, hs⟩

end Runs

/-- A short description on FreeBSD. -/
theorem descr_round_trip_uplink : ∃ tr out k,
    (setThenGet .freeBsd Device.tun0 (CString.lit "uplink")).Runs tr out ∧
      (describing .freeBsd Device.tun0).Steps ⟨CString.lit "", false⟩ tr k ∧
        RoundTrips 1024 (CString.lit "uplink") out k.warned := by
  obtain ⟨tr, out, k, hr, hk⟩ := exists_setThenGet .freeBsd (Or.inl rfl)
    (by decide : (CString.lit "").strlen < 1024) Device.tun0 (CString.lit "uplink")
  exact ⟨tr, out, k, hr, hk,
    (descr_round_trip_iff (Or.inl rfl) hr hk).mpr (by decide)⟩

/-- 64 characters, as many as OpenBSD's limit. -/
def sixtyFour : CString := CString.ofBytes (List.replicate 64 97)

/-- They are refused, and nothing is said of their length. -/
theorem descr_refused_unwarned : ¬ ∀ (os : Os) (dev : Device) (s old : CString)
    (tr : List (Event Call Resp)) (out : Int × CString) (k : Described), os.HasDescr →
      old.strlen < os.descrLimit → (setThenGet os dev s).Runs tr out →
        (describing os dev).Steps ⟨old, false⟩ tr k →
          RoundTrips os.descrLimit s out k.warned := by
  intro hclaim
  obtain ⟨tr, out, k, hr, hk⟩ := exists_setThenGet .openBsd (Or.inr rfl)
    (by decide : (CString.lit "").strlen < 64) Device.tun0 sixtyFour
  have htrips := hclaim _ _ _ (CString.lit "") _ _ _ (Or.inr rfl) (by decide) hr hk
  obtain ⟨hset, hget⟩ := (setThenGet_wp (Or.inr rfl)).of_runs hr hk
  exact absurd ((hset.roundTrips_iff hget).mp htrips) (by decide)

end Libtuntap
