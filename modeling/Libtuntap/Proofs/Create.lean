import Libtuntap.Effect.Wp
import Libtuntap.Proofs.Requests

/-!
# The unit FreeBSD creates

A wildcard start on FreeBSD asks for one interface after another until one is
created, and opens the node of that one. The loop is left in four ways, and
three of them are sound: an error returns, an interface that exists goes on to
the next, and a creation jumps out with its unit. The fourth is the end of the
loop. When all 256 units exist it falls through to the same label, and the unit
opened is 256, which nothing has created.

How each creation ends is fixed beforehand. What the start has created, what
was refused it and what it has opened is what the state keeps.
-/

namespace Libtuntap

open Effect CMem

/-- How a creation ends. -/
inductive Creation where
  | created
  | existed
  | failed
deriving DecidableEq, Repr

/-- What a start has done. -/
structure Done where
  created : List Nat
  failed : List Nat
  opened : List CString

def Done.nothing : Done := ⟨[], [], []⟩

/-- The creations of a type, by unit, with their results. -/
def Creating (type : CString) (results : Nat → Creation) (s : Done) :
    (c : Call) → Resp c → Done → Prop
  | .ioctl _ .siocifcreate2 arg, r, s' =>
      ∀ u : Nat, (ifrName arg).cstr = type ++ CString.int u →
        match results u with
        | .created => 0 ≤ r.ret ∧ s' = { s with created := u :: s.created }
        | .existed => r.ret < 0 ∧ r.errno = .eexist ∧ s' = s
        | .failed => r.ret < 0 ∧ r.errno ≠ .eexist ∧ s' = { s with failed := u :: s.failed }
  | .open path, _, s' => s' = { s with opened := path :: s.opened }
  | _, _, s' => s' = s

def creating (type : CString) (results : Nat → Creation) : Kernel Call Resp Done :=
  Creating type results

/-- The units before this one exist. -/
def ExistBefore (results : Nat → Creation) (first u : Nat) : Prop :=
  ∀ v, first ≤ v → v < u → results v = .existed

/-- How the loop ends: with a unit it has created, with an error, or with all
the units there. -/
inductive LoopEnds (results : Nat → Creation) (first : Nat) : Option Int → Done → Prop where
  | created (u : Nat) (hlt : (u : Int) < tuntapIdMax) (hu : results u = .created)
      (hbefore : ExistBefore results first u) : LoopEnds results first (some u) ⟨[u], [], []⟩
  | failed (u : Nat) (hlt : (u : Int) < tuntapIdMax) (hu : results u = .failed)
      (hbefore : ExistBefore results first u) : LoopEnds results first none ⟨[], [u], []⟩
  | ranOut (hbefore : ExistBefore results first tuntapIdMax.toNat) :
      LoopEnds results first (some tuntapIdMax) Done.nothing

theorem LoopEnds.opened {results : Nat → Creation} {first : Nat} {o : Option Int} {s : Done}
    (h : LoopEnds results first o s) : s.opened = [] := by
  cases h <;> rfl

section Loop

variable {type : CString} {results : Nat → Creation} {first u : Nat} {dev : Device}
  {s : Done} {o : Option Int}

theorem ExistBefore.cons (hfirst : results first = .existed)
    (h : ExistBefore results (first + 1) u) : ExistBefore results first u := by
  intro v hle hlt
  by_cases hv : v = first
  · rw [hv]
    exact hfirst
  · exact h v (by omega) hlt

theorem LoopEnds.cons (hfirst : results first = .existed)
    (h : LoopEnds results (first + 1) o s) : LoopEnds results first o s := by
  cases h with
  | created u hlt hu hbefore => exact .created u hlt hu (hbefore.cons hfirst)
  | failed u hlt hu hbefore => exact .failed u hlt hu (hbefore.cons hfirst)
  | ranOut hbefore => exact .ranOut (hbefore.cons hfirst)

/-- What `tuntap_sys_create_dev` makes of the reply. -/
theorem FreeBsd.tuntapSysCreateDev_wp (htype : type.strlen = 3)
    (hu : (u : Int) ≤ tuntapIdMax) :
    (FreeBsd.tuntapSysCreateDev dev type u).Wp (creating type results) (fun result t =>
      match results u with
      | .created => result = 1 ∧ t = { s with created := u :: s.created }
      | .existed => result = 0 ∧ t = s
      | .failed => result = -1 ∧ t = { s with failed := u :: s.failed }) s := by
  have hname := cstr_requested (n := 32) Buf.zero (by omega)
    (strlen_unit_le htype (Int.natCast_nonneg u) hu)
  unfold FreeBsd.tuntapSysCreateDev
  refine (Prog.wp_call_bind _ _).mpr fun r t hs => ?_
  have hgave := hs u hname
  cases hres : results u with
  | created =>
      rw [hres] at hgave
      obtain ⟨hret, rfl⟩ := hgave
      rw [if_neg (show ¬ r.ret < 0 by omega)]
      exact ⟨rfl, rfl⟩
  | existed =>
      rw [hres] at hgave
      obtain ⟨hret, herrno, rfl⟩ := hgave
      rw [if_pos hret, if_pos herrno]
      exact ⟨rfl, rfl⟩
  | failed =>
      rw [hres] at hgave
      obtain ⟨hret, herrno, rfl⟩ := hgave
      rw [if_pos hret, if_neg herrno]
      exact ⟨rfl, rfl⟩

theorem FreeBsd.createLoop_wp (htype : type.strlen = 3) (n first : Nat)
    (hn : n + first = tuntapIdMax.toNat) :
    (FreeBsd.createLoop dev type n first).Wp (creating type results)
      (LoopEnds results first) Done.nothing := by
  induction n generalizing first with
  | zero =>
      have hfirst : first = tuntapIdMax.toNat := by omega
      rw [hfirst]
      exact .ranOut fun v hle hlt => by omega
  | succ n ih =>
      have hmax : tuntapIdMax.toNat = 256 := rfl
      have hlt : (first : Int) < tuntapIdMax := by
        show (first : Int) < 256
        omega
      unfold FreeBsd.createLoop
      refine (FreeBsd.tuntapSysCreateDev_wp htype (le_of_lt hlt)).bind fun result t h => ?_
      cases hres : results first with
      | created =>
          rw [hres] at h
          obtain ⟨rfl, rfl⟩ := h
          rw [if_neg (by decide), if_neg (by decide)]
          exact .created first hlt hres fun v hle hv => by omega
      | failed =>
          rw [hres] at h
          obtain ⟨rfl, rfl⟩ := h
          rw [if_pos rfl]
          intro _ t hlog
          obtain rfl : t = _ := hlog
          exact .failed first hlt hres fun v hle hv => by omega
      | existed =>
          rw [hres] at h
          obtain ⟨rfl, rfl⟩ := h
          rw [if_neg (by decide), if_pos rfl, show (first : Int) + 1 = (first + 1 : Nat) by omega]
          refine (ih (first + 1) (by omega)).mono fun o t hend => hend.cons hres

end Loop

/-! ## The start -/

/-- The interface type of a mode. -/
def iftype (mode : Mode) : CString :=
  CString.lit (if mode.clearPersist = tuntapModeEthernet then "tap" else "tun")

def Mode.IsValid (mode : Mode) : Prop :=
  mode.clearPersist = tuntapModeEthernet ∨ mode.clearPersist = tuntapModeTunnel

/-- How the start ends: it opens the unit the loop has ended with, if it has. -/
def StartEnds (type : CString) (results : Nat → Creation) (r : Int × Device) (t : Done) : Prop :=
  ∃ o s, LoopEnds results 0 o s ∧
    match o with
    | some unit => t = { s with opened := [Bsd.devNode type unit] }
    | none => r.1 = -1 ∧ t = s

section Start

variable {results : Nat → Creation} {dev : Device} {mode : Mode} {r : Int × Device} {s t : Done}

/-- A call that neither creates nor opens. -/
def Passive : Call → Prop
  | .ioctl _ req _ => req ≠ .siocifcreate2
  | .open _ => False
  | _ => True

theorem Passive.kept {type : CString} {c : Call} {r : Resp c} (hc : Passive c)
    (h : creating type results s c r t) : t = s := by
  cases c with
  | ioctl fd req arg =>
      cases req with
      | siocifcreate2 => exact absurd rfl hc
      | _ => exact h
  | «open» path => exact hc.elim
  | _ => exact h

theorem Passive.wp {type : CString} {p : Sys (Int × Device)} (hp : p.AllCalls Passive) :
    p.Wp (creating type results) (fun _ t => t = s) s :=
  hp.wp rfl fun _ hc _ _ _ hk hm => (hc.kept hk).trans hm

theorem FreeBsd.tuntapSysStart_wp :
    (FreeBsd.tuntapSysStart dev mode tuntapIdAny).Wp (creating (iftype mode) results)
      (fun r t => ¬ mode.IsValid ∧ r.1 = -1 ∧ t = Done.nothing ∨
        mode.IsValid ∧ StartEnds (iftype mode) results r t) Done.nothing := by
  have htype : (iftype mode).strlen = 3 := by
    unfold iftype
    split <;> decide
  dsimp only [FreeBsd.tuntapSysStart]
  rw [Mode.clearPersist_eq]
  refine (Prog.wp_ite _ _ _).mpr ⟨fun hbad => ?_, fun hmode => ?_⟩
  · intro _ t hlog
    exact Or.inl ⟨fun hvalid => hvalid.elim hbad.1 hbad.2, rfl, hlog⟩
  · have hvalid : mode.IsValid := by
      unfold Mode.IsValid
      by_contra hno
      exact hmode ⟨fun h => hno (Or.inl h), fun h => hno (Or.inr h)⟩
    unfold FreeBsd.createIfRequired
    rw [if_neg (show ¬ tuntapIdAny < tuntapIdMax by decide), if_pos rfl]
    refine (FreeBsd.createLoop_wp htype _ 0 rfl).bind fun o s hend => ?_
    cases o with
    | none => exact Or.inr ⟨hvalid, none, s, hend, rfl, rfl⟩
    | some unit =>
        refine (Prog.wp_call_bind _ _).mpr fun fd t hopen => ?_
        refine (Passive.wp (s := t) ?_).mono fun r t' ht' => ?_
        · simp [Passive]
        · refine Or.inr ⟨hvalid, some unit, s, hend, ?_⟩
          show t' = { s with opened := [Bsd.devNode (iftype mode) unit] }
          rw [ht', show t = _ from hopen, hend.opened]
          rfl

end Start

/-! ## The interface it uses -/

/-- The interfaces there were, and how the creations agree with them. -/
structure Agrees (existing : Nat → Prop) (results : Nat → Creation) : Prop where
  created : ∀ u, results u = .created → ¬ existing u
  existed : ∀ u, results u = .existed → existing u

/-- A start uses an interface of its own, the lowest there was not, and when
there is none to be had it opens nothing. -/
structure CreateRight (type : CString) (existing : Nat → Prop) (r : Int × Device) (t : Done) :
    Prop where
  own : ∀ path ∈ t.opened, ∃ u : Nat, (u : Int) < tuntapIdMax ∧ path = Bsd.devNode type u ∧
    u ∈ t.created ∧ ¬ existing u ∧ ∀ v < u, existing v
  taken : (∀ u : Nat, (u : Int) < tuntapIdMax → existing u) → r.1 = -1 ∧ t.opened = []
  refused : t.failed ≠ [] → r.1 = -1 ∧ t.opened = []

section Right

variable {results : Nat → Creation} {existing : Nat → Prop} {dev : Device} {mode : Mode}
  {type : CString} {tr : List (Event Call Resp)} {r : Int × Device} {t : Done}

/-- Nothing opened is right. -/
theorem CreateRight.of_none (hr : r.1 = -1) (ht : t.opened = []) :
    CreateRight type existing r t where
  own path hpath := by
    rw [ht] at hpath
    cases hpath
  taken _ := ⟨hr, ht⟩
  refused _ := ⟨hr, ht⟩

theorem StartEnds.right_iff (hagrees : Agrees existing results)
    (h : StartEnds type results r t) :
    CreateRight type existing r t ↔ ∃ u : Nat, (u : Int) < tuntapIdMax ∧ results u ≠ .existed := by
  obtain ⟨o, s, hend, ht⟩ := h
  cases hend with
  | created u hlt hu hbefore =>
      obtain rfl : t = ⟨[u], [], [Bsd.devNode type u]⟩ := ht
      have hnew := hagrees.created u hu
      refine iff_of_true ⟨?_, fun hall => absurd (hall u hlt) hnew, fun hf => absurd rfl hf⟩
        ⟨u, hlt, by rw [hu]; decide⟩
      intro path hpath
      obtain rfl := List.mem_singleton.mp hpath
      exact ⟨u, hlt, rfl, List.mem_singleton_self u, hnew,
        fun v hv => hagrees.existed v (hbefore v (Nat.zero_le v) hv)⟩
  | failed u hlt hu hbefore =>
      obtain ⟨hr, rfl⟩ := ht
      exact iff_of_true (.of_none hr rfl) ⟨u, hlt, by rw [hu]; decide⟩
  | ranOut hbefore =>
      have hall : ∀ u : Nat, (u : Int) < tuntapIdMax → results u = .existed := by
        intro u hlt
        have hmax : (u : Int) < 256 := hlt
        exact hbefore u (Nat.zero_le u) (show u < 256 by omega)
      obtain rfl : t = ⟨[], [], [Bsd.devNode type tuntapIdMax]⟩ := ht
      refine iff_of_false (fun hright => ?_) fun ⟨u, hlt, hu⟩ => hu (hall u hlt)
      have hopened := (hright.taken fun u hlt => hagrees.existed u (hall u hlt)).2
      cases hopened

/-- For every set of interfaces and every result of each creation, a wildcard
start uses what it has created exactly when some unit below the maximum is not
answered to exist already. -/
theorem create_right_iff (hagrees : Agrees existing results)
    (hr : (FreeBsd.tuntapSysStart dev mode tuntapIdAny).Runs tr r)
    (hs : (creating (iftype mode) results).Steps Done.nothing tr t) :
    CreateRight (iftype mode) existing r t ↔
      ¬ mode.IsValid ∨ ∃ u : Nat, (u : Int) < tuntapIdMax ∧ results u ≠ .existed := by
  rcases FreeBsd.tuntapSysStart_wp.of_runs hr hs with ⟨hmode, hneg, rfl⟩ | ⟨hmode, hend⟩
  · exact iff_of_true (.of_none hneg rfl) (Or.inl hmode)
  · rw [hend.right_iff hagrees]
    exact ⟨Or.inr, fun h => h.resolve_left (not_not.mpr hmode)⟩

/-- The results are those of some kernel. -/
theorem creating_replies (type : CString) (results : Nat → Creation) (s : Done) (c : Call) :
    ∃ r t, creating type results s c r t := by
  cases c with
  | ioctl fd req arg =>
      by_cases hunit : req = .siocifcreate2 ∧ ∃ u : Nat, (ifrName arg).cstr = type ++ CString.int u
      · obtain ⟨rfl, u, hu⟩ := hunit
        have hsame : ∀ v : Nat, (ifrName arg).cstr = type ++ CString.int v → v = u := fun v hv =>
          CString.int_inj (CString.append_left_cancel (hv.symm.trans hu))
        cases hres : results u with
        | created =>
            refine ⟨⟨0, .other⟩, { s with created := u :: s.created }, fun v hv => ?_⟩
            rw [hsame v hv, hres]
            exact ⟨show (0 : Int) ≤ 0 by decide, rfl⟩
        | existed =>
            refine ⟨⟨-1, .eexist⟩, s, fun v hv => ?_⟩
            rw [hsame v hv, hres]
            exact ⟨show (-1 : Int) < 0 by decide, rfl, rfl⟩
        | failed =>
            refine ⟨⟨-1, .other⟩, { s with failed := u :: s.failed }, fun v hv => ?_⟩
            rw [hsame v hv, hres]
            exact ⟨show (-1 : Int) < 0 by decide, show Errno.other ≠ .eexist by decide, rfl⟩
      · refine ⟨⟨0, .other⟩, s, ?_⟩
        cases req with
        | siocifcreate2 => exact fun u hu => absurd ⟨rfl, u, hu⟩ hunit
        | _ => rfl
  | «open» path => exact ⟨(3 : Int), { s with opened := path :: s.opened }, rfl⟩
  | _ => exact ⟨Classical.ofNonempty, s, rfl⟩

/-- tun0 exists, and tun1 can be created. -/
theorem create_right_second : ∃ tr r t,
    (FreeBsd.tuntapSysStart Device.init tuntapModeTunnel tuntapIdAny).Runs tr r ∧
      (creating (iftype tuntapModeTunnel) (fun u => if u = 0 then .existed else .created)).Steps
        Done.nothing tr t ∧
      CreateRight (iftype tuntapModeTunnel) (fun u => u = 0) r t := by
  obtain ⟨tr, r, t, hr, hs⟩ := Kernel.exists_steps
    (creating_replies (iftype tuntapModeTunnel) (fun u => if u = 0 then .existed else .created))
    (FreeBsd.tuntapSysStart Device.init tuntapModeTunnel tuntapIdAny) Done.nothing
  have hagrees : Agrees (fun u => u = 0) (fun u => if u = 0 then .existed else .created) := by
    constructor
    · intro u hu h0
      rw [if_pos h0] at hu
      cases hu
    · intro u hu
      by_contra h0
      rw [if_neg h0] at hu
      cases hu
  exact ⟨tr, r, t, hr, hs, (create_right_iff hagrees hr hs).mpr
    (Or.inr ⟨1, by decide, by decide⟩)⟩

/-- All the interfaces tun0 to tun255 exist, and the start opens the node of
tun256. -/
theorem create_falls_through : ¬ ∀ (existing : Nat → Prop) (results : Nat → Creation)
    (dev : Device) (mode : Mode) (tr : List (Event Call Resp)) (r : Int × Device) (t : Done),
    Agrees existing results → (FreeBsd.tuntapSysStart dev mode tuntapIdAny).Runs tr r →
      (creating (iftype mode) results).Steps Done.nothing tr t →
        CreateRight (iftype mode) existing r t := by
  intro hclaim
  obtain ⟨tr, r, t, hr, hs⟩ := Kernel.exists_steps
    (creating_replies (iftype tuntapModeTunnel) (fun _ => .existed))
    (FreeBsd.tuntapSysStart Device.init tuntapModeTunnel tuntapIdAny) Done.nothing
  have hagrees : Agrees (fun _ => True) (fun _ => .existed) := by
    refine ⟨fun u hu => ?_, fun u _ => trivial⟩
    cases hu
  have hright := hclaim _ _ _ _ _ _ _ hagrees hr hs
  rcases FreeBsd.tuntapSysStart_wp.of_runs hr hs with ⟨hmode, -⟩ | ⟨-, hend⟩
  · exact hmode (Or.inr (by decide))
  · obtain ⟨u, -, hu⟩ := (hend.right_iff hagrees).mp hright
    exact hu rfl

end Right

end Libtuntap
