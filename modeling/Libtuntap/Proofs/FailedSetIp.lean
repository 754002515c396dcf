import Libtuntap.Proofs.Inet6
import Libtuntap.Proofs.SetIp

/-!
# What a failed `tuntap_set_ip` leaves

Every back end changes the addressing by two requests, and none of them undoes
the first when the second is refused. So what a failure leaves is what the
requests granted before it left. After a deletion one address is gone. After the
IPv4 address of Linux and FreeBSD was taken and the mask refused, the interface
has the new address with the mask of its class. If neither was granted, nothing
has changed.

The trace says which requests were granted, so it is kept beside the state while
a program is walked.
-/

namespace Libtuntap

open Effect CMem

/-- A request of this kind, granted. -/
def Takes (req : Request) : Event Call Resp → Prop
  | ⟨.ioctl _ req' _, r⟩ => req' = req ∧ r.ret ≠ -1
  | _ => False

/-- Some request of this kind was granted. -/
def Took (req : Request) (tr : List (Event Call Resp)) : Prop := ∃ e ∈ tr, Takes req e

section Took

variable {req : Request} {tr tr' : List (Event Call Resp)}

@[simp] theorem took_nil : ¬ Took req [] := by
  rintro ⟨e, he, -⟩
  cases he

@[simp] theorem took_append : Took req (tr ++ tr') ↔ Took req tr ∨ Took req tr' := by
  simp only [Took, List.mem_append, or_and_right, exists_or]

@[simp] theorem took_ioctl {fd : Int} {req' : Request} {n : Nat} {arg : Buf n} {r : IoctlRet} :
    Took req [⟨.ioctl fd req' arg, r⟩] ↔ req' = req ∧ r.ret ≠ -1 := by
  unfold Took
  simp only [List.mem_singleton, exists_eq_left]
  exact Iff.rfl

end Took

/-- The IPv4 addresses a failure leaves, by what was granted before it. -/
structure LeftInet (R : Rules) (s4 : Buf 4) (inet : List (Buf 4 × Buf 4))
    (tr : List (Event Call Resp)) (inet' : List (Buf 4 × Buf 4)) : Prop where
  replaced : Took .siocsifaddr tr → inet' = [(s4, R.classMask s4)]
  removed : ¬ Took .siocsifaddr tr → Took .siocdifaddr tr → inet' = inet.drop 1
  same : ¬ Took .siocsifaddr tr → ¬ Took .siocdifaddr tr → inet' = inet

/-- The interface after a failure, and the trace to it. -/
def FailedInet (R : Rules) (s4 : Buf 4) (i : Nat) (f : Iface)
    (t : Kern × List (Event Call Resp)) : Prop :=
  ∃ f', t.1.ifs i = some f' ∧ f'.inet6 = f.inet6 ∧ LeftInet R s4 f.inet t.2 f'.inet

/-- Between the two nothing was granted. -/
def Idle (t t' : Kern × List (Event Call Resp)) : Prop :=
  t'.1 = t.1 ∧ ∀ req, Took req t'.2 ↔ Took req t.2

section Idle

variable {R : Rules} {t t' u : Kern × List (Event Call Resp)}

theorem Idle.trans (h : Idle t t') (h' : Idle t' u) : Idle t u :=
  ⟨h'.1.trans h.1, fun req => (h'.2 req).trans (h.2 req)⟩

theorem idle_of_refused {fd : Int} {req : Request} {n : Nat} {arg : Buf n} {r : IoctlRet}
    (hr : r.ret = -1) (hs : (kernel R).traced t (.ioctl fd req arg) r t') : Idle t t' := by
  obtain ⟨⟨-, hk⟩ | ⟨h0, -⟩, htr⟩ := hs
  · refine ⟨hk, fun req' => ?_⟩
    rw [htr, took_append, took_ioctl]
    exact or_iff_left fun h => h.2 hr
  · omega

/-- A call that is no request of this kind. -/
theorem traced_quiet {c : Call} {r : Resp c} (hs : (kernel R).traced t c r t')
    (hc : ∀ req, ¬ Takes req ⟨c, r⟩) :
    Kern.Step R t.1 c r t'.1 ∧ ∀ req, Took req t'.2 ↔ Took req t.2 := by
  obtain ⟨hk, htr⟩ := hs
  refine ⟨hk, fun req => ?_⟩
  rw [htr, took_append]
  refine or_iff_left ?_
  rintro ⟨e, he, htakes⟩
  rw [List.mem_singleton.mp he] at htakes
  exact hc req htakes

theorem idle_of_log {level : Level} {msg : CString} {r : Unit}
    (hs : (kernel R).traced t (.log level msg) r t') : Idle t t' :=
  traced_quiet hs fun _ => id

end Idle

/-! ## IPv4 -/

/-- Up to here no address was taken, and a deletion may have been. -/
structure Cut (dev : Device) (i : Nat) (f : Iface) (t : Kern × List (Event Call Resp)) : Prop where
  not_taken : ¬ Took .siocsifaddr t.2
  iface : ∃ f', t.1.Reaches dev i f' ∧ f'.inet6 = f.inet6 ∧
    (Took .siocdifaddr t.2 → f'.inet = f.inet.drop 1) ∧
    (¬ Took .siocdifaddr t.2 → f'.inet = f.inet)

/-- The new address was taken. -/
structure Taken (R : Rules) (dev : Device) (s4 : Buf 4) (i : Nat) (f : Iface)
    (t : Kern × List (Event Call Resp)) : Prop where
  taken : Took .siocsifaddr t.2
  iface : ∃ f', t.1.Reaches dev i f' ∧ f'.inet6 = f.inet6 ∧ f'.inet = [(s4, R.classMask s4)]

section Inet

variable {R : Rules} {dev : Device} {k : Kern} {i : Nat} {f : Iface} {s4 : Buf 4}
  {bits : BitVec 32} {n : Nat} {arg : Buf n} {r : IoctlRet} {pre : List (Event Call Resp)}
  {t t' : Kern × List (Event Call Resp)}

theorem Cut.start (h : k.Reaches dev i f) (hpre : ∀ req, ¬ Took req pre) :
    Cut dev i f (k, pre) :=
  ⟨hpre _, f, h, rfl, fun htook => absurd htook (hpre _), fun _ => rfl⟩

theorem Cut.failed (h : Cut dev i f t) (hi : Idle t t') : FailedInet R s4 i f t' := by
  obtain ⟨hk, htook⟩ := hi
  obtain ⟨hno, f', hreach, hinet6, hdel, hsame⟩ := h
  rw [← htook] at hno
  simp only [← htook .siocdifaddr] at hdel hsame
  refine ⟨f', ?_, hinet6, ?_⟩
  · rw [hk]
    exact hreach.iface
  · exact ⟨fun hyes => absurd hyes hno, fun _ => hdel, fun _ => hsame⟩

theorem Taken.failed (h : Taken R dev s4 i f t) (hi : Idle t t') : FailedInet R s4 i f t' := by
  obtain ⟨hk, htook⟩ := hi
  obtain ⟨hyes, f', hreach, hinet6, hinet⟩ := h
  rw [← htook] at hyes
  refine ⟨f', ?_, hinet6, ?_⟩
  · rw [hk]
    exact hreach.iface
  · exact ⟨fun _ => hinet, fun hno => absurd hyes hno, fun hno => absurd hyes hno⟩

/-- The deletion whose result no back end looks at. -/
theorem Cut.delete (h : k.Reaches dev i f) (hpre : ∀ req, ¬ Took req pre) (hn : Names dev n arg)
    (hs : (kernel R).traced (k, pre) (.ioctl dev.ctrlSock .siocdifaddr arg) r t') :
    Cut dev i f t' := by
  obtain ⟨hs, htr⟩ := hs
  have hno : ¬ Took .siocsifaddr t'.2 := by
    rw [htr, took_append, took_ioctl]
    exact fun hor => hor.elim (hpre _) fun hsame => by cases hsame.1
  have hdel : Took .siocdifaddr t'.2 ↔ r.ret ≠ -1 := by
    rw [htr, took_append, took_ioctl, or_iff_right (hpre _)]
    exact and_iff_right rfl
  refine ⟨hno, ?_⟩
  rw [hdel]
  rcases hs with ⟨hret, hk⟩ | ⟨hret, hs⟩
  · rw [hk]
    exact ⟨f, h, rfl, fun hne => absurd hret hne, fun _ => rfl⟩
  · simp only [Kern.Sets, show k.fds dev.ctrlSock = _ from h.sock] at hs
    rw [if_neg (by decide)] at hs
    exact ⟨_, h.after hn hs rfl, rfl, fun _ => rfl, fun hne => by omega⟩

theorem Cut.take (h : Cut dev i f t) (hn : Names dev n arg) (haddr : ifrInAddr arg = s4)
    (hr : r.ret ≠ -1)
    (hs : (kernel R).traced t (.ioctl dev.ctrlSock .siocsifaddr arg) r t') :
    Taken R dev s4 i f t' := by
  obtain ⟨-, f', hreach, hinet6, -⟩ := h
  obtain ⟨⟨hret, -⟩ | ⟨-, hs⟩, htr⟩ := hs
  · exact absurd hret hr
  · constructor
    · rw [htr, took_append, took_ioctl]
      exact Or.inr ⟨rfl, hr⟩
    · simp only [Kern.Sets, hreach.sock] at hs
      rw [if_neg (by decide)] at hs
      refine ⟨_, hreach.after hn hs rfl, hinet6, ?_⟩
      show [(ifrInAddr arg, R.classMask (ifrInAddr arg))] = _
      rw [haddr]

/-- The kernel can take it. -/
theorem Kern.Reaches.exists_taken (h : k.Reaches dev i f) (hn : Names dev n arg) :
    ∃ k', Kern.Step R k (.ioctl dev.ctrlSock .siocsifaddr arg) ⟨0, .other⟩ k' := by
  have hwhole : ∃ k', k.Sets R dev.ctrlSock .siocsifaddr arg k' := by
    refine ⟨k.setIface i f { f with
      inet := [(ifrInAddr arg, R.classMask (ifrInAddr arg))] } h.iface rfl, ?_⟩
    simp only [Kern.Sets, h.sock]
    rw [if_neg (show some (Desc.socket .inet) ≠ some (.socket .inet6) by decide)]
    exact ⟨⟨.inet, h.sock⟩, i, f, h.found hn, rfl, rfl⟩
  obtain ⟨k', hs⟩ := hwhole
  exact ⟨k', Or.inr ⟨rfl, hs⟩⟩

/-- The address and then the mask, as Linux and FreeBSD end. -/
theorem Cut.address_then_mask (h : Cut dev i f t) {m : Nat} {addrArg maskArg : Buf m}
    (hn : Names dev m addrArg) (haddr : ifrInAddr addrArg = s4) :
    (ioctl dev.ctrlSock .siocsifaddr addrArg >>= fun r =>
      if r.ret = -1 then tuntapLog .err "Can't set IP address" >>= fun _ => Prog.ret (-1)
      else ioctl dev.ctrlSock .siocsifnetmask maskArg >>= fun r =>
        if r.ret = -1 then tuntapLog .err "Can't set netmask" >>= fun _ => Prog.ret (-1)
        else Prog.ret 0).Wp (kernel R).traced (fun n t => n = -1 → FailedInet R s4 i f t) t := by
  refine (Prog.wp_call_bind _ _).mpr fun r t₁ hs => ?_
  refine (Prog.wp_ite _ _ _).mpr ⟨fun hr _ t₂ hlog _ => ?_, fun hr => ?_⟩
  · exact h.failed ((idle_of_refused hr hs).trans (idle_of_log hlog))
  · refine (Prog.wp_call_bind _ _).mpr fun r' t₂ hs' => ?_
    refine (Prog.wp_ite _ _ _).mpr ⟨fun hr' _ t₃ hlog _ => ?_, fun _ h0 => ?_⟩
    · exact (h.take hn haddr hr hs).failed ((idle_of_refused hr' hs').trans (idle_of_log hlog))
    · exact absurd (show (0 : Int) = -1 from h0) (by decide)

/-- Address and mask in one request, as the others end. -/
theorem Cut.one_request (h : Cut dev i f t) {req : Request} {m : Nat} {arg : Buf m} :
    (ioctl dev.ctrlSock req arg >>= fun r =>
      if r.ret = -1 then tuntapLog .err "Can't set IP/netmask" >>= fun _ => Prog.ret (-1)
      else Prog.ret 0).Wp (kernel R).traced (fun n t => n = -1 → FailedInet R s4 i f t) t := by
  refine (Prog.wp_call_bind _ _).mpr fun r t₁ hs => ?_
  refine (Prog.wp_ite _ _ _).mpr ⟨fun hr _ t₂ hlog _ => ?_, fun _ h0 => ?_⟩
  · exact h.failed ((idle_of_refused hr hs).trans (idle_of_log hlog))
  · exact absurd (show (0 : Int) = -1 from h0) (by decide)

theorem tuntapSysSetIpv4_failed (os : Os) (h : k.Reaches dev i f)
    (hpre : ∀ req, ¬ Took req pre) :
    (tuntapSysSetIpv4 os dev s4 bits).Wp (kernel R).traced
      (fun n t => n = -1 → FailedInet R s4 i f t) (k, pre) := by
  cases os with
  | linux =>
      refine (Cut.start h hpre).address_then_mask
        ((names_linux.memcpy (by omega)).memcpy (by omega)) ?_
      unfold ifrInAddr
      rw [Buf.slice_memcpy_disjoint _ _ _ _ _ _ (by omega),
        Buf.slice_memcpy_same _ _ _ (by omega)]
  | freeBsd =>
      refine (Prog.wp_call_bind _ _).mpr fun r t₁ hs => ?_
      exact (Cut.delete h hpre names_freeBsd hs).address_then_mask
        (names_freeBsd.memcpy (by omega)) (ifrInAddr_memcpy_bsdSockaddrIn _ _ (by omega))
  | openBsd | netBsd | darwin =>
      refine (Prog.wp_call_bind _ _).mpr fun r t₁ hs => ?_
      exact (Cut.delete h hpre (names_reqNamed (by omega)) hs).one_request

end Inet

/-! ## IPv6 -/

/-- The IPv6 addresses a failure leaves: the deletion names `::` with prefix
length 0, and may have been granted. -/
def FailedInet6 (i : Nat) (f : Iface) (t : Kern × List (Event Call Resp)) : Prop :=
  ∃ f', t.1.ifs i = some f' ∧ f'.inet = f.inet ∧
    (Took .siocdifaddr t.2 → f'.inet6 = f.inet6.erase unspecified) ∧
    (¬ Took .siocdifaddr t.2 → f'.inet6 = f.inet6)

section Inet6

variable {R : Rules} {dev : Device} {k : Kern} {i : Nat} {f : Iface} {s6 : Buf 16}
  {prefixLen : BitVec 32} {t t' : Kern × List (Event Call Resp)}

theorem FailedInet6.idle (h : FailedInet6 i f t) (hk : t'.1.ifs = t.1.ifs)
    (htook : ∀ req, Took req t'.2 ↔ Took req t.2) : FailedInet6 i f t' := by
  obtain ⟨f', hf', hinet, hdel, hsame⟩ := h
  simp only [← htook .siocdifaddr] at hdel hsame
  refine ⟨f', ?_, hinet, hdel, hsame⟩
  rw [hk]
  exact hf'

theorem FailedInet6.start (h : k.Reaches dev i f) (hno : ¬ Took .siocdifaddr []) :
    FailedInet6 i f (k, []) :=
  ⟨f, h.iface, rfl, fun hyes => absurd hyes hno, fun _ => rfl⟩

/-- The deletion whose result is not looked at. -/
theorem FailedInet6.delete {fd : Int} {arg : In6Ifreq} {r : IoctlRet}
    (h : t.1.ifs i = some f) (hno : ¬ Took .siocdifaddr t.2)
    (hfd : t.1.fds fd = some (.socket .inet6)) (hindex : indexNamed arg = i)
    (haddr : inet6Named arg = unspecified)
    (hs : (kernel R).traced t (.ioctl fd .siocdifaddr arg) r t') :
    FailedInet6 i f t' ∧ t'.1.fds = t.1.fds := by
  obtain ⟨hs, htr⟩ := hs
  have hdel : Took .siocdifaddr t'.2 ↔ r.ret ≠ -1 := by
    rw [htr, took_append, took_ioctl, or_iff_right hno]
    exact and_iff_right rfl
  unfold FailedInet6
  rw [hdel]
  rcases hs with ⟨hret, hk⟩ | ⟨hret, hs⟩
  · rw [hk]
    exact ⟨⟨f, h, rfl, fun hne => absurd hret hne, fun _ => rfl⟩, rfl⟩
  · simp only [Kern.Sets] at hs
    rw [if_pos hfd] at hs
    obtain ⟨j, g, hg, hj, -, hfds, hifs⟩ := hs
    obtain rfl : j = i := hj.trans hindex
    obtain rfl := Option.some.inj (h.symm.trans hg)
    refine ⟨⟨{ f with inet6 := f.inet6.erase (inet6Named arg) }, ?_, rfl, fun _ => ?_,
      fun hne => by omega⟩, hfds⟩
    · rw [hifs, Function.update_self]
      rfl
    · show f.inet6.erase (inet6Named arg) = _
      rw [haddr]

theorem Linux.tuntapSysSetIpv6_failed (hi : i < 2 ^ 31) (h : k.Reaches dev i f) :
    (tuntapSysSetIpv6 dev s6 prefixLen).Wp (kernel R).traced
      (fun n t => n = -1 → FailedInet6 i f t) (k, []) := by
  refine (Prog.wp_call_bind _ _).mpr fun fd t₁ hs₁ => ?_
  obtain ⟨hsock, htook₁⟩ := traced_quiet hs₁ fun _ => id
  refine (Prog.wp_ite _ _ _).mpr ⟨fun hfd _ t₂ hlog _ => ?_, fun hfd => ?_⟩
  · have hsame : t₁.1 = k := by
      rcases hsock with ⟨-, hk⟩ | ⟨hneg, -⟩
      · exact hk
      · rw [show fd = -1 from hfd] at hneg
        exact absurd hneg (by decide)
    obtain ⟨hk₂, htook₂⟩ := traced_quiet hlog fun _ => id
    refine (FailedInet6.start h took_nil).idle ?_ fun req => (htook₂ req).trans (htook₁ req)
    rw [show t₂.1 = t₁.1 from hk₂, hsame]
  obtain ⟨h₁, hopen, -⟩ := h.borrow hfd hsock
  have hno₁ : ¬ Took .siocdifaddr t₁.2 := fun hyes => took_nil ((htook₁ _).mp hyes)
  have hstart₁ : FailedInet6 i f t₁ :=
    ⟨f, h₁.iface, rfl, fun hyes => absurd hyes hno₁, fun _ => rfl⟩
  refine (Prog.wp_call_bind _ _).mpr fun r t₂ hs₂ => ?_
  obtain ⟨hindex, htook₂⟩ := traced_quiet hs₂ fun _ => id
  refine (Prog.wp_ite _ _ _).mpr ⟨fun hr _ t₃ hlog rc t₄ hclose _ => ?_, fun hr => ?_⟩
  · have hk₂ : t₂.1 = t₁.1 := by
      rcases hindex with ⟨-, hk⟩ | ⟨-, hk, -⟩
      · exact hk
      · exact hk
    obtain ⟨hk₃, htook₃⟩ := traced_quiet hlog fun _ => id
    obtain ⟨hs₄, htook₄⟩ := traced_quiet hclose fun _ => id
    have hsame : t₃.1 = t₁.1 := Eq.trans hk₃ hk₂
    refine hstart₁.idle ?_ fun req =>
      ((htook₄ req).trans (htook₃ req)).trans (htook₂ req)
    rw [(hs₄.close_socket (by rw [hsame]; exact hopen)).2, hsame]
  obtain ⟨hk₂, harg⟩ := h₁.siocgifindex hi names_linux hr hindex
  refine (Prog.wp_call_bind _ _).mpr fun rd t₃ hs₃ => ?_
  obtain ⟨hdel, hfds₃⟩ := FailedInet6.delete (t := t₂) (by rw [hk₂]; exact h₁.iface)
    (fun hyes => hno₁ ((htook₂ _).mp hyes)) (by rw [hk₂]; exact hopen)
    ((indexNamed_index _).trans harg) (inet6Named_index _) hs₃
  refine (Prog.wp_call_bind _ _).mpr fun ra t₄ hs₄ => ?_
  refine (Prog.wp_ite _ _ _).mpr ⟨fun hra _ t₅ hlog rc t₆ hclose _ => ?_, fun _ _ _ _ h0 => ?_⟩
  · obtain ⟨hk₄, htook₄⟩ := (idle_of_refused hra hs₄).trans (idle_of_log hlog)
    obtain ⟨hs₆, htook₆⟩ := traced_quiet hclose fun _ => id
    refine hdel.idle ?_ fun req => (htook₆ req).trans (htook₄ req)
    rw [(hs₆.close_socket (by rw [hk₄, hfds₃, hk₂]; exact hopen)).2, hk₄]
  · exact absurd (show (0 : Int) = -1 from h0) (by decide)

end Inet6

/-! ## The function -/

/-- What is left of the addressing when `tuntap_set_ip` has failed. -/
def FailedSetIp (R : Rules) (libc : Libc) (addr : CString) (i : Nat) (f : Iface)
    (k' : Kern) (tr : List (Event Call Resp)) : Prop :=
  match libc.inetPton4 addr with
  | some s4 => FailedInet R s4 i f (k', tr)
  | none => FailedInet6 i f (k', tr)

section SetIp

variable {R : Rules} {libc : Libc} {dev : Device} {k : Kern} {i : Nat} {f : Iface}
  {addr : CString} {netmask : Int}

/-- Computing the mask asks for no request. -/
theorem netmaskWord_idle : (netmaskWord netmask).Wp (kernel R).traced
    (fun _ t => t.1 = k ∧ ∀ req, ¬ Took req t.2) (k, []) := by
  have hstart : ∀ req, ¬ Took req ([] : List (Event Call Resp)) := fun _ => took_nil
  unfold netmaskWord
  refine (Prog.wp_ite _ _ _).mpr ⟨fun _ => ⟨rfl, hstart⟩, fun _ => ?_⟩
  unfold shiftRight
  by_cases h32 : 32 ≤ netmask
  · rw [if_pos h32]
    intro r t hs
    obtain ⟨hk, htook⟩ := traced_quiet hs fun _ => id
    exact ⟨hk, fun req hyes => took_nil ((htook req).mp hyes)⟩
  · rw [if_neg h32]
    exact ⟨rfl, hstart⟩

/-- A message, and no request. -/
theorem FailedInet6.logged (h : k.Reaches dev i f) {level : Level} {msg : CString} {r : Unit}
    {t : Kern × List (Event Call Resp)} (hs : (kernel R).traced (k, []) (.log level msg) r t) :
    FailedInet6 i f t := by
  obtain ⟨hk, htook⟩ := idle_of_log hs
  exact (FailedInet6.start h took_nil).idle (by rw [hk]) htook

theorem tuntapSetIp_failed (os : Os) (hdev : dev.tunFd ≠ -1) (hi : i < 2 ^ 31)
    (h : k.Reaches dev i f) :
    (tuntapSetIp os libc dev (some addr) netmask).Wp (kernel R).traced
      (fun n t => n = -1 → FailedSetIp R libc addr i f t.1 t.2) (k, []) := by
  unfold tuntapSetIp
  rw [if_neg hdev]
  dsimp only
  unfold FailedSetIp
  cases libc.inetPton4 addr with
  | some s4 =>
      have hstart : Cut dev i f (k, []) := Cut.start h fun _ => took_nil
      refine (Prog.wp_ite _ _ _).mpr
        ⟨fun _ _ t hlog _ => hstart.failed (idle_of_log hlog), fun _ => ?_⟩
      refine netmaskWord_idle.bind fun mask t ht => ?_
      obtain ⟨k₁, pre⟩ := t
      obtain ⟨rfl, hpre⟩ := ht
      exact tuntapSysSetIpv4_failed os h hpre
  | none =>
      refine (Prog.wp_ite _ _ _).mpr
        ⟨fun _ _ t hlog _ => FailedInet6.logged h hlog, fun _ => ?_⟩
      cases libc.inetPton6 addr with
      | some s6 =>
          cases os with
          | linux => exact Linux.tuntapSysSetIpv6_failed hi h
          | freeBsd | openBsd | netBsd | darwin =>
              exact fun _ t hlog _ => FailedInet6.logged h hlog
      | none => exact fun _ t hlog _ => FailedInet6.logged h hlog

end SetIp

/-- A `tuntap_set_ip` that answers -1 leaves the addressing as the requests
granted before the refused one left it: nothing granted, nothing changed. -/
theorem failed_set_ip_left (R : Rules) (libc : Libc) (dev : Device) (k k' : Kern) (i : Nat)
    (f : Iface) (addr : CString) (netmask : Int) (tr : List (Event Call Resp))
    (hdev : dev.tunFd ≠ -1) (hk : k.Reaches dev i f) (hi : i < 2 ^ 31)
    (hr : (tuntapSetIp R.os libc dev (some addr) netmask).Runs tr (-1))
    (hs : (kernel R).Steps k tr k') : FailedSetIp R libc addr i f k' tr :=
  (tuntapSetIp_failed R.os hdev hi hk).of_runs hr
    ((Kernel.steps_traced_iff (t := (k', tr)) []).mpr ⟨hs, rfl⟩) rfl

/-- `tun0` with 192.168.0.1/24. -/
def Iface.addressed : Iface :=
  { Iface.named (CString.lit "tun0") with
    inet := [(fun i => [192, 168, 0, 1].getD i 0, Buf.store32 maskNet)] }

def Kern.addressed : Kern :=
  (Kern.single Iface.addressed (by decide)).setFd 3 (some (.socket .inet))

theorem Kern.addressed_reaches : Kern.addressed.Reaches Device.tun0 0 Iface.addressed :=
  ⟨rfl, rfl, by decide⟩

/-- 10.0.0.1/24 on Linux, with the address taken and the mask refused. -/
theorem exists_refused_mask : ∃ tr k',
    (tuntapSetIp .linux Libc.knowing Device.tun0 (some (CString.lit "10.0.0.1")) 24).Runs tr (-1) ∧
      (kernel (Rules.plain .linux)).Steps Kern.addressed tr k' ∧ Took .siocsifaddr tr := by
  have hn : ∀ s4 : Buf 4, Names Device.tun0 40 (((Linux.ifreqNamed Device.tun0).memcpy 20 s4
      4).memcpy 16 (Buf.store16 afInet) 2) :=
    fun _ => (names_linux.memcpy (by omega)).memcpy (by omega)
  have hmay : (tuntapSetIp .linux Libc.knowing Device.tun0 (some (CString.lit "10.0.0.1")) 24).May
      (kernel (Rules.plain .linux)).traced (fun n t => n = -1 ∧ Took .siocsifaddr t.2)
      (Kern.addressed, []) := by
    obtain ⟨k₁, hk₁⟩ := Kern.addressed_reaches.exists_taken (R := Rules.plain .linux)
      (hn fun i => [10, 0, 0, 1].getD i 0)
    have hrefused := fun arg : Ifreq => (Or.inl ⟨rfl, rfl⟩ : Kern.Step (Rules.plain .linux) k₁
      (.ioctl Device.tun0.ctrlSock .siocsifnetmask arg) ⟨-1, .other⟩ k₁)
    have hlog : Kern.Step (Rules.plain .linux) k₁
      (.log .err (CString.lit "Can't set netmask")) () k₁ := rfl
    refine ⟨⟨0, .other⟩, _, Kernel.traced_step hk₁ _, ?_⟩
    refine ⟨⟨-1, .other⟩, _, Kernel.traced_step (hrefused _) _, ?_⟩
    refine ⟨(), _, Kernel.traced_step hlog _, rfl, ?_⟩
    exact ⟨_, List.mem_cons_self .., rfl, by decide⟩
  obtain ⟨tr, n, t, hr, hs, rfl, htook⟩ := (Prog.may_iff _).mp hmay
  obtain ⟨hs, htr⟩ := (Kernel.steps_traced_iff []).mp hs
  rw [htr] at htook
  exact ⟨tr, t.1, hr, hs, htook⟩

/-- Its new address stays, with the mask of its class. -/
theorem refused_mask_left : ∃ tr k',
    (tuntapSetIp .linux Libc.knowing Device.tun0 (some (CString.lit "10.0.0.1")) 24).Runs tr (-1) ∧
      (kernel (Rules.plain .linux)).Steps Kern.addressed tr k' ∧
        FailedSetIp (Rules.plain .linux) Libc.knowing (CString.lit "10.0.0.1") 0 Iface.addressed
          k' tr := by
  obtain ⟨tr, k', hr, hs, -⟩ := exists_refused_mask
  exact ⟨tr, k', hr, hs, failed_set_ip_left (Rules.plain .linux) Libc.knowing Device.tun0 _ _ 0 _ _
    24 _ (by decide) Kern.addressed_reaches (by decide) hr hs⟩

/-- The old address is gone although the call has failed. -/
theorem refused_mask_changes :
    ¬ ∀ (R : Rules) (libc : Libc) (dev : Device) (k k' : Kern) (i : Nat) (f : Iface)
      (addr : CString) (netmask : Int) (tr : List (Event Call Resp)), dev.tunFd ≠ -1 →
        k.Reaches dev i f → i < 2 ^ 31 →
          (tuntapSetIp R.os libc dev (some addr) netmask).Runs tr (-1) →
            (kernel R).Steps k tr k' →
              ∃ f', k'.ifs i = some f' ∧ f'.inet = f.inet ∧ f'.inet6 = f.inet6 := by
  intro hclaim
  have hdev : Device.tun0.tunFd ≠ -1 := by decide
  obtain ⟨tr, k', hr, hs, htook⟩ := exists_refused_mask
  obtain ⟨g, hg, hinet, -⟩ := hclaim (Rules.plain .linux) _ _ _ _ 0 _ _ _ _ hdev
    Kern.addressed_reaches (by decide) hr hs
  have hleft : FailedInet (Rules.plain .linux) (fun i => [10, 0, 0, 1].getD i 0) 0 Iface.addressed
      (k', tr) :=
    (tuntapSetIp_failed .linux hdev (by decide) Kern.addressed_reaches).of_runs hr
      ((Kernel.steps_traced_iff (t := (k', tr)) []).mpr ⟨hs, rfl⟩) rfl
  obtain ⟨f', hf', -, hleft⟩ := hleft
  obtain rfl := Option.some.inj (hf'.symm.trans hg)
  have haddr := congrArg (List.map Prod.fst) ((hleft.replaced htook).symm.trans hinet)
  exact absurd (congrFun (List.cons.inj haddr).1 0) (by decide)

end Libtuntap
