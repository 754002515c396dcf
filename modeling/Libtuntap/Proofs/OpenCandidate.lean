import Libtuntap.Proofs.RegQuery

/-!
# A Windows start

With a list of candidates `tuntap_start` does what it should: it opens them in
order until one opens, keeps that one, and frees every string and the list. Both
loops go by the sentinel, and neither looks at the pointer to the list. So all
of it holds exactly when `reg_query` has a list to give; where it answers a null
pointer, the first loop reads through it.
-/

namespace Libtuntap.Windows

open Effect CMem

/-- The handle of the first candidate that can be opened. -/
def firstOpen (devices : CString → Option Int) (texts : List CString) : Option Int :=
  texts.findSome? fun text => devices (devicePath text)

/-- The start opens the first candidate that can be opened, or fails, and owes
nothing but the handle it keeps. -/
structure StartRight (reg : Registry) (devices : CString → Option Int) (id : Int) (dev : Device)
    (r : Int × Device) (s : Machine) : Prop where
  succeeds : r.1 = 0 ↔ ∃ text ∈ reg.candidates id, devices (devicePath text) ≠ none
  opened : r.1 = 0 → ∃ h, firstOpen devices (reg.candidates id) = some h ∧
    r.2 = { dev with tunFd := h } ∧ s.files = [h]
  refused : r.1 ≠ 0 → r = (-1, dev) ∧ s.files = []
  released : s.blocks = ∅ ∧ s.misfreed = false
  closed : s.keys = Machine.empty.keys

section Loops

variable {reg : Registry} {devices : CString → Option Int} {s : Machine} {dev : Device}
  {deviceids : Deviceids} {cands : List Candidate} {id : Int}

/-- The device path of a GUID fits its buffer. -/
theorem snprintf_devicePath {text : CString} (h : text.strlen = 38) :
    snprintf 60 (devicePath text) = some (devicePath text) := by
  have hlen : (devicePath text).strlen = 53 := by
    unfold devicePath
    rw [CString.strlen_append, CString.strlen_append, h]
    decide
  exact if_pos (by omega)

/-- Every candidate is a GUID. -/
theorem Registry.Guids.strlen (hguids : reg.Guids) {text : CString}
    (h : text ∈ reg.candidates id) : text.strlen = 38 := by
  obtain ⟨name, -, hentry⟩ := List.mem_filterMap.mp h
  obtain ⟨a, hadapter, hfound⟩ := Option.bind_eq_some_iff.mp hentry
  obtain ⟨key, -, hkey⟩ := Option.bind_eq_some_iff.mp hadapter
  unfold Adapter.found at hfound
  split at hfound
  · exact hguids key a text hkey hfound
  · cases hfound

theorem openFirst_wp (hdevices : ∀ path h, devices path = some h → h ≠ tunfdInvalidValue)
    (hguid : ∀ c ∈ cands, c.text.strlen = 38) :
    (openFirst (cands.map some ++ [none])).Wp (machine reg devices) (fun o t =>
      o = .returned ((firstOpen devices (cands.map Candidate.text)).getD tunfdInvalidValue) ∧
        t = { s with
          files := (firstOpen devices (cands.map Candidate.text)).toList ++ s.files }) s := by
  induction cands with
  | nil => exact ⟨rfl, rfl⟩
  | cons c rest ih =>
      have hfits := snprintf_devicePath (hguid c (List.mem_cons_self ..))
      show Prog.Wp _ _ (openFirst (some c :: (rest.map some ++ [none]))) s
      dsimp only [openFirst]
      rw [hfits]
      refine (Prog.wp_call_bind _ _).mpr fun fd t hopen => ?_
      have hfirst : firstOpen devices ((c :: rest).map Candidate.text) =
          (devices (devicePath c.text)).or
            (firstOpen devices (rest.map Candidate.text)) := by
        unfold firstOpen
        rw [List.map_cons, List.findSome?_cons]
        cases devices (devicePath c.text) <;> rfl
      rw [hfirst]
      cases hdevice : devices (devicePath c.text) with
      | some h =>
          have hgave : fd = h ∧ t = { s with files := h :: s.files } := by
            simpa [machine, Machine.Step, hdevice] using hopen
          obtain ⟨rfl, rfl⟩ := hgave
          rw [if_pos (hdevices _ _ hdevice)]
          exact ⟨rfl, rfl⟩
      | none =>
          have hgave : fd = tunfdInvalidValue ∧ t = s := by
            simpa [machine, Machine.Step, hdevice] using hopen
          obtain ⟨rfl, rfl⟩ := hgave
          rw [if_neg (not_not.mpr rfl)]
          exact ih fun c' hc' => hguid c' (List.mem_cons_of_mem _ hc')

/-- The strings are freed once each, and the block of the list is left. -/
theorem freeAll_wp {block : Ptr} (hblocks : s.blocks = (block :: cands.map Candidate.ptr).toFinset)
    (hnodup : (block :: cands.map Candidate.ptr).Nodup) :
    (freeAll (cands.map some ++ [none])).Wp (machine reg devices) (fun o t =>
      o = .returned () ∧ t = { s with blocks := {block} }) s := by
  induction cands generalizing s with
  | nil =>
      refine ⟨rfl, ?_⟩
      have hone : s.blocks = {block} := hblocks
      rw [← hone]
  | cons c rest ih =>
      refine (Prog.wp_call_bind _ _).mpr fun _ t hfree => ?_
      simp only [List.map_cons, List.nodup_cons, List.mem_cons, not_or] at hnodup
      have hmem : c.ptr ∈ s.blocks := by
        rw [hblocks]
        simp
      have hrest : s.blocks.erase c.ptr = (block :: rest.map Candidate.ptr).toFinset := by
        rw [hblocks]
        ext x
        simp only [List.map_cons, Finset.mem_erase, List.mem_toFinset, List.mem_cons]
        constructor
        · rintro ⟨hne, rfl | rfl | hx⟩
          · exact Or.inl rfl
          · exact absurd rfl hne
          · exact Or.inr hx
        · rintro (rfl | hx)
          · exact ⟨hnodup.1.1, Or.inl rfl⟩
          · exact ⟨fun heq => hnodup.2.1 (heq ▸ hx), Or.inr (Or.inr hx)⟩
      obtain rfl : t = { s with blocks := s.blocks.erase c.ptr } := by
        have hrelease : t = s.release c.ptr := hfree
        rw [hrelease]
        exact if_pos hmem
      refine (ih hrest ?_).mono fun o u hu => hu
      exact List.nodup_cons.mpr ⟨hnodup.1.2, hnodup.2.2⟩

theorem firstOpen_ne_none {texts : List CString} :
    firstOpen devices texts ≠ none ↔ ∃ text ∈ texts, devices (devicePath text) ≠ none := by
  unfold firstOpen
  simp only [ne_eq, List.findSome?_eq_none_iff, not_forall, exists_prop]

/-- What is left when the list is cleaned up. -/
theorem release_block {block : Ptr} {files : List Int} :
    ({ s with blocks := {block}, files := files } : Machine).release block =
      { s with blocks := ∅, files := files } := by
  unfold Machine.release
  rw [if_pos (Finset.mem_singleton_self block), Finset.erase_singleton]

/-- A candidate was opened. -/
theorem StartRight.of_some {h : Int} (hfirst : firstOpen devices (reg.candidates id) = some h)
    (hmisfreed : s.misfreed = false) (hkeys : s.keys = Machine.empty.keys) :
    StartRight reg devices id dev (0, { dev with tunFd := h })
      { s with blocks := ∅, files := [h] } where
  succeeds := by
    refine iff_of_true rfl (firstOpen_ne_none.mp ?_)
    rw [hfirst]
    exact Option.some_ne_none h
  opened _ := ⟨h, hfirst, rfl, rfl⟩
  refused hne := absurd rfl hne
  released := ⟨rfl, hmisfreed⟩
  closed := hkeys

/-- None could be opened. -/
theorem StartRight.of_none (hfirst : firstOpen devices (reg.candidates id) = none)
    (hmisfreed : s.misfreed = false) (hkeys : s.keys = Machine.empty.keys) :
    StartRight reg devices id dev (-1, dev) { s with blocks := ∅, files := [] } where
  succeeds := by
    refine iff_of_false (show (-1 : Int) ≠ 0 by decide) fun hsome => ?_
    exact firstOpen_ne_none.mpr hsome hfirst
  opened hzero := absurd hzero (show (-1 : Int) ≠ 0 by decide)
  refused _ := ⟨rfl, rfl⟩
  released := ⟨rfl, hmisfreed⟩
  closed := hkeys

theorem openCandidate_wp (hdevices : ∀ path h, devices path = some h → h ≠ tunfdInvalidValue)
    (hguids : reg.Guids) (h : Holds deviceids cands s)
    (htexts : cands.map Candidate.text = reg.candidates id)
    (hkeys : s.keys = Machine.empty.keys) (hfiles : s.files = []) :
    (openCandidate dev deviceids).Wp (machine reg devices) (fun o t =>
      ∃ r, o = .returned r ∧ StartRight reg devices id dev r t) s := by
  have hguid : ∀ c ∈ cands, c.text.strlen = 38 := by
    intro c hc
    have hmem : c.text ∈ reg.candidates id := by
      rw [← htexts]
      exact List.mem_map_of_mem hc
    exact hguids.strlen hmem
  unfold openCandidate
  rw [h.entries]
  refine (openFirst_wp hdevices hguid).bind fun o t ho => ?_
  obtain ⟨rfl, rfl⟩ := ho
  rw [htexts, hfiles, List.append_nil]
  have hblocks : ({ s with files := (firstOpen devices (reg.candidates id)).toList } :
      Machine).blocks = (deviceids.block :: cands.map Candidate.ptr).toFinset := h.blocks
  refine (freeAll_wp hblocks h.nodup).bind fun o t ho => ?_
  obtain ⟨rfl, rfl⟩ := ho
  refine (Prog.wp_call_bind _ _).mpr fun _ u hfree => ?_
  obtain rfl : u = { s with blocks := ∅, files := _ } := hfree.trans release_block
  cases hfirst : firstOpen devices (reg.candidates id) with
  | some fd =>
      have hfd : fd ≠ tunfdInvalidValue := by
        obtain ⟨text, -, hopen⟩ := List.exists_of_findSome?_eq_some hfirst
        exact hdevices _ _ hopen
      refine (Prog.wp_ite _ _ _).mpr ⟨fun hno => absurd hno hfd, fun _ => ?_⟩
      exact ⟨_, rfl, .of_some hfirst h.misfreed hkeys⟩
  | none =>
      have hright : StartRight reg devices id dev (-1, dev) { s with blocks := ∅, files := [] } :=
        .of_none hfirst h.misfreed hkeys
      refine (Prog.wp_ite _ _ _).mpr ⟨fun _ => ?_, fun hno => absurd rfl hno⟩
      refine (Prog.wp_call_bind _ _).mpr fun errcode v hlast => ?_
      obtain rfl : v = _ := hlast
      refine (Prog.wp_ite _ _ _).mpr ⟨fun _ => ?_, fun _ => ?_⟩
      · intro _ v hlog
        obtain rfl : v = _ := hlog
        exact ⟨_, rfl, hright⟩
      · intro _ v hlog
        obtain rfl : v = _ := hlog
        exact ⟨_, rfl, hright⟩

/-- A start in layer 2 mode on a device that is not started. -/
theorem tuntapStart_wp (hdevices : ∀ path h, devices path = some h → h ≠ tunfdInvalidValue)
    (hguids : reg.Guids) (hdev : dev.tunFd = tunfdInvalidValue) {mode : Mode}
    (hmode : mode.clearPersist = tuntapModeEthernet) :
    (tuntapStart dev mode id).Wp (machine reg devices) (fun o t =>
      (reg.Readable ∧ reg.Fits) ∧ (∃ r, o = .returned r ∧ StartRight reg devices id dev r t) ∨
        ¬ (reg.Readable ∧ reg.Fits) ∧ o = .crashed) Machine.empty := by
  dsimp only [tuntapStart]
  rw [if_neg (not_not.mpr hdev), Mode.clearPersist_eq, hmode, if_neg (by decide),
    if_neg (not_not.mpr rfl)]
  refine regQuery_wp.bind fun o t hlisted => ?_
  rcases hlisted with ⟨hread, hfits, ids, cands, rfl, hholds, htexts, hkeys, hfiles⟩ |
    ⟨-, hcut, rfl⟩ | ⟨hno, rfl⟩
  · refine (openCandidate_wp hdevices hguids hholds htexts hkeys hfiles).mono fun o t ho => ?_
    exact Or.inl ⟨⟨hread, hfits⟩, ho⟩
  · exact Or.inr ⟨fun h => hcut h.2, rfl⟩
  · exact Or.inr ⟨fun h => hno h.1, rfl⟩

end Loops

section Started

variable {reg : Registry} {devices : CString → Option Int} {dev : Device} {mode : Mode}
  {id : Int} {tr : List (Event Call Resp)} {o : Outcome (Int × Device)} {s : Machine}

/-- For every registry, every identifier and every set of devices that open, the
start is right exactly when the key of the adapters can be read and has
subkeys, and the paths of these fit the buffer. -/
theorem start_right_iff (hdevices : ∀ path h, devices path = some h → h ≠ tunfdInvalidValue)
    (hguids : reg.Guids) (hdev : dev.tunFd = tunfdInvalidValue)
    (hmode : mode.clearPersist = tuntapModeEthernet)
    (hr : (tuntapStart dev mode id).Runs tr o)
    (hs : (machine reg devices).Steps Machine.empty tr s) :
    (∃ r, o = .returned r ∧ StartRight reg devices id dev r s) ↔ reg.Readable ∧ reg.Fits := by
  rcases (tuntapStart_wp hdevices hguids hdev hmode).of_runs hr hs with ⟨hread, h⟩ | ⟨hno, rfl⟩
  · exact iff_of_true h hread
  · refine iff_of_false (fun h => ?_) hno
    obtain ⟨r, hcrash, -⟩ := h
    cases hcrash

/-- One adapter, whose device opens. -/
theorem start_right_single : ∃ tr r s,
    (tuntapStart Device.init tuntapModeEthernet tuntapIdAny).Runs tr (.returned r) ∧
      (machine (Registry.single (CString.lit "ROOT\\NET\\0000")) fun _ => some 7).Steps
        Machine.empty tr s ∧
      StartRight (Registry.single (CString.lit "ROOT\\NET\\0000")) (fun _ => some 7)
        tuntapIdAny Device.init r s := by
  obtain ⟨tr, o, s, hr, hs⟩ := Kernel.exists_steps_of
    (machine_replies (Registry.single (CString.lit "ROOT\\NET\\0000")) fun _ => some 7)
    (tuntapStart Device.init tuntapModeEthernet tuntapIdAny) Machine.roomy_empty
  have hdevices : ∀ (path : CString) (h : Int), some 7 = some h → h ≠ tunfdInvalidValue := by
    intro _ h heq
    obtain rfl := Option.some.inj heq
    decide
  obtain ⟨r, rfl, hright⟩ := (start_right_iff hdevices (guids_single _) rfl (by decide) hr hs).mpr
    ⟨readable_single _, fits_single _⟩
  exact ⟨tr, r, s, hr, hs, hright⟩

/-- Without a subkey `reg_query` answers a null pointer, and the start follows
it. -/
theorem start_follows_null : ¬ ∀ (reg : Registry) (devices : CString → Option Int)
    (dev : Device) (mode : Mode) (id : Int) (tr : List (Event Call Resp))
    (o : Outcome (Int × Device)) (s : Machine),
    (∀ path h, devices path = some h → h ≠ tunfdInvalidValue) → reg.Guids → reg.Fits →
      dev.tunFd = tunfdInvalidValue → mode.clearPersist = tuntapModeEthernet →
        (tuntapStart dev mode id).Runs tr o →
          (machine reg devices).Steps Machine.empty tr s →
            ∃ r, o = .returned r ∧ StartRight reg devices id dev r s := by
  intro hclaim
  obtain ⟨tr, o, s, hr, hs⟩ := Kernel.exists_steps_of
    (machine_replies Registry.bare fun _ => none)
    (tuntapStart Device.init tuntapModeEthernet tuntapIdAny) Machine.roomy_empty
  have hdevices : ∀ (path : CString) (h : Int), none = some h → h ≠ tunfdInvalidValue := by
    intro _ h heq
    cases heq
  have hguids : Registry.bare.Guids := by
    intro _ _ _ h
    cases h
  have hmode : tuntapModeEthernet.clearPersist = tuntapModeEthernet := by decide
  have hright := hclaim _ _ _ _ _ _ _ _ hdevices hguids fitting_nil rfl hmode hr hs
  rcases (tuntapStart_wp hdevices hguids rfl hmode).of_runs hr hs with ⟨⟨hread, -⟩, -⟩ | ⟨-, hcrash⟩
  · obtain ⟨-, names, hnames, hne⟩ := hread
    exact hne (Option.some.inj hnames).symm
  · obtain ⟨r, hreturned, -⟩ := hright
    rw [hcrash] at hreturned
    cases hreturned

end Started

end Libtuntap.Windows
