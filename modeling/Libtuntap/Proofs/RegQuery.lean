import Libtuntap.Windows.Machine

/-!
# The list of candidates

On a registry that can be read and whose paths fit, `reg_query` answers the
candidates in the order of the subkeys, with a sentinel behind them, and holds
nothing but the list and its strings. The walk appends one string at a time, so
what is carried along it is the list so far and its memory.
-/

namespace Libtuntap.Windows

open Effect CMem

/-- The list holds these candidates, and they and its block are all the memory
there is. -/
structure Holds (deviceids : Deviceids) (cands : List Candidate) (s : Machine) : Prop where
  entries : deviceids.entries = cands.map some ++ [none]
  blocks : s.blocks = (deviceids.block :: cands.map Candidate.ptr).toFinset
  nodup : (deviceids.block :: cands.map Candidate.ptr).Nodup
  misfreed : s.misfreed = false

/-- The list has grown by these texts, and nothing else is held in addition. -/
def Grown (cands : List Candidate) (texts : List CString) (s : Machine)
    (o : Outcome Deviceids) (t : Machine) : Prop :=
  ∃ deviceids new, o = .returned deviceids ∧ Holds deviceids new t ∧
    new.map Candidate.text = cands.map Candidate.text ++ texts ∧ t.keys = s.keys ∧
      t.files = s.files

section Walk

variable {reg : Registry} {devices : CString → Option Int} {s : Machine}
  {deviceids : Deviceids} {cands : List Candidate} {id adapters adapter : Int}

theorem Holds.grown (h : Holds deviceids cands s) :
    Grown cands [] s (.returned deviceids) s :=
  ⟨deviceids, cands, rfl, h, (List.append_nil _).symm, rfl, rfl⟩

/-- The registry keys are no part of it. -/
theorem Holds.setKey (h : Holds deviceids cands s) (k : Int) (key : Option CString) :
    Holds deviceids cands (s.setKey k key) :=
  ⟨h.entries, h.blocks, h.nodup, h.misfreed⟩

/-- The string goes where the sentinel was. -/
theorem set_sentinel (entry : Candidate) :
    (cands.map some ++ [none]).set ((cands.map some ++ [none]).length - 1) (some entry) =
      (cands ++ [entry]).map some := by
  have hlen : (cands.map some ++ [none]).length - 1 = (cands.map some).length := by
    rw [List.length_append]
    rfl
  rw [hlen, List.set_append_right _ _ (Nat.le_refl _), Nat.sub_self, List.map_append]
  rfl

/-- The string and the moved block are as much memory as the list now needs. -/
theorem Holds.append (h : Holds deviceids cands s) {p block : Ptr} {data : CString}
    (hp : p ∉ s.blocks) (hblock : block ∉ (insert p s.blocks).erase deviceids.block) :
    Holds ⟨block, deviceids.entries.set (deviceids.entries.length - 1) (some ⟨p, data⟩) ++
      [none]⟩ (cands ++ [⟨p, data⟩])
      { s with blocks := insert block ((insert p s.blocks).erase deviceids.block) } := by
  have hnodup := h.nodup
  have hblocks : (insert p s.blocks).erase deviceids.block =
      ((cands ++ [(⟨p, data⟩ : Candidate)]).map Candidate.ptr).toFinset := by
    rw [h.blocks] at hp ⊢
    ext x
    simp only [Finset.mem_erase, Finset.mem_insert, List.mem_toFinset, List.map_append,
      List.mem_append, List.mem_cons, List.map_cons, List.map_nil, List.not_mem_nil,
      or_false, not_or, List.nodup_cons] at hp hnodup ⊢
    constructor
    · rintro ⟨hne, rfl | rfl | hx⟩
      · exact Or.inr rfl
      · exact absurd rfl hne
      · exact Or.inl hx
    · rintro (hx | rfl)
      · exact ⟨fun heq => hnodup.1 (heq ▸ hx), Or.inr (Or.inr hx)⟩
      · exact ⟨hp.1, Or.inl rfl⟩
  refine ⟨?_, ?_, ?_, h.misfreed⟩
  · rw [h.entries, set_sentinel]
  · rw [List.toFinset_cons, ← hblocks]
  · rw [hblocks, List.mem_toFinset] at hblock
    refine List.nodup_cons.mpr ⟨hblock, ?_⟩
    rw [h.blocks, List.mem_toFinset, List.mem_cons, not_or] at hp
    rw [List.map_append]
    exact (List.nodup_cons.mp hnodup).2.append (List.nodup_singleton p)
      (List.disjoint_singleton.mpr hp.2)

theorem appendId_wp (h : Holds deviceids cands s) (data : CString) :
    (appendId deviceids data).Wp (machine reg devices) (Grown cands [data] s) s := by
  unfold appendId
  refine (Prog.wp_call_bind _ _).mpr fun p t ⟨hp, hpnew, ht⟩ => ?_
  refine (Prog.wp_call_bind _ _).mpr fun block u ⟨hb, hbnew, hu⟩ => ?_
  subst ht hu
  rw [if_neg hb, if_neg hp]
  exact ⟨_, _, rfl, h.append hpnew hbnew, List.map_append, rfl, rfl⟩

/-- A query of a value of the adapter whose key is open. -/
theorem query_wp {α : Type} {Q : α → Machine → Prop} {name : CString} {a : Adapter}
    (hkey : s.keys adapter = some (adapterKey name)) (ha : reg.adapter name = some a)
    {value : String} {len : Nat} {f : Except Nat CString → Win α}
    (hf : ∀ r, Gives r (a.value (CString.lit value)) → (f r).Wp (machine reg devices) Q s) :
    (regQueryValueEx adapter value len >>= f).Wp (machine reg devices) Q s := by
  refine (Prog.wp_call_bind _ _).mpr fun r t ⟨ht, hr⟩ => ?_
  subst ht
  exact hf r (hr name a hkey ha)

theorem value_componentId (a : Adapter) :
    a.value (CString.lit "ComponentId") = a.componentId := if_pos rfl

theorem value_deviceInstanceId (a : Adapter) :
    a.value (CString.lit "DeviceInstanceId") = a.deviceInstanceId := by
  unfold Adapter.value
  rw [if_neg (by decide), if_pos rfl]

theorem value_netCfgInstanceId (a : Adapter) :
    a.value (CString.lit "NetCfgInstanceId") = a.netCfgInstanceId := by
  unfold Adapter.value
  rw [if_neg (by decide), if_neg (by decide), if_pos rfl]

/-- What is skipped leaves the list as it is. -/
theorem Holds.skipped (h : Holds deviceids cands s) {o : Option CString} (ho : o = none) :
    Grown cands o.toList s (.returned deviceids) s := by
  rw [ho]
  exact h.grown

section Adapter

variable {name : CString} {a : Adapter}

theorem appendNetCfg_wp (h : Holds deviceids cands s)
    (hkey : s.keys adapter = some (adapterKey name)) (ha : reg.adapter name = some a) :
    (appendNetCfg adapter deviceids).Wp (machine reg devices)
      (Grown cands a.netCfgInstanceId.toList s) s := by
  unfold appendNetCfg
  refine query_wp hkey ha fun r hr => ?_
  rw [value_netCfgInstanceId] at hr
  cases hnet : a.netCfgInstanceId with
  | none =>
      rw [hnet] at hr
      obtain ⟨code, rfl⟩ := hr
      intro _ t ht
      obtain rfl : t = s := ht
      exact h.grown
  | some text =>
      rw [hnet] at hr
      obtain rfl : r = .ok text := hr
      exact appendId_wp h text

theorem checkInstance_wp (h : Holds deviceids cands s)
    (hkey : s.keys adapter = some (adapterKey name)) (ha : reg.adapter name = some a)
    (htap : a.IsTap) :
    (checkInstance adapter id deviceids).Wp (machine reg devices)
      (Grown cands (a.found id).toList s) s := by
  unfold checkInstance
  refine query_wp hkey ha fun r hr => ?_
  rw [value_deviceInstanceId] at hr
  cases hdevice : a.deviceInstanceId with
  | none =>
      rw [hdevice] at hr
      obtain ⟨code, rfl⟩ := hr
      intro _ t ht
      obtain rfl : t = s := ht
      exact h.skipped (by simp [Adapter.found, Adapter.index, hdevice])
  | some device =>
      rw [hdevice] at hr
      obtain rfl : r = .ok device := hr
      dsimp only
      cases hidx : sscanfInt device (CString.lit "ROOT\\NET\\") with
      | none => exact h.skipped (by simp [Adapter.found, Adapter.index, hdevice, hidx])
      | some idx =>
          have hfound : a.found id =
              if tuntapIdAny = id ∨ idx = id then a.netCfgInstanceId else none := by
            simp [Adapter.found, Adapter.index, htap, hdevice, hidx]
          rw [hfound]
          refine (Prog.wp_ite _ _ _).mpr ⟨fun hid => ?_, fun hid => ?_⟩
          · rw [if_pos hid]
            exact appendNetCfg_wp h hkey ha
          · exact h.skipped (if_neg hid)

theorem checkValues_wp (h : Holds deviceids cands s)
    (hkey : s.keys adapter = some (adapterKey name)) (ha : reg.adapter name = some a) :
    (checkValues adapter id deviceids).Wp (machine reg devices)
      (Grown cands (a.found id).toList s) s := by
  unfold checkValues
  refine query_wp hkey ha fun r hr => ?_
  rw [value_componentId] at hr
  cases hcomponent : a.componentId with
  | none =>
      rw [hcomponent] at hr
      obtain ⟨code, rfl⟩ := hr
      exact h.skipped (by simp [Adapter.found, Adapter.IsTap, hcomponent])
  | some component =>
      rw [hcomponent] at hr
      obtain rfl : r = .ok component := hr
      refine (Prog.wp_ite _ _ _).mpr ⟨fun htap => ?_, fun htap => ?_⟩
      · exact checkInstance_wp h hkey ha ⟨component, hcomponent, htap⟩
      · exact h.skipped (by simp [Adapter.found, Adapter.IsTap, hcomponent, htap])

end Adapter

/-! ## The walk -/

theorem adapterKey_inj {name name' : CString} (h : adapterKey name = adapterKey name') :
    name = name' :=
  CString.append_left_cancel h

/-- The key of the adapters is not one of theirs. -/
theorem adapterKey_ne (name : CString) : adapterKey name ≠ networkAdapters := by
  intro h
  have hlen := congrArg CString.strlen h
  unfold adapterKey at hlen
  rw [CString.strlen_append, CString.strlen_append] at hlen
  have hone : (CString.lit "\\").strlen = 1 := by decide
  omega

theorem canOpen_adapterKey {name : CString} :
    reg.CanOpen (adapterKey name) ↔ reg.adapter name ≠ none := by
  constructor
  · rintro (⟨h, -⟩ | ⟨name', h, hopens⟩)
    · exact absurd h (adapterKey_ne name)
    · rw [adapterKey_inj h]
      exact hopens
  · exact fun h => Or.inr ⟨name, rfl, h⟩

/-- What a walk over these subkeys comes to. A path that does not fit ends the
process. -/
def Walked (names : List (Option CString)) (cands : List Candidate) (texts : List CString)
    (s : Machine) (o : Outcome Deviceids) (t : Machine) : Prop :=
  Fitting names ∧ Grown cands texts s o t ∨ ¬ Fitting names ∧ o = .crashed

theorem fitting_nil : Fitting [] := by
  intro name h
  cases h

theorem fitting_cons {name : Option CString} {names : List (Option CString)} :
    Fitting (name :: names) ↔ Fitting [name] ∧ Fitting names := by
  unfold Fitting
  simp only [List.mem_cons, List.not_mem_nil, or_false]
  exact ⟨fun h => ⟨fun x hx => h x (Or.inl hx), fun x hx => h x (Or.inr hx)⟩,
    fun h x hx => hx.elim (h.1 x) (h.2 x)⟩

theorem fitting_some {key : CString} :
    Fitting [some key] ↔ (adapterKey key).strlen < maxKeyLength := by
  unfold Fitting
  simp only [List.mem_singleton, Option.some.injEq, forall_eq]

theorem fitting_none : Fitting [none] := by
  intro name h
  cases List.mem_singleton.mp h

/-- The entry of an adapter whose key opens, and of one whose key does not. -/
theorem entry_of_some {key : CString} {a : Adapter} (ha : reg.adapter key = some a) :
    reg.entry id (some key) = a.found id := by
  show (reg.adapter key).bind _ = _
  rw [ha]
  rfl

theorem entry_of_none {key : CString} (hnone : reg.adapter key = none) :
    reg.entry id (some key) = none := by
  show (reg.adapter key).bind _ = none
  rw [hnone]
  rfl

/-- Closing the key that was opened leaves the keys there were. -/
theorem setKey_setKey {k : Int} {key : CString} (h : s.keys k = none) :
    ((s.setKey k (some key)).setKey k none).keys = s.keys := by
  show Function.update (Function.update s.keys k (some key)) k none = s.keys
  rw [Function.update_idem, ← h, Function.update_eq_self]

theorem visitAdapter_wp (h : Holds deviceids cands s)
    (hkey : s.keys adapters = some networkAdapters) (i : Nat) :
    (visitAdapter networkAdapters adapters id i deviceids).Wp (machine reg devices)
      (Walked [reg.name i] cands (reg.entry id (reg.name i)).toList s) s := by
  unfold visitAdapter
  refine (Prog.wp_call_bind _ _).mpr fun r t ⟨ht, hr⟩ => ?_
  subst ht
  have hgives := hr hkey
  cases hname : reg.name i with
  | none =>
      rw [hname] at hgives
      obtain ⟨code, rfl⟩ := hgives
      exact Or.inl ⟨fitting_none, h.grown⟩
  | some key =>
      rw [hname] at hgives
      obtain rfl : r = .ok key := hgives
      dsimp only
      by_cases hshort : (adapterKey key).strlen < maxKeyLength
      · have hfits : snprintf maxKeyLength (networkAdapters ++ CString.lit "\\" ++ key) =
            some (adapterKey key) := if_pos hshort
        rw [hfits]
        refine Prog.Wp.mono (Q := Grown cands (reg.entry id (some key)).toList t) ?_
          fun o u hgrown => Or.inl ⟨fitting_some.mpr hshort, hgrown⟩
        refine (Prog.wp_call_bind _ _).mpr fun r u hopen => ?_
        rcases hopen with ⟨hcan, k, rfl, hfree, rfl⟩ | ⟨hcannot, ⟨code, rfl⟩, rfl⟩
        · obtain ⟨a, ha⟩ := Option.ne_none_iff_exists'.mp (canOpen_adapterKey.mp hcan)
          have hopened : (t.setKey k (some (adapterKey key))).keys k = some (adapterKey key) :=
            Function.update_self ..
          rw [entry_of_some ha]
          refine (checkValues_wp (h.setKey k _) hopened ha).bind fun o v hgrown => ?_
          obtain ⟨ids, new, rfl, hholds, htexts, hkeys, hfiles⟩ := hgrown
          refine (Prog.wp_call_bind _ _).mpr fun _ w hclose => ?_
          obtain rfl : w = v.setKey k none := hclose
          refine ⟨ids, new, rfl, hholds.setKey k none, htexts, ?_, hfiles⟩
          show Function.update v.keys k none = t.keys
          rw [hkeys]
          exact setKey_setKey hfree
        · have hnone : reg.adapter key = none := by
            by_contra hsome
            exact hcannot (canOpen_adapterKey.mpr hsome)
          exact h.skipped (entry_of_none hnone)
      · have hcut : snprintf maxKeyLength (networkAdapters ++ CString.lit "\\" ++ key) = none :=
          if_neg hshort
        rw [hcut]
        exact Or.inr ⟨fun hfits => hshort (fitting_some.mp hfits), rfl⟩

theorem Grown.append {new : List Candidate} {texts more : List CString} {t u : Machine}
    {o : Outcome Deviceids} (htexts : new.map Candidate.text = cands.map Candidate.text ++ texts)
    (hkeys : t.keys = s.keys) (hfiles : t.files = s.files) (h : Grown new more t o u) :
    Grown cands (texts ++ more) s o u := by
  obtain ⟨ids, last, ho, hholds, hlast, hkeys', hfiles'⟩ := h
  refine ⟨ids, last, ho, hholds, ?_, hkeys'.trans hkeys, hfiles'.trans hfiles⟩
  rw [hlast, htexts, List.append_assoc]

theorem walkAdapters_wp {names : List (Option CString)} (hnames : reg.subKeys = some names)
    (n i : Nat) (hi : i + n = names.length) (h : Holds deviceids cands s)
    (hkey : s.keys adapters = some networkAdapters) :
    (walkAdapters networkAdapters adapters id n i deviceids).Wp (machine reg devices)
      (Walked (names.drop i) cands ((names.drop i).filterMap (reg.entry id)) s) s := by
  induction n generalizing i deviceids cands s with
  | zero =>
      rw [List.drop_eq_nil_of_le (by omega)]
      exact Or.inl ⟨fitting_nil, h.grown⟩
  | succ n ih =>
      have hlt : i < names.length := by omega
      have hname : reg.name i = names[i] := by
        unfold Registry.name
        rw [hnames]
        show names[i]?.join = names[i]
        rw [List.getElem?_eq_getElem hlt]
        rfl
      have hdrop : names.drop i = reg.name i :: names.drop (i + 1) := by
        rw [hname]
        exact List.drop_eq_getElem_cons hlt
      have hentries : (names.drop i).filterMap (reg.entry id) =
          (reg.entry id (reg.name i)).toList ++ (names.drop (i + 1)).filterMap (reg.entry id) := by
        rw [hdrop, List.filterMap_cons]
        cases reg.entry id (reg.name i) <;> rfl
      rw [hentries, hdrop]
      unfold walkAdapters
      refine (visitAdapter_wp h hkey i).bind fun o t hvisited => ?_
      rcases hvisited with ⟨hfits, ids, new, rfl, hholds, htexts, hkeys, hfiles⟩ | ⟨hcut, rfl⟩
      · refine (ih (i + 1) (by omega) hholds (hkeys ▸ hkey)).mono fun o u hrest => ?_
        rcases hrest with ⟨hfits', hgrown⟩ | ⟨hcut, rfl⟩
        · exact Or.inl ⟨fitting_cons.mpr ⟨hfits, hfits'⟩, hgrown.append htexts hkeys hfiles⟩
        · exact Or.inr ⟨fun hall => hcut (fitting_cons.mp hall).2, rfl⟩
      · exact Or.inr ⟨fun hall => hcut (fitting_cons.mp hall).1, rfl⟩

/-- The list before the walk: a block with the sentinel. -/
theorem Holds.sentinel {block : Ptr} {k : Int → Option CString} {files : List Int} :
    Holds ⟨block, [none]⟩ [] ⟨k, insert block ∅, false, files⟩ where
  entries := rfl
  blocks := rfl
  nodup := List.nodup_singleton block
  misfreed := rfl

/-- What `reg_query` answers: the list of candidates when the key can be read,
and otherwise a null pointer. A path that does not fit ends the process. -/
def Listed (reg : Registry) (id : Int) (o : Outcome (Option Deviceids)) (t : Machine) : Prop :=
  (reg.Readable ∧ reg.Fits ∧ ∃ deviceids cands, o = .returned (some deviceids) ∧
    Holds deviceids cands t ∧ cands.map Candidate.text = reg.candidates id ∧
      t.keys = Machine.empty.keys ∧ t.files = []) ∨
  (reg.Readable ∧ ¬ reg.Fits ∧ o = .crashed) ∨
  ¬ reg.Readable ∧ o = .returned none

theorem Registry.readable_iff {names : List (Option CString)} (hnames : reg.subKeys = some names) :
    reg.Readable ↔ reg.opens = true ∧ names ≠ [] := by
  unfold Registry.Readable
  rw [hnames]
  simp only [Option.some.injEq, exists_eq_left']

theorem Registry.fits_iff {names : List (Option CString)} (hnames : reg.subKeys = some names) :
    reg.Fits ↔ Fitting names := by
  unfold Registry.Fits
  rw [hnames]
  exact Iff.rfl

theorem regQuery_wp :
    (regQuery networkAdapters id).Wp (machine reg devices) (Listed reg id) Machine.empty := by
  unfold regQuery
  refine (Prog.wp_call_bind _ _).mpr fun block s ⟨hblock, _, hs⟩ => ?_
  subst hs
  rw [if_neg hblock]
  refine (Prog.wp_call_bind _ _).mpr fun r t hopen => ?_
  rcases hopen with ⟨hcan, k, rfl, hfree, rfl⟩ | ⟨hcannot, ⟨code, rfl⟩, rfl⟩
  · have hopens : reg.opens = true := by
      rcases hcan with ⟨-, h⟩ | ⟨name, h, -⟩
      · exact h
      · exact absurd h.symm (adapterKey_ne name)
    refine (Prog.wp_call_bind _ _).mpr fun r u ⟨hu, hr⟩ => ?_
    subst hu
    have hgives := hr (Function.update_self ..)
    cases hnames : reg.subKeys with
    | none =>
        rw [hnames] at hgives
        obtain ⟨code, rfl⟩ := hgives
        intro _ v _
        refine Or.inr (Or.inr ⟨fun hreadable => ?_, rfl⟩)
        obtain ⟨-, names, h, -⟩ := hreadable
        rw [hnames] at h
        cases h
    | some names =>
        rw [hnames] at hgives
        obtain rfl : r = .ok names.length := hgives
        refine (Prog.wp_ite _ _ _).mpr ⟨fun hzero => ?_, fun hpos => ?_⟩
        · intro _ v _
          refine Or.inr (Or.inr ⟨fun hreadable => ?_, rfl⟩)
          refine ((Registry.readable_iff hnames).mp hreadable).2 ?_
          exact List.eq_nil_of_length_eq_zero (Nat.le_zero.mp hzero)
        · have hreadable : reg.Readable := by
            refine (Registry.readable_iff hnames).mpr ⟨hopens, fun h => hpos ?_⟩
            rw [h]
            exact Nat.le_refl 0
          have hall := Registry.fits_iff hnames
          refine (walkAdapters_wp hnames names.length 0 (Nat.zero_add _) Holds.sentinel
            (Function.update_self ..)).bind fun o v hwalked => ?_
          rcases hwalked with ⟨hfits, ids, new, rfl, hholds, htexts, hkeys, hfiles⟩ | ⟨hcut, rfl⟩
          · refine (Prog.wp_call_bind _ _).mpr fun _ w hclose => ?_
            obtain rfl : w = v.setKey k none := hclose
            refine Or.inl ⟨hreadable, hall.mpr hfits, ids, new, rfl, hholds.setKey k none, ?_, ?_,
              hfiles⟩
            · rw [htexts]
              unfold Registry.candidates
              rw [hnames]
              rfl
            · show Function.update v.keys k none = _
              rw [hkeys]
              exact setKey_setKey hfree
          · exact Or.inr (Or.inl ⟨hreadable, fun hfits => hcut (hall.mp hfits), rfl⟩)
  · intro _ v _
    refine Or.inr (Or.inr ⟨fun hreadable => hcannot ?_, rfl⟩)
    exact Or.inl ⟨rfl, hreadable.1⟩

end Walk

/-! ## One adapter -/

section Single

variable {device name : CString} {a : Adapter}

theorem adapter_single (h : (Registry.single device).adapter name = some a) :
    a = .tap device := by
  unfold Registry.single at h
  dsimp only at h
  split at h
  · exact (Option.some.inj h).symm
  · cases h

theorem readable_single (device : CString) : (Registry.single device).Readable :=
  ⟨rfl, _, rfl, List.cons_ne_nil _ _⟩

theorem fits_single (device : CString) : (Registry.single device).Fits :=
  fitting_some.mpr (by decide)

theorem guids_single (device : CString) : (Registry.single device).Guids := by
  intro name a text ha htext
  rw [adapter_single ha] at htext
  obtain rfl := Option.some.inj htext
  decide

end Single

end Libtuntap.Windows
