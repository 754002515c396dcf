import Mathlib.Data.Fintype.EquivFin
import Mathlib.Logic.Function.Basic
import Libtuntap.CMem.Decimal
import Libtuntap.Effect.Wp
import Libtuntap.Windows.Tuntap

/-!
# The machine a Windows start runs on

Its registry has the key of the network adapters, or not, and under it the keys
of the adapters. A value is there if a query with a buffer of 256 bytes gets it. On
Windows the keys of a class have short names (they are four digits), and a
`NetCfgInstanceId` is a GUID in braces. The registry here may be any; `Fits` and
`Guids` are what the buffers of the program count on.

Which device paths can be opened, and with which handle, is fixed beforehand.
Memory is always found. The state keeps what the program owes for: the registry
keys, blocks and files it holds, and whether it has freed a block it does not
hold.
-/

namespace Libtuntap.Windows

open Effect CMem

/-- The values of an adapter's key. -/
structure Adapter where
  componentId : Option CString
  deviceInstanceId : Option CString
  netCfgInstanceId : Option CString

def Adapter.value (adapter : Adapter) (name : CString) : Option CString :=
  if name = CString.lit "ComponentId" then adapter.componentId
  else if name = CString.lit "DeviceInstanceId" then adapter.deviceInstanceId
  else if name = CString.lit "NetCfgInstanceId" then adapter.netCfgInstanceId
  else none

/-- The key of an adapter. -/
def adapterKey (name : CString) : CString := networkAdapters ++ CString.lit "\\" ++ name

/-- What the registry has of network adapters: whether the key can be opened,
the names of its subkeys as they are enumerated if it can be queried, and the
adapters whose keys can be opened. -/
structure Registry where
  opens : Bool
  subKeys : Option (List (Option CString))
  adapter : CString → Option Adapter

/-- The path of each of these subkeys fits the buffer it is composed in. -/
def Fitting (names : List (Option CString)) : Prop :=
  ∀ name, some name ∈ names → (adapterKey name).strlen < maxKeyLength

def Registry.Fits (reg : Registry) : Prop := Fitting (reg.subKeys.getD [])

/-- A `NetCfgInstanceId` is as long as a GUID in braces. -/
def Registry.Guids (reg : Registry) : Prop :=
  ∀ name a id, reg.adapter name = some a → a.netCfgInstanceId = some id → id.strlen = 38

/-- The subkey of an index. -/
def Registry.name (reg : Registry) (i : Nat) : Option CString :=
  reg.subKeys.bind fun names => names[i]?.join

/-- A key that can be opened for reading. -/
def Registry.CanOpen (reg : Registry) (key : CString) : Prop :=
  key = networkAdapters ∧ reg.opens = true ∨
    ∃ name, key = adapterKey name ∧ reg.adapter name ≠ none

/-- What a start holds. -/
structure Machine where
  keys : Int → Option CString
  blocks : Finset Ptr
  misfreed : Bool
  files : List Int

/-- It holds nothing. -/
def Machine.empty : Machine := ⟨fun _ => none, ∅, false, []⟩

/-- The value if there is one, and an error code otherwise. -/
def Gives {α : Type} (r : Except Nat α) : Option α → Prop
  | some v => r = .ok v
  | none => ∃ code, r = .error code

namespace Machine

def setKey (s : Machine) (h : Int) (key : Option CString) : Machine :=
  { s with keys := Function.update s.keys h key }

def release (s : Machine) (p : Ptr) : Machine :=
  if p ∈ s.blocks then { s with blocks := s.blocks.erase p } else { s with misfreed := true }

/-- One call: the machine before, the call, its reply, and the machine after. -/
def Step (reg : Registry) (devices : CString → Option Int) (s : Machine) :
    (c : Call) → Resp c → Machine → Prop
  | .malloc _, p, s' => p ≠ 0 ∧ p ∉ s.blocks ∧ s' = { s with blocks := insert p s.blocks }
  | .strdup _, p, s' => p ≠ 0 ∧ p ∉ s.blocks ∧ s' = { s with blocks := insert p s.blocks }
  | .realloc q _, p, s' =>
      p ≠ 0 ∧ p ∉ s.blocks.erase q ∧ s' = { s with blocks := insert p (s.blocks.erase q) }
  | .free p, _, s' => s' = s.release p
  | .regOpenKeyEx key, r, s' =>
      reg.CanOpen key ∧ (∃ h, r = .ok h ∧ s.keys h = none ∧ s' = s.setKey h (some key)) ∨
        ¬ reg.CanOpen key ∧ (∃ code, r = .error code) ∧ s' = s
  | .regQueryInfoKey h, r, s' =>
      s' = s ∧ (s.keys h = some networkAdapters → Gives r (reg.subKeys.map List.length))
  | .regEnumKeyEx h i _, r, s' =>
      s' = s ∧ (s.keys h = some networkAdapters → Gives r (reg.name i))
  | .regQueryValueEx h value _, r, s' =>
      s' = s ∧ ∀ name a, s.keys h = some (adapterKey name) → reg.adapter name = some a →
        Gives r (a.value value)
  | .regCloseKey h, _, s' => s' = s.setKey h none
  | .createFile path, fd, s' =>
      match devices path with
      | some h => fd = h ∧ s' = { s with files := h :: s.files }
      | none => fd = tunfdInvalidValue ∧ s' = s
  | _, _, s' => s' = s

end Machine

def machine (reg : Registry) (devices : CString → Option Int) : Kernel Call Resp Machine :=
  Machine.Step reg devices

/-- A new handle is always there to be given. -/
def Machine.Roomy (s : Machine) : Prop := ∃ held : Finset Int, ∀ h, h ∉ held → s.keys h = none

theorem Machine.Roomy.setKey {s : Machine} (hs : s.Roomy) (h : Int) (key : Option CString) :
    (s.setKey h key).Roomy := by
  obtain ⟨held, hheld⟩ := hs
  refine ⟨insert h held, fun h' hnew => ?_⟩
  rw [Finset.mem_insert, not_or] at hnew
  show Function.update s.keys h key h' = none
  rw [Function.update_of_ne hnew.1]
  exact hheld h' hnew.2

theorem Machine.roomy_empty : Machine.empty.Roomy := ⟨∅, fun _ _ => rfl⟩

theorem exists_gives {α : Type} (o : Option α) : ∃ r : Except Nat α, Gives r o := by
  cases o with
  | none => exact ⟨.error 2, 2, rfl⟩
  | some v => exact ⟨.ok v, rfl⟩

/-- The machine always has a reply. -/
theorem machine_replies (reg : Registry) (devices : CString → Option Int) (s : Machine) (c : Call)
    (hs : s.Roomy) : ∃ r s', machine reg devices s c r s' ∧ s'.Roomy := by
  have hblock : ∀ blocks : Finset Ptr, ∃ p : Ptr, p ≠ 0 ∧ p ∉ blocks := by
    intro blocks
    obtain ⟨p, hp⟩ := Infinite.exists_notMem_finset (insert 0 blocks)
    rw [Finset.mem_insert, not_or] at hp
    exact ⟨p, hp⟩
  cases c with
  | malloc size =>
      obtain ⟨p, hp, hnew⟩ := hblock s.blocks
      exact ⟨p, { s with blocks := insert p s.blocks }, ⟨hp, hnew, rfl⟩, hs⟩
  | strdup text =>
      obtain ⟨p, hp, hnew⟩ := hblock s.blocks
      exact ⟨p, { s with blocks := insert p s.blocks }, ⟨hp, hnew, rfl⟩, hs⟩
  | realloc q size =>
      obtain ⟨p, hp, hnew⟩ := hblock (s.blocks.erase q)
      exact ⟨p, { s with blocks := insert p (s.blocks.erase q) }, ⟨hp, hnew, rfl⟩, hs⟩
  | free p =>
      refine ⟨(), s.release p, rfl, ?_⟩
      unfold Machine.release
      split
      · exact hs
      · exact hs
  | regOpenKeyEx key =>
      by_cases hcan : reg.CanOpen key
      · obtain ⟨held, hheld⟩ := hs
        obtain ⟨h, hh⟩ := Infinite.exists_notMem_finset held
        exact ⟨.ok h, s.setKey h (some key), Or.inl ⟨hcan, h, rfl, hheld h hh, rfl⟩,
          Machine.Roomy.setKey ⟨held, hheld⟩ h _⟩
      · exact ⟨.error 2, s, Or.inr ⟨hcan, ⟨2, rfl⟩, rfl⟩, hs⟩
  | regQueryInfoKey h =>
      obtain ⟨r, hr⟩ := exists_gives (reg.subKeys.map List.length)
      exact ⟨r, s, ⟨rfl, fun _ => hr⟩, hs⟩
  | regEnumKeyEx h i keylen =>
      obtain ⟨r, hr⟩ := exists_gives (reg.name i)
      exact ⟨r, s, ⟨rfl, fun _ => hr⟩, hs⟩
  | regQueryValueEx h value len =>
      by_cases hkey : ∃ name a, s.keys h = some (adapterKey name) ∧ reg.adapter name = some a
      · obtain ⟨name, a, hname, ha⟩ := hkey
        obtain ⟨r, hr⟩ := exists_gives (a.value value)
        refine ⟨r, s, ⟨rfl, fun name' a' hname' ha' => ?_⟩, hs⟩
        have heq := Option.some.inj (hname.symm.trans hname')
        obtain rfl : name = name' := CString.append_left_cancel heq
        obtain rfl : a = a' := Option.some.inj (ha.symm.trans ha')
        exact hr
      · exact ⟨.error 2, s, ⟨rfl, fun name a h h' => absurd ⟨name, a, h, h'⟩ hkey⟩, hs⟩
  | regCloseKey h => exact ⟨(0 : Nat), s.setKey h none, rfl, hs.setKey h none⟩
  | createFile path =>
      cases hdevice : devices path with
      | some h =>
          refine ⟨h, { s with files := h :: s.files }, ?_, hs⟩
          simp [machine, Machine.Step, hdevice]
      | none =>
          refine ⟨tunfdInvalidValue, s, ?_, hs⟩
          simp [machine, Machine.Step, hdevice]
  | _ => exact ⟨Classical.ofNonempty, s, rfl, hs⟩

/-! ## What `reg_query` looks for -/

/-- The adapter says it is a tap adapter. -/
def Adapter.IsTap (adapter : Adapter) : Prop :=
  ∃ component, adapter.componentId = some component ∧
    (startsWith component (CString.lit "tap") ∨ startsWith component (CString.lit "root\\tap"))

instance (adapter : Adapter) : Decidable adapter.IsTap :=
  match h : adapter.componentId with
  | none => .isFalse fun ⟨_, hc, _⟩ => by
      rw [h] at hc
      cases hc
  | some component =>
      decidable_of_iff (startsWith component (CString.lit "tap") ∨
        startsWith component (CString.lit "root\\tap")) (by simp [Adapter.IsTap, h])

/-- The number the code reads from the `DeviceInstanceId`. -/
def Adapter.index (adapter : Adapter) : Option Int :=
  adapter.deviceInstanceId.bind fun device => sscanfInt device (CString.lit "ROOT\\NET\\")

/-- The identifier the code appends for an adapter. -/
def Adapter.found (id : Int) (adapter : Adapter) : Option CString :=
  if adapter.IsTap ∧ ∃ idx ∈ adapter.index, tuntapIdAny = id ∨ idx = id then
    adapter.netCfgInstanceId
  else none

/-- The entry of a subkey. -/
def Registry.entry (reg : Registry) (id : Int) (name : Option CString) : Option CString :=
  (name.bind reg.adapter).bind (Adapter.found id)

/-- The candidates in the order of the subkeys. -/
def Registry.candidates (reg : Registry) (id : Int) : List CString :=
  (reg.subKeys.getD []).filterMap (reg.entry id)

/-- The key of the adapters can be opened and queried and has subkeys. -/
def Registry.Readable (reg : Registry) : Prop :=
  reg.opens = true ∧ ∃ names, reg.subKeys = some names ∧ names ≠ []

/-! ## Two registries -/

/-- The class of network adapters without an adapter. -/
def Registry.bare : Registry where
  opens := true
  subKeys := some []
  adapter _ := none

/-- A GUID in braces. -/
def guidOne : CString := CString.lit "\x7b00000000-0000-0000-0000-000000000001\x7d"

/-- A TAP adapter with an instance identifier. -/
def Adapter.tap (device : CString) : Adapter :=
  ⟨some (CString.lit "tap0901"), some device, some guidOne⟩

/-- It is the only adapter. -/
def Registry.single (device : CString) : Registry where
  opens := true
  subKeys := some [some (CString.lit "0001")]
  adapter name := if name = CString.lit "0001" then some (.tap device) else none

end Libtuntap.Windows
