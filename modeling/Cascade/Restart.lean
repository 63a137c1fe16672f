import Cascade.Persistence
import Cascade.Startup

/-!
# Restart after a crash

The global state file lists the zones, and each of them has a state file of its own.  The saves of
the two are tasks apart, and `main` refuses to start when a listed zone has no state file, though it
puts up with a missing global state file.  So a daemon cannot be restarted that has saved its list
of zones before the state of a new one.
-/

namespace Cascade

open Lib

/-! ## The start -/

/-- The loop of `main` over the zones; `none` is `ExitCode::FAILURE`. -/
def loadZones (zoneFiles : HashMap Name ZoneStateFile.Spec) (state : State) :
    List Name → Option State
  | [] => some state
  | name :: names =>
    match zoneFiles.lookup name with
    | none => none
    | some spec => loadZones zoneFiles (loadZoneState state name spec) names

/-- The part of `main` that loads the state files.  Without a global state file the daemon starts
from scratch, with the policies of the policy directory. -/
def loadAll (config : Config) (policies : HashMap String Policy)
    (stateFile : Option StateFile.Spec) (zoneFiles : HashMap Name ZoneStateFile.Spec) :
    Option State :=
  match stateFile with
  | none => some { State.new config with policies }
  | some spec =>
    let (state, _) := spec.parseInto (State.new config) []
    loadZones zoneFiles state state.zones.keys

section

variable {zoneFiles : HashMap Name ZoneStateFile.Spec} {state state' : State}

theorem loadZones_isSome_iff {names : List Name} :
    (loadZones zoneFiles state names).isSome = true ↔ ∀ n ∈ names, n ∈ zoneFiles := by
  induction names generalizing state with
  | nil => simp [loadZones]
  | cons name names ih =>
    have hmem := HashMap.mem_iff_lookup (m := zoneFiles) (k := name)
    unfold loadZones
    cases hfile : zoneFiles.lookup name with
    | none =>
      have hnot : name ∉ zoneFiles := AList.lookup_eq_none.mp hfile
      simp [hnot]
    | some spec =>
      rw [List.forall_mem_cons, ih]
      exact (and_iff_right (hmem.mpr ⟨spec, hfile⟩)).symm

-- A start knows the zones of the global state file.
theorem mem_zones_loadZones {names : List Name} (h : loadZones zoneFiles state names = some state')
    (n : Name) : n ∈ state'.zones ↔ n ∈ state.zones := by
  induction names generalizing state with
  | nil =>
    cases h
    rfl
  | cons name names ih =>
    unfold loadZones at h
    cases hfile : zoneFiles.lookup name with
    | none =>
      rw [hfile] at h
      cases h
    | some spec =>
      rw [hfile] at h
      rw [ih h, mem_zones_loadZoneState]

end

theorem mem_zones_parseInto (spec : StateFile.Spec) (config : Config) (n : Name) :
    n ∈ (spec.parseInto (State.new config) []).1.zones ↔ n ∈ spec.zones := by
  rw [HashMap.mem_iff_lookup, StateFile.lookup_parseInto_zones]
  by_cases hn : n ∈ spec.zones
  · simp [hn]
  · simp [hn]

/-- Every zone of the global state file has a state file. -/
def OnDisk (stateFile : Option StateFile.Spec) (zoneFiles : HashMap Name ZoneStateFile.Spec) :
    Prop := ∀ spec, stateFile = some spec → ∀ n ∈ spec.zones, n ∈ zoneFiles

-- The files are accepted exactly when every zone that is listed has a state file.
theorem loadAll_isSome_iff {config : Config} {policies : HashMap String Policy}
    {stateFile : Option StateFile.Spec} {zoneFiles : HashMap Name ZoneStateFile.Spec} :
    (loadAll config policies stateFile zoneFiles).isSome = true ↔ OnDisk stateFile zoneFiles := by
  cases stateFile with
  | none => exact iff_of_true rfl (fun _ h ↦ by cases h)
  | some spec =>
    have hload : (loadAll config policies (some spec) zoneFiles).isSome = true ↔
        ∀ n ∈ (spec.parseInto (State.new config) []).1.zones.keys, n ∈ zoneFiles :=
      loadZones_isSome_iff
    rw [hload]
    unfold OnDisk
    constructor
    · intro h other hother n hn
      cases hother
      exact h n ((mem_zones_parseInto spec config n).mpr hn)
    · intro h n hn
      exact h spec rfl n ((mem_zones_parseInto spec config n).mp hn)

theorem mem_zones_loadAll {config : Config} {policies : HashMap String Policy}
    {stateFile : Option StateFile.Spec} {zoneFiles : HashMap Name ZoneStateFile.Spec}
    {state : State} (h : loadAll config policies stateFile zoneFiles = some state) {n : Name}
    (hn : n ∈ state.zones) : n ∈ zoneFiles := by
  have hdisk : OnDisk stateFile zoneFiles := by
    rw [← loadAll_isSome_iff, h]
    rfl
  cases stateFile with
  | none =>
    cases h
    exact absurd hn (AList.notMem_empty n)
  | some spec =>
    have hzones := (mem_zones_loadZones h n).mp hn
    exact hdisk spec rfl n ((mem_zones_parseInto spec config n).mp hzones)

/-! ## A daemon and its files -/

/-- The registry, the zones that were removed while a save of theirs was enqueued, and the files. -/
structure Daemon where
  center : Center
  removed : List (Name × ZoneState)
  stateFile : Option StateFile.Spec
  zoneFiles : HashMap Name ZoneStateFile.Spec

namespace Daemon

/-- An operation on the registry, a save, or a crash followed by a start with the given
configuration and policy directory. -/
inductive Action
  | addZone (name : Name)
  | removeZone (name : Name)
  | changePolicy (name : Name) (policy : String)
  | saveState
  | saveZone (name : Name)
  | saveRemoved (i : Nat)
  | restart (config : Config) (policies : HashMap String Policy)

/-- What the tasks of a zone that is removed still hold: its state, without the policy. -/
def removedZone (p : Daemon) (name : Name) : List (Name × ZoneState) :=
  match p.center.state.zones.lookup name with
  | some zone => [(name, { zone with policy := none })]
  | none => []

/-- The task that saves the global state. -/
def saveState (p : Daemon) : Option Daemon :=
  match p.center.state.enqueuedSave with
  | none => none
  | some _ =>
    some { p with
      center := { p.center with state := { p.center.state with enqueuedSave := none } }
      stateFile := some (StateFile.Spec.build p.center.state) }

/-- The task that saves a zone. -/
def saveZone (p : Daemon) (name : Name) : Option Daemon :=
  match p.center.state.zones.lookup name with
  | none => none
  | some zone =>
    match zone.enqueuedSave with
    | none => none
    | some _ =>
      some { p with
        center := p.center.setZone name { zone with enqueuedSave := none }
        zoneFiles := p.zoneFiles.insert name (ZoneStateFile.Spec.build zone) }

/-- The task of a zone that was removed saves it all the same. -/
def saveRemoved (p : Daemon) (i : Nat) : Option Daemon :=
  match p.removed[i]? with
  | none => none
  | some (name, zone) =>
    match zone.enqueuedSave with
    | none => none
    | some _ =>
      some { p with
        removed := p.removed.set i (name, { zone with enqueuedSave := none })
        zoneFiles := p.zoneFiles.insert name (ZoneStateFile.Spec.build zone) }

def restart (p : Daemon) (config : Config) (policies : HashMap String Policy) : Option Daemon :=
  match loadAll config policies p.stateFile p.zoneFiles with
  | none => none
  | some state =>
    some { p with center := { state, updateTx := [], nextTask := 0 }, removed := [] }

def step (p : Daemon) : Action → Option Daemon
  | .addZone name => some { p with center := (Cascade.addZone p.center name).2 }
  | .removeZone name =>
    match Cascade.removeZone p.center name with
    | .error _ => none
    | .ok (_, center) => some { p with center, removed := p.removed ++ p.removedZone name }
  | .changePolicy name policy =>
    match Cascade.changePolicy p.center name policy with
    | .error _ => none
    | .ok (_, center) => some { p with center }
  | .saveState => p.saveState
  | .saveZone name => p.saveZone name
  | .saveRemoved i => p.saveRemoved i
  | .restart config policies => p.restart config policies

/-- A daemon that starts from scratch; the state files of zones may be there. -/
def Started (p : Daemon) : Prop := p.center.state.zones = ∅ ∧ p.removed = [] ∧ p.stateFile = none

/-- The global state is saved only when every known zone with an enqueued save has a state file
already. -/
def savesZonesFirst (p : Daemon) : Action → Bool
  | .saveState => p.center.state.zones.entries.all
      (fun zone ↦ zone.2.enqueuedSave.isNone || decide (zone.1 ∈ p.zoneFiles))
  | _ => true

/-- The invariant: a known zone without a state file has a save enqueued, and the files are
accepted. -/
structure Kept (p : Daemon) : Prop where
  known : ∀ n z, p.center.state.zones.lookup n = some z → z.enqueuedSave = none → n ∈ p.zoneFiles
  onDisk : OnDisk p.stateFile p.zoneFiles

variable {p p' : Daemon}

theorem kept_started (h : p.Started) : p.Kept := by
  have ⟨hzones, _, hfile⟩ := h
  refine ⟨?_, ?_⟩
  · intro n z hz
    rw [hzones] at hz
    exact absurd hz (by simp)
  · intro spec hspec
    rw [hfile] at hspec
    cases hspec

-- Operations on the registry write no file, and every zone they change gets a save.
theorem Kept.of_zones (h : p.Kept) {center : Center} {removed : List (Name × ZoneState)}
    (hzones : ∀ n z', center.state.zones.lookup n = some z' →
      p.center.state.zones.lookup n = some z' ∨ z'.enqueuedSave.isSome = true) :
    Kept { p with center, removed } := by
  refine ⟨?_, h.onDisk⟩
  intro n z' hz' hnone
  rcases hzones n z' hz' with hsame | hsave
  · exact h.known n z' hsame hnone
  · rw [hnone] at hsave
    cases hsave

-- Files of zones are only ever added.
theorem onDisk_insert {stateFile : Option StateFile.Spec}
    {zoneFiles : HashMap Name ZoneStateFile.Spec} (h : OnDisk stateFile zoneFiles) (name : Name)
    (spec : ZoneStateFile.Spec) : OnDisk stateFile (zoneFiles.insert name spec) := by
  intro file hfile n hn
  rw [AList.mem_insert]
  exact Or.inr (h file hfile n hn)

-- The global state that is saved can be loaded exactly when the zones were saved first.
theorem saveState_onDisk_iff (h : p.Kept) (hp' : p.saveState = some p') :
    OnDisk p'.stateFile p'.zoneFiles ↔ p.savesZonesFirst .saveState = true := by
  unfold saveState at hp'
  split at hp'
  · cases hp'
  · cases hp'
    unfold OnDisk savesZonesFirst
    rw [List.all_eq_true]
    constructor
    · intro hdisk zone hzone
      have hz : p.center.state.zones.lookup zone.1 = some zone.2 :=
        HashMap.lookup_eq_some_iff.mpr hzone
      have hmem := hdisk _ rfl zone.1 ((mem_build_zones _ _).mpr
        (HashMap.mem_iff_lookup.mpr ⟨zone.2, hz⟩))
      simp [hmem]
    · intro hfirst spec hspec n hn
      cases hspec
      have ⟨z, hz⟩ := HashMap.mem_iff_lookup.mp ((mem_build_zones _ _).mp hn)
      have hall := hfirst ⟨n, z⟩ (HashMap.lookup_eq_some_iff.mp hz)
      cases hsave : z.enqueuedSave with
      | none => exact h.known n z hz hsave
      | some task => simpa [hsave] using hall

theorem Kept.saveState (h : p.Kept) (hok : p.savesZonesFirst .saveState = true)
    (hp' : p.saveState = some p') : p'.Kept := by
  refine ⟨?_, (saveState_onDisk_iff h hp').mpr hok⟩
  unfold Daemon.saveState at hp'
  split at hp'
  · cases hp'
  · cases hp'
    exact h.known

theorem Kept.saveZone (h : p.Kept) {name : Name} (hp' : p.saveZone name = some p') : p'.Kept := by
  unfold Daemon.saveZone at hp'
  cases hz : p.center.state.zones.lookup name with
  | none =>
    rw [hz] at hp'
    cases hp'
  | some zone =>
    rw [hz] at hp'
    simp only at hp'
    split at hp'
    · cases hp'
    · cases hp'
      refine ⟨?_, onDisk_insert h.onDisk name _⟩
      intro n z hlookup hnone
      rw [AList.mem_insert]
      by_cases hn : n = name
      · exact Or.inl hn
      · have hother : p.center.state.zones.lookup n = some z := by
          rw [← hlookup]
          exact (AList.lookup_insert_ne hn).symm
        exact Or.inr (h.known n z hother hnone)

theorem Kept.saveRemoved (h : p.Kept) {i : Nat} (hp' : p.saveRemoved i = some p') : p'.Kept := by
  unfold Daemon.saveRemoved at hp'
  split at hp'
  · cases hp'
  next name zone _ =>
    split at hp'
    · cases hp'
    · cases hp'
      refine ⟨?_, onDisk_insert h.onDisk name _⟩
      intro n z hz hnone
      rw [AList.mem_insert]
      exact Or.inr (h.known n z hz hnone)

theorem Kept.restart (h : p.Kept) {config : Config} {policies : HashMap String Policy}
    (hp' : p.restart config policies = some p') : p'.Kept := by
  unfold Daemon.restart at hp'
  split at hp'
  · cases hp'
  next state hload =>
    cases hp'
    refine ⟨?_, h.onDisk⟩
    intro n z hz _
    exact mem_zones_loadAll hload (HashMap.mem_iff_lookup.mpr ⟨z, hz⟩)

theorem Kept.step (h : p.Kept) {a : Action} (hok : p.savesZonesFirst a = true)
    (hp' : p.step a = some p') : p'.Kept := by
  cases a with
  | addZone name =>
    cases hp'
    exact h.of_zones (addZone_writes p.center name)
  | removeZone name =>
    simp only [Daemon.step] at hp'
    split at hp'
    · cases hp'
    next r center hrun =>
      cases hp'
      exact h.of_zones (fun n z' hz' ↦ Or.inl (removeZone_writes hrun n z' hz'))
  | changePolicy name policy =>
    simp only [Daemon.step] at hp'
    split at hp'
    · cases hp'
    next r center hrun =>
      cases hp'
      apply h.of_zones
      intro n z' hz'
      rcases changePolicy_writes hrun with hsame | ⟨-, ⟨znew, hnew, hsave⟩, hother⟩
      · rw [hsame] at hz'
        exact Or.inl hz'
      · by_cases hn : n = name
        · subst hn
          rw [hnew] at hz'
          rw [← Option.some.inj hz']
          exact Or.inr hsave
        · rw [hother n hn] at hz'
          exact Or.inl hz'
  | saveState => exact h.saveState hok hp'
  | saveZone name => exact h.saveZone hp'
  | saveRemoved i => exact h.saveRemoved hp'
  | restart config policies => exact h.restart hp'

/-- In every run in which the global state is saved only when every known zone with an enqueued save
has a state file already, and at every point of it, every zone of the global state file has a state
file, so that a daemon that crashes there can be started again. -/
theorem restarts_after_crash
    (h : Reach step (fun p a ↦ p.savesZonesFirst a = true) Started p) (config : Config)
    (policies : HashMap String Policy) :
    OnDisk p.stateFile p.zoneFiles ∧
      (loadAll config policies p.stateFile p.zoneFiles).isSome = true := by
  have hkept : p.Kept :=
    h.invariant (fun _ ↦ kept_started) (fun _ _ _ hp hok hp' ↦ hp.step hok hp')
  exact ⟨hkept.onDisk, loadAll_isSome_iff.mpr hkept.onDisk⟩

/-! ## A zone that is added just before the crash -/

namespace CrashExample

def zone : Name := ⟨[[99, 114]], by decide⟩

def daemon : Daemon := ⟨⟨State.new Config.default, [], 0⟩, [], none, ∅⟩

/-- Whether the daemon can be started from its files. -/
def starts (p : Daemon) : Bool := (loadAll Config.default ∅ p.stateFile p.zoneFiles).isSome

end CrashExample

open CrashExample in
theorem new_zone_restarts : ∃ p : Daemon, p.stateFile.isSome = true ∧ p.center.state.zones.keys = [] ∧
    OnDisk p.stateFile p.zoneFiles ∧
      (loadAll Config.default ∅ p.stateFile p.zoneFiles).isSome = true := by
  have hstarted : daemon.Started := ⟨rfl, rfl, rfl⟩
  have hrun : ∃ p, Reach step (fun p a ↦ p.savesZonesFirst a = true) Started p ∧
      decide (p.stateFile.isSome = true ∧ p.center.state.zones.keys = []) = true :=
    Reach.of_exec hstarted [.addZone zone, .saveZone zone, .saveState, .restart Config.default ∅,
      .removeZone zone] (by decide) (by decide)
  have ⟨p, hp, hend⟩ := hrun
  have ⟨hfile, hzones⟩ := of_decide_eq_true hend
  exact ⟨p, hfile, hzones, restarts_after_crash hp Config.default ∅⟩

open CrashExample in
/-- The list of zones is saved before the state of the zone that was added: the files are refused. -/
theorem new_zone_refused : ∃ p : Daemon, Reach step anyStep Started p ∧
    loadAll Config.default ∅ p.stateFile p.zoneFiles = none := by
  have hstarted : daemon.Started := ⟨rfl, rfl, rfl⟩
  have hrun : ∃ p, Reach step anyStep Started p ∧ (!starts p) = true :=
    Reach.of_exec_any hstarted [.addZone zone, .saveState] (by decide)
  have ⟨p, hp, hend⟩ := hrun
  refine ⟨p, hp, ?_⟩
  cases hload : loadAll Config.default ∅ p.stateFile p.zoneFiles with
  | none => rfl
  | some state => simp [starts, hload] at hend

end Daemon

end Cascade
