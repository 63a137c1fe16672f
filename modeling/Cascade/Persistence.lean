import Cascade.ConfigFile
import Cascade.Link
import Cascade.StateFile
import Cascade.Tsig

/-!
# What is saved

Three kinds of state are saved to files: the global state, the state of each zone and the TSIG
store.  An operation that changes what one of the files should hold has to leave a save enqueued.
Removing a zone enqueues one only along with the zone's policy, and reloading the configuration
never does.
-/

namespace Cascade

open Lib

/-- The registry and the TSIG store, which the source keeps in the global state too. -/
structure Stores (Key : Type) where
  center : Center
  tsigStore : Tsig.TsigStore Key

/-- The operations on the global state and on the state of zones. -/
inductive StoreOp
  | addZone (name : Name)
  | removeZone (name : Name)
  | changePolicy (name : Name) (policy : String)
  | reloadConfig (file : Option ConfigFile.Spec)
  | tsig (action : Tsig.Action)

namespace Stores

variable {Key : Type} [Tsig.KeyLib Key]

/-- An operation on the TSIG store, which may spawn a task. -/
def applyTsig (s : Stores Key) (action : Tsig.Action) : Stores Key :=
  let tsigStore := Tsig.apply s.tsigStore s.center.nextTask action
  if tsigStore.enqueuedSave = s.tsigStore.enqueuedSave then { s with tsigStore }
  else { center := { s.center with nextTask := s.center.nextTask + 1 }, tsigStore }

def run (s : Stores Key) : StoreOp → Except String (Stores Key)
  | .addZone name => .ok { s with center := (Cascade.addZone s.center name).2 }
  | .removeZone name => do
    let (_, center) ← Cascade.removeZone s.center name
    .ok { s with center }
  | .changePolicy name policy => do
    let (_, center) ← Cascade.changePolicy s.center name policy
    .ok { s with center }
  | .reloadConfig file => .ok { s with center := (ConfigFile.reload s.center file).2 }
  | .tsig action => .ok (s.applyTsig action)

/-- An operation, or an enqueued save that takes its turn. -/
inductive Action
  | op (op : StoreOp)
  | saved
  | zoneSaved (name : Name)
  | tsigSaved

def step (s : Stores Key) : Action → Option (Stores Key)
  | .op op => (s.run op).toOption
  | .saved =>
    some { s with
      center := { s.center with state := { s.center.state with enqueuedSave := none } } }
  | .zoneSaved name =>
    (s.center.state.zones.lookup name).map (fun zone ↦
      { s with center := s.center.setZone name { zone with enqueuedSave := none } })
  | .tsigSaved => some { s with tsigStore := { s.tsigStore with enqueuedSave := none } }

/-- A daemon that starts from scratch. -/
def Started (s : Stores Key) : Prop := ∃ config, s = ⟨⟨State.new config, [], 0⟩, {}⟩

end Stores

/-! ## What an operation has to enqueue -/

/-- The two files hold the same, in whatever order. -/
def StateFile.Spec.Same (a b : StateFile.Spec) : Prop :=
  a.config = b.config ∧ (∀ n, n ∈ a.zones ↔ n ∈ b.zones) ∧
    ∀ k, a.policies.lookup k = b.policies.lookup k

def Tsig.Spec.Same (a b : Tsig.Spec) : Prop := ∀ n, a.map.lookup n = b.map.lookup n

namespace Stores

variable {Key : Type} [Tsig.KeyLib Key]

/-- Every file that should hold something else after the operation has a save enqueued.  A new zone
should have a file, and a removed one is no part of the state any more. -/
structure Scheduled (s s' : Stores Key) : Prop where
  state : ¬(StateFile.Spec.build s.center.state).Same (StateFile.Spec.build s'.center.state) →
    s'.center.state.enqueuedSave.isSome = true
  zone : ∀ n z', s'.center.state.zones.lookup n = some z' →
    (s.center.state.zones.lookup n).map ZoneStateFile.Spec.build ≠
      some (ZoneStateFile.Spec.build z') → z'.enqueuedSave.isSome = true
  tsig : ¬(Tsig.Spec.build s.tsigStore).Same (Tsig.Spec.build s'.tsigStore) →
    s'.tsigStore.enqueuedSave.isSome = true

/-- A zone that is removed has a policy, and a configuration file that is reloaded holds the settings
already in force, unless a save of the global state is enqueued anyway. -/
def SavedWhen (s : Stores Key) : StoreOp → Prop
  | .removeZone name => s.center.state.enqueuedSave.isSome = true ∨
    ∀ zone, s.center.state.zones.lookup name = some zone → zone.policy ≠ none
  | .reloadConfig (some file) => s.center.state.enqueuedSave.isSome = true ∨
    file.InForce s.center.state.config
  | _ => True

theorem scheduled_refl (s : Stores Key) : s.Scheduled s where
  state := fun h ↦ absurd ⟨rfl, fun _ ↦ Iff.rfl, fun _ ↦ rfl⟩ h
  zone := fun n z' hz h ↦ absurd (by rw [hz]; rfl) h
  tsig := fun h ↦ absurd (fun _ ↦ rfl) h

/-! ## Marking as dirty -/

end Stores

namespace Center

theorem markDirty_enqueued (c : Center) : c.markDirty.state.enqueuedSave.isSome = true := by
  unfold markDirty
  cases hsave : c.state.enqueuedSave with
  | none => rfl
  | some task => simp [hsave]

@[simp] theorem markDirty_config (c : Center) : c.markDirty.state.config = c.state.config := by
  unfold markDirty
  split <;> rfl

@[simp] theorem markZoneDirty_config (c : Center) (n : Name) (z : ZoneState) :
    (c.markZoneDirty n z).state.config = c.state.config := by
  unfold markZoneDirty
  split <;> rfl

@[simp] theorem markZoneDirty_enqueuedSave (c : Center) (n : Name) (z : ZoneState) :
    (c.markZoneDirty n z).state.enqueuedSave = c.state.enqueuedSave := by
  unfold markZoneDirty
  split <;> rfl

-- Marking a zone as dirty gives it a save, and leaves all other zones as they are.
theorem lookup_markZoneDirty (c : Center) (n : Name) (z : ZoneState) :
    (∃ z', (c.markZoneDirty n z).state.zones.lookup n = some z' ∧ z'.enqueuedSave.isSome = true) ∧
      ∀ m, m ≠ n → (c.markZoneDirty n z).state.zones.lookup m = c.state.zones.lookup m := by
  unfold markZoneDirty
  cases hsave : z.enqueuedSave with
  | none =>
    refine ⟨⟨{ z with enqueuedSave := some c.nextTask }, AList.lookup_insert _, rfl⟩, ?_⟩
    intro m hm
    exact AList.lookup_insert_ne hm
  | some task =>
    refine ⟨⟨z, AList.lookup_insert _, by rw [hsave]; rfl⟩, ?_⟩
    intro m hm
    exact AList.lookup_insert_ne hm

theorem mem_markZoneDirty (c : Center) (n m : Name) (z : ZoneState) :
    m ∈ (c.markZoneDirty n z).state.zones ↔ m = n ∨ m ∈ c.state.zones := by
  unfold markZoneDirty
  split <;> simp

end Center

theorem tsig_markDirty_enqueued {Key : Type} (store : Tsig.TsigStore Key) (task : TaskId) :
    (store.markDirty task).enqueuedSave.isSome = true := by
  unfold Tsig.TsigStore.markDirty
  cases hsave : store.enqueuedSave with
  | none => rfl
  | some task' => simp [hsave]

/-! ## The global state file -/

theorem mem_build_zones (s : State) (n : Name) :
    n ∈ (StateFile.Spec.build s).zones ↔ n ∈ s.zones := by
  unfold StateFile.Spec.build
  rw [HashMap.mem_iff_lookup, HashMap.mem_iff_lookup, HashMap.lookup_mapVal]
  simp

-- What the global state file holds depends on the configuration, the names of the zones and the
-- headers of the policies.
theorem same_build {s s' : State} (hconfig : s'.config = s.config)
    (hzones : ∀ n, n ∈ s'.zones ↔ n ∈ s.zones) (hheader : s'.header = s.header) :
    (StateFile.Spec.build s).Same (StateFile.Spec.build s') := by
  refine ⟨?_, ?_, ?_⟩
  · simp only [StateFile.Spec.build]
    rw [hconfig]
  · intro n
    rw [mem_build_zones, mem_build_zones, hzones]
  · intro k
    have hpolicy : ∀ t : State, (StateFile.Spec.build t).policies.lookup k =
        (t.header k).map (fun h ↦ ⟨StateFile.PolicyVersionSpec.build h.1, h.2⟩) := by
      intro t
      simp only [StateFile.Spec.build, State.header]
      rw [HashMap.lookup_mapVal, Option.map_map]
      rfl
    rw [hpolicy, hpolicy, hheader]

theorem mem_zones_of_same {s s' : State}
    (h : (StateFile.Spec.build s).Same (StateFile.Spec.build s')) (n : Name) :
    n ∈ s.zones ↔ n ∈ s'.zones := by
  rw [← mem_build_zones, h.2.1 n, mem_build_zones]

/-! ## The zones that an operation leaves behind -/

-- A zone that is added has a save, and the others are left as they are.
theorem addZone_writes (c : Center) (name : Name) (n : Name) (z' : ZoneState)
    (hz : (addZone c name).2.state.zones.lookup n = some z') :
    c.state.zones.lookup n = some z' ∨ z'.enqueuedSave.isSome = true := by
  unfold addZone at hz
  split at hz
  · exact Or.inl hz
  · have ⟨⟨znew, hnew, hsave⟩, hother⟩ := Center.lookup_markZoneDirty
      (((c.setZone name {}).send (.Changed (.ZoneAdded name))).markDirty) name {}
    simp only at hz
    by_cases hn : n = name
    · subst hn
      rw [hnew] at hz
      rw [← Option.some.inj hz]
      exact Or.inr hsave
    · rw [hother n hn, Center.markDirty_zones] at hz
      refine Or.inl ?_
      rw [← hz]
      exact (AList.lookup_insert_ne hn).symm

theorem removeZone_writes {c c' : Center} {name : Name} {r : Except ZoneRemoveError Unit}
    (h : removeZone c name = .ok (r, c')) (n : Name) (z' : ZoneState)
    (hz' : c'.state.zones.lookup n = some z') : c.state.zones.lookup n = some z' := by
  have herase : (c.state.zones.erase name).lookup n = some z' →
      c.state.zones.lookup n = some z' := by
    intro herased
    by_cases hn : n = name
    · subst hn
      rw [AList.lookup_erase] at herased
      cases herased
    · rw [AList.lookup_erase_ne hn] at herased
      exact herased
  unfold removeZone at h
  simp only [Center.send_state] at h
  cases hz : c.state.zones.lookup name with
  | none =>
    rw [hz] at h
    cases h
    exact hz'
  | some zone =>
    rw [hz] at h
    cases hpolicy : zone.policy with
    | none =>
      simp only [hpolicy] at h
      cases h
      exact herase hz'
    | some version =>
      simp only [hpolicy] at h
      rcases except_bind_ok h with ⟨policy, -, h⟩
      rcases except_bind_ok h with ⟨_, -, h⟩
      cases h
      rw [Center.markDirty_zones] at hz'
      exact herase hz'

theorem unlinkPolicy_writes {c c' : Center} {n : Name} {z : ZoneState}
    (h : unlinkPolicy c n z = .ok c') :
    c'.state.zones = c.state.zones ∧ c'.state.config = c.state.config ∧
      c'.state.header = c.state.header := by
  unfold unlinkPolicy at h
  split at h
  · cases h
    exact ⟨rfl, rfl, rfl⟩
  next version _ =>
    rcases except_bind_ok h with ⟨policy, hpolicy, h⟩
    rcases except_bind_ok h with ⟨_, -, h⟩
    cases h
    cases hq : c.state.policies.lookup version.name with
    | none =>
      rw [hq] at hpolicy
      cases hpolicy
    | some q =>
      rw [hq] at hpolicy
      cases hpolicy
      exact ⟨rfl, rfl, Center.header_setPolicy hq rfl rfl⟩

-- A policy change does nothing, or it marks the zone as dirty and changes nothing else that is
-- saved.
theorem changePolicy_writes {c c' : Center} {n : Name} {k : String}
    {r : Except ChangePolicyError Unit} (h : changePolicy c n k = .ok (r, c')) :
    c' = c ∨
      (StateFile.Spec.build c.state).Same (StateFile.Spec.build c'.state) ∧
      (∃ z', c'.state.zones.lookup n = some z' ∧ z'.enqueuedSave.isSome = true) ∧
        ∀ m, m ≠ n → c'.state.zones.lookup m = c.state.zones.lookup m := by
  unfold changePolicy at h
  cases hz : c.state.zones.lookup n with
  | none =>
    rw [hz] at h
    cases h
    exact Or.inl rfl
  | some z =>
    cases hq : c.state.policies.lookup k with
    | none =>
      rw [hz, hq] at h
      cases h
      exact Or.inl rfl
    | some q =>
      rw [hz, hq] at h
      simp only at h
      split at h
      · cases h
        exact Or.inl rfl
      next hmid =>
        rcases except_bind_ok h with ⟨c1, hunlink, h⟩
        rcases unlinkPolicy_writes hunlink with ⟨hzones, hconfig, hheader⟩
        -- the selected policy is still there after the unlinking
        have hq1 : c1.state.header k = some (q.latest, q.midDeletion) := by
          rw [hheader]
          simp [State.header, hq]
        rcases Option.map_eq_some_iff.mp hq1 with ⟨q1, hlookup, heq⟩
        injection heq with _ hmid1
        have hlookup2 : (c1.setZone n { z with policy := none }).state.policies.lookup k =
            some q1 := hlookup
        rw [← hmid1] at hmid
        simp only [linkPolicy, hlookup2, if_neg hmid] at h
        cases h
        have hn : n ∈ c.state.zones := HashMap.mem_iff_lookup.mpr ⟨z, hz⟩
        refine Or.inr ⟨?_, (Center.lookup_markZoneDirty _ _ _).1, ?_⟩
        · refine same_build ?_ ?_ ?_
          · rw [Center.markZoneDirty_config]
            exact hconfig
          · intro m
            rw [Center.mem_markZoneDirty, Center.send_state, Center.setPolicy_zones,
              Center.setZone_zones, AList.mem_insert, hzones]
            refine ⟨?_, fun h ↦ Or.inr (Or.inr h)⟩
            intro hm
            rcases hm with hm | hm | hm
            · exact hm ▸ hn
            · exact hm ▸ hn
            · exact hm
          · rw [State.header_congr (Center.markZoneDirty_policies _ _ _), Center.send_state]
            refine (Center.header_setPolicy hlookup2 ?_ ?_).trans hheader
            · rfl
            · rfl
        · intro m hm
          rw [(Center.lookup_markZoneDirty _ _ _).2 m hm]
          show (c1.state.zones.insert n _).lookup m = c.state.zones.lookup m
          rw [AList.lookup_insert_ne hm, hzones]

/-! ## The operations -/

namespace Stores

variable {Key : Type} [Tsig.KeyLib Key] {s s' : Stores Key}

-- Operations that leave the TSIG store alone.
theorem Scheduled.of_center {center : Center}
    (hstate : ¬(StateFile.Spec.build s.center.state).Same (StateFile.Spec.build center.state) →
      center.state.enqueuedSave.isSome = true)
    (hzone : ∀ n z', center.state.zones.lookup n = some z' →
      s.center.state.zones.lookup n = some z' ∨ z'.enqueuedSave.isSome = true) :
    s.Scheduled { s with center } where
  state := hstate
  zone := by
    intro n z' hz hne
    rcases hzone n z' hz with hsame | hsave
    · rw [hsame] at hne
      exact absurd rfl hne
    · exact hsave
  tsig := fun h ↦ absurd (fun _ ↦ rfl) h

theorem scheduled_addZone (name : Name) :
    s.Scheduled { s with center := (Cascade.addZone s.center name).2 } := by
  refine Scheduled.of_center ?_ (addZone_writes s.center name)
  unfold Cascade.addZone
  split
  · exact fun hne ↦ absurd ⟨rfl, fun _ ↦ Iff.rfl, fun _ ↦ rfl⟩ hne
  · intro _
    rw [Center.markZoneDirty_enqueuedSave]
    exact Center.markDirty_enqueued _

-- Removing a zone enqueues a save along with its policy.
theorem scheduled_removeZone_iff {name : Name} (h : s.run (.removeZone name) = .ok s') :
    s.Scheduled s' ↔ s.SavedWhen (.removeZone name) := by
  rcases except_bind_ok h with ⟨⟨r, center⟩, hrun, hs'⟩
  cases hs'
  have hkept : ∀ n z', center.state.zones.lookup n = some z' →
      s.center.state.zones.lookup n = some z' ∨ z'.enqueuedSave.isSome = true :=
    fun n z' hz' ↦ Or.inl (removeZone_writes hrun n z' hz')
  unfold Cascade.removeZone at hrun
  simp only [Center.send_state] at hrun
  cases hz : s.center.state.zones.lookup name with
  | none =>
    rw [hz] at hrun
    cases hrun
    refine ⟨fun _ ↦ Or.inr ?_, fun _ ↦ ?_⟩
    · intro zone hzone
      rw [hz] at hzone
      cases hzone
    · exact Scheduled.of_center (fun hne ↦ absurd ⟨rfl, fun _ ↦ Iff.rfl, fun _ ↦ rfl⟩ hne) hkept
  | some zone =>
    have herase : ∀ n z', (s.center.state.zones.erase name).lookup n = some z' →
        s.center.state.zones.lookup n = some z' := by
      intro n z' hz'
      by_cases hn : n = name
      · subst hn
        rw [AList.lookup_erase] at hz'
        cases hz'
      · rw [AList.lookup_erase_ne hn] at hz'
        exact hz'
    rw [hz] at hrun
    simp only at hrun
    cases hpolicy : zone.policy with
    | none =>
      rw [hpolicy] at hrun
      cases hrun
      refine ⟨?_, ?_⟩
      · -- the zone is in the file before, and not after
        intro hscheduled
        refine Or.inl (hscheduled.state ?_)
        intro hsame
        have hmem : name ∈ s.center.state.zones := HashMap.mem_iff_lookup.mpr ⟨zone, hz⟩
        have hgone := (mem_zones_of_same hsame name).mp hmem
        exact (AList.mem_erase.mp hgone).1 rfl
      · intro hwhen
        rcases hwhen with hsave | hhas
        · exact Scheduled.of_center (fun _ ↦ hsave) hkept
        · exact absurd hpolicy (hhas zone hz)
    | some version =>
      rw [hpolicy] at hrun
      rcases except_bind_ok hrun with ⟨policy, -, hrun⟩
      rcases except_bind_ok hrun with ⟨_, -, hrun⟩
      cases hrun
      refine ⟨fun _ ↦ Or.inr ?_, fun _ ↦ ?_⟩
      · intro zone' hzone'
        rw [hz] at hzone'
        cases hzone'
        rw [hpolicy]
        simp
      · exact Scheduled.of_center (fun _ ↦ Center.markDirty_enqueued _) hkept

theorem scheduled_changePolicy {name : Name} {policy : String}
    (h : s.run (.changePolicy name policy) = .ok s') : s.Scheduled s' := by
  rcases except_bind_ok h with ⟨⟨r, center⟩, hrun, hs'⟩
  cases hs'
  rcases changePolicy_writes hrun with hsame | ⟨hsame, ⟨znew, hnew, hsave⟩, hother⟩
  · rw [hsame]
    exact scheduled_refl s
  · refine Scheduled.of_center (fun hne ↦ absurd hsame hne) ?_
    intro n z' hz
    by_cases hn : n = name
    · subst hn
      rw [hnew] at hz
      rw [← Option.some.inj hz]
      exact Or.inr hsave
    · rw [hother n hn] at hz
      exact Or.inl hz

-- Reloading the configuration enqueues no save.
theorem scheduled_reloadConfig_iff (file : Option ConfigFile.Spec) :
    s.Scheduled { s with center := (ConfigFile.reload s.center file).2 } ↔
      s.SavedWhen (.reloadConfig file) := by
  cases file with
  | none => exact ⟨fun _ ↦ trivial, fun _ ↦ scheduled_refl s⟩
  | some file =>
    have hzones : ∀ n z', (ConfigFile.reload s.center (some file)).2.state.zones.lookup n = some z' →
        s.center.state.zones.lookup n = some z' ∨ z'.enqueuedSave.isSome = true :=
      fun n z' hz ↦ Or.inl hz
    refine ⟨?_, ?_⟩
    · intro hscheduled
      by_cases hforce : file.InForce s.center.state.config
      · exact Or.inr hforce
      · refine Or.inl (hscheduled.state ?_)
        intro hsame
        exact hforce (ConfigFile.Spec.inForce_of_build_eq hsame.1.symm)
    · intro hwhen
      refine Scheduled.of_center ?_ hzones
      intro hne
      rcases hwhen with hsave | hforce
      · exact hsave
      · apply absurd _ hne
        apply same_build
        · exact hforce.parseInto_eq
        · exact fun _ ↦ Iff.rfl
        · rfl

/-! ## The TSIG store -/

-- Every operation on the store leaves it as it is, or marks it as dirty.
theorem tsig_apply_enqueued (store : Tsig.TsigStore Key) (task : TaskId) (action : Tsig.Action) :
    Tsig.apply store task action = store ∨
      (Tsig.apply store task action).enqueuedSave.isSome = true := by
  cases action with
  | importKey name algorithm material replace =>
    simp only [Tsig.apply, Tsig.importKey]
    split
    · exact Or.inl rfl
    · exact Or.inr (tsig_markDirty_enqueued _ _)
  | generateKey name algorithm random replace =>
    simp only [Tsig.apply, Tsig.generateKey]
    split
    · exact Or.inl rfl
    · split
      · exact Or.inl rfl
      · exact Or.inr (tsig_markDirty_enqueued _ _)
  | removeKey name =>
    simp only [Tsig.apply, Tsig.removeKey]
    split
    · exact Or.inl rfl
    · split
      · exact Or.inr (tsig_markDirty_enqueued _ _)
      · exact Or.inl rfl
  | reload file =>
    cases file with
    | none => exact Or.inl rfl
    | some spec => exact Or.inr (tsig_markDirty_enqueued _ _)

theorem scheduled_tsig (action : Tsig.Action) : s.Scheduled (s.applyTsig action) := by
  have hcenter : (s.applyTsig action).center.state = s.center.state := by
    unfold applyTsig
    simp only
    split <;> rfl
  have hstore : (s.applyTsig action).tsigStore =
      Tsig.apply s.tsigStore s.center.nextTask action := by
    unfold applyTsig
    simp only
    split <;> rfl
  refine ⟨?_, ?_, ?_⟩
  · rw [hcenter]
    exact (scheduled_refl s).state
  · rw [hcenter]
    exact (scheduled_refl s).zone
  · rw [hstore]
    intro hne
    rcases tsig_apply_enqueued s.tsigStore s.center.nextTask action with hsame | hsave
    · rw [hsame] at hne
      exact absurd (fun _ ↦ rfl) hne
    · exact hsave

/-- In every state, an operation leaves a save enqueued for everything that it changed, exactly when
it removes no zone without a policy and reloads no configuration file with new settings, or a save of
the global state is enqueued anyway. -/
theorem changes_scheduled_iff {op : StoreOp} (h : s.run op = .ok s') :
    s.Scheduled s' ↔ s.SavedWhen op := by
  cases op with
  | addZone name =>
    cases h
    exact ⟨fun _ ↦ trivial, fun _ ↦ scheduled_addZone name⟩
  | removeZone name => exact scheduled_removeZone_iff h
  | changePolicy name policy => exact ⟨fun _ ↦ trivial, fun _ ↦ scheduled_changePolicy h⟩
  | reloadConfig file =>
    cases h
    exact scheduled_reloadConfig_iff file
  | tsig action =>
    cases h
    exact ⟨fun _ ↦ trivial, fun _ ↦ scheduled_tsig action⟩

/-! ## A daemon with one zone -/

namespace SaveExample

def zone : Name := ⟨[[112, 115]], by decide⟩

def daemon : Stores Tsig.PlainKey := ⟨⟨State.new Config.default, [], 0⟩, {}⟩

/-- The zone is added, and both saves have run. -/
def saved : Stores Tsig.PlainKey :=
  { daemon with
    center :=
      { state := { State.new Config.default with zones := AList.insert zone {} ∅ }
        updateTx := [.Changed (.ZoneAdded zone)]
        nextTask := 2 } }

theorem daemon_started : daemon.Started := ⟨Config.default, rfl⟩

theorem saved_reach : Reach step anyStep Started saved := by
  refine Reach.exec_any (.start daemon_started)
    [.op (.addZone zone), .saved, .zoneSaved zone] ?_
  rfl

def movedFile : ConfigFile.Spec := { policyDir := Utf8Path.ofString "/policies" }

end SaveExample

theorem first_zone_scheduled :
    SaveExample.daemon.Scheduled
        { SaveExample.daemon with
          center := (Cascade.addZone SaveExample.daemon.center SaveExample.zone).2 } ↔
      SaveExample.daemon.SavedWhen (.addZone SaveExample.zone) :=
  changes_scheduled_iff rfl

/-- A zone without a policy is removed, and a configuration file with another policy directory is
reloaded: nothing is enqueued. -/
theorem removal_and_reload_not_saved :
    (∃ s s' : Stores Tsig.PlainKey, Reach step anyStep Started s ∧
      s.run (.removeZone SaveExample.zone) = .ok s' ∧ ¬s.Scheduled s') ∧
    ∃ s s' : Stores Tsig.PlainKey, Reach step anyStep Started s ∧
      s.run (.reloadConfig (some SaveExample.movedFile)) = .ok s' ∧ ¬s.Scheduled s' := by
  refine ⟨⟨SaveExample.saved, _, SaveExample.saved_reach, rfl, ?_⟩,
    ⟨SaveExample.daemon, _, .start SaveExample.daemon_started, rfl, ?_⟩⟩
  · intro hscheduled
    refine absurd (hscheduled.state ?_) (by decide)
    intro hsame
    have hmem := mem_zones_of_same hsame SaveExample.zone
    exact absurd (hmem.mp (by decide)) (by decide)
  · intro hscheduled
    refine absurd (hscheduled.state ?_) (by decide)
    intro hsame
    have hdir := congrArg (fun config ↦ config.policyDir.chars) hsame.1
    exact absurd hdir (by decide)

end Stores

end Cascade
