import Cascade.Link
import Cascade.StateFile

/-!
# Loading the persisted state

At startup the global state file is merged into the state, and then the state file of each zone.
Neither loader touches the zones that a policy lists, while the zone files set the policies of
zones.  So the link survives exactly when the files give every zone the policy it already had.
-/

namespace Cascade

open Lib

/-- Merges the state file of one zone.  A zone that is not among the known ones has its state
elsewhere, and only the policies are seen to change. -/
def loadZoneState (s : State) (name : Name) (spec : ZoneStateFile.Spec) : State :=
  match s.zones.lookup name with
  | none => { s with policies := (spec.parseInto {} s.policies).2 }
  | some zone =>
    let (zone, policies) := spec.parseInto zone s.policies
    { s with zones := s.zones.insert name zone, policies }

def loadZoneStates (s : State) (files : List (Name × ZoneStateFile.Spec)) : State :=
  files.foldl (fun s file ↦ loadZoneState s file.1 file.2) s

/-- The merges of `main`: the global state file, then any state files of zones. -/
def loadState (s : State) (spec : StateFile.Spec) (files : List (Name × ZoneStateFile.Spec)) :
    State :=
  loadZoneStates (spec.parseInto s []).1 files

theorem loadZoneStates_concat (s : State) (files : List (Name × ZoneStateFile.Spec))
    (file : Name × ZoneStateFile.Spec) :
    loadZoneStates s (files ++ [file]) = loadZoneState (loadZoneStates s files) file.1 file.2 := by
  simp [loadZoneStates, List.foldl_append]

/-! ## What the loaders do to each side of the link -/

namespace State

/-- The name that a zone gets for a policy stored under `k`: the policy's own name, or `k` for a
policy that is restored. -/
def nameOf (policies : HashMap String Policy) (k : String) : String :=
  ((policies.lookup k).map (fun q ↦ q.latest.name)).getD k

end State

-- No merge of the global state file changes the zones that a policy lists.
theorem uses_parseInto (spec : StateFile.Spec) (s : State) (changes : List Change) (k : String)
    (n : Name) : (spec.parseInto s changes).1.Uses k n ↔ s.Uses k n := by
  unfold State.Uses
  rw [StateFile.lookup_parseInto_policies]
  cases hq : s.policies.lookup k with
  | none =>
    cases spec.policies.lookup k with
    | none => simp
    | some p => simp [StateFile.mergePolicy, StateFile.PolicySpec.parse]
  | some q =>
    cases spec.policies.lookup k with
    | none =>
      -- a policy that lists a zone is kept
      simp only [Option.filter_some]
      cases he : q.zones.isEmpty with
      | false => simp
      | true =>
        have hnone := HashMap.isEmpty_iff.mp he n
        simp [hnone]
    | some p => simp [StateFile.mergePolicy, StateFile.PolicySpec.parseInto_zones]

theorem policyName_parseInto (spec : StateFile.Spec) (s : State) (changes : List Change)
    (n : Name) :
    (spec.parseInto s changes).1.policyName n =
      if n ∈ spec.zones then s.policyName n else none := by
  unfold State.policyName
  rw [StateFile.lookup_parseInto_zones]
  by_cases hn : n ∈ spec.zones
  · rw [if_pos hn, if_pos hn]
    cases s.zones.lookup n with
    | none => rfl
    | some z => rfl
  · rw [if_neg hn, if_neg hn]
    rfl

-- A policy that is not known is restored under its name.
theorem lookup_restored (spec : ZoneStateFile.Spec) (zone : ZoneState)
    (policies : HashMap String Policy) (k : String) :
    (spec.parseInto zone policies).2.lookup k = policies.lookup k ∨
      policies.lookup k = none ∧ ∃ latest : PolicyVersion, latest.name = k ∧
        (spec.parseInto zone policies).2.lookup k =
          some { latest, midDeletion := false, zones := ∅ } := by
  unfold ZoneStateFile.Spec.parseInto
  cases spec.policy with
  | none => exact Or.inl rfl
  | some p =>
    cases hp : policies.lookup p.parse.name with
    | some entry =>
      apply Or.inl
      simp only [ZoneStateFile.syncPolicy_of_some hp]
    | none =>
      simp only [ZoneStateFile.syncPolicy_of_none hp]
      by_cases hk : k = p.parse.name
      · subst hk
        exact Or.inr ⟨hp, p.parse, rfl, AList.lookup_insert policies⟩
      · exact Or.inl (AList.lookup_insert_ne hk)

-- No merge of a zone state file changes the zones that a policy lists.
theorem uses_loadZoneState (s : State) (name : Name) (spec : ZoneStateFile.Spec) (k : String)
    (n : Name) : (loadZoneState s name spec).Uses k n ↔ s.Uses k n := by
  have hsync : ∀ zone, (∃ q, (spec.parseInto zone s.policies).2.lookup k = some q ∧ n ∈ q.zones) ↔
      s.Uses k n := by
    intro zone
    unfold State.Uses
    rcases lookup_restored spec zone s.policies k with hsame | ⟨hnone, latest, -, hnew⟩
    · rw [hsame]
    · simp [hnone, hnew]
  unfold loadZoneState
  cases s.zones.lookup name with
  | none => exact hsync {}
  | some zone => exact hsync zone

-- A merge of a zone state file gives that zone the policy the file names, as it is found.
theorem policyName_loadZoneState (s : State) (name : Name) (spec : ZoneStateFile.Spec) (n : Name) :
    (loadZoneState s name spec).policyName n =
      if n = name ∧ n ∈ s.zones then
        spec.policy.map (fun p ↦ State.nameOf s.policies p.name)
      else s.policyName n := by
  have hsync : ∀ zone, (spec.parseInto zone s.policies).1.policy.map PolicyVersion.name =
      spec.policy.map (fun p ↦ State.nameOf s.policies p.name) := by
    intro zone
    unfold ZoneStateFile.Spec.parseInto State.nameOf
    cases spec.policy with
    | none => rfl
    | some p =>
      cases hp : s.policies.lookup p.parse.name with
      | some entry =>
        have hname : s.policies.lookup p.name = some entry := hp
        simp only [ZoneStateFile.syncPolicy_of_some hp, hname, Option.map_some, Option.getD_some]
      | none =>
        have hname : s.policies.lookup p.name = none := hp
        simp only [ZoneStateFile.syncPolicy_of_none hp, hname, Option.map_some, Option.map_none,
          Option.getD_none]
        rfl
  unfold loadZoneState
  cases hz : s.zones.lookup name with
  | none =>
    have hnot : ¬(n = name ∧ n ∈ s.zones) := by
      intro h
      exact AList.lookup_eq_none.mp hz (h.1 ▸ h.2)
    rw [if_neg hnot]
    rfl
  | some zone =>
    unfold State.policyName
    simp only
    by_cases hn : n = name
    · subst hn
      have hmem : n ∈ s.zones := HashMap.mem_iff_lookup.mpr ⟨zone, hz⟩
      rw [AList.lookup_insert, if_pos ⟨rfl, hmem⟩]
      exact hsync zone
    · rw [AList.lookup_insert_ne hn, if_neg (fun h ↦ hn h.1)]

theorem mem_zones_loadZoneState (s : State) (name : Name) (spec : ZoneStateFile.Spec) (n : Name) :
    n ∈ (loadZoneState s name spec).zones ↔ n ∈ s.zones := by
  unfold loadZoneState
  cases hz : s.zones.lookup name with
  | none => rfl
  | some zone =>
    have hmem : name ∈ s.zones := HashMap.mem_iff_lookup.mpr ⟨zone, hz⟩
    simp only [AList.mem_insert]
    refine ⟨?_, Or.inr⟩
    intro h
    rcases h with h | h
    · rw [h]
      exact hmem
    · exact h

-- A policy that is restored gets the name it was asked for, so later merges find the same names.
theorem nameOf_loadZoneState (s : State) (name : Name) (spec : ZoneStateFile.Spec) (k : String) :
    State.nameOf (loadZoneState s name spec).policies k = State.nameOf s.policies k := by
  have hsync : ∀ zone,
      State.nameOf (spec.parseInto zone s.policies).2 k = State.nameOf s.policies k := by
    intro zone
    unfold State.nameOf
    rcases lookup_restored spec zone s.policies k with hsame | ⟨hnone, latest, hname, hnew⟩
    · rw [hsame]
    · rw [hnone, hnew]
      exact hname
  unfold loadZoneState
  cases s.zones.lookup name with
  | none => exact hsync {}
  | some zone => exact hsync zone

/-! ## Any number of zone state files -/

theorem uses_loadZoneStates (s : State) (files : List (Name × ZoneStateFile.Spec)) (k : String)
    (n : Name) : (loadZoneStates s files).Uses k n ↔ s.Uses k n := by
  induction files using List.reverseRecOn with
  | nil => rfl
  | append_singleton files file ih =>
    rw [loadZoneStates_concat, uses_loadZoneState, ih]

theorem mem_zones_loadZoneStates (s : State) (files : List (Name × ZoneStateFile.Spec))
    (n : Name) : n ∈ (loadZoneStates s files).zones ↔ n ∈ s.zones := by
  induction files using List.reverseRecOn with
  | nil => rfl
  | append_singleton files file ih =>
    rw [loadZoneStates_concat, mem_zones_loadZoneState, ih]

theorem nameOf_loadZoneStates (s : State) (files : List (Name × ZoneStateFile.Spec))
    (k : String) :
    State.nameOf (loadZoneStates s files).policies k = State.nameOf s.policies k := by
  induction files using List.reverseRecOn with
  | nil => rfl
  | append_singleton files file ih =>
    rw [loadZoneStates_concat, nameOf_loadZoneState, ih]

/-- The state file merged last into the zone `n`. -/
def lastFile (files : List (Name × ZoneStateFile.Spec)) (n : Name) : Option ZoneStateFile.Spec :=
  files.reverse.lookup n

theorem lastFile_concat (files : List (Name × ZoneStateFile.Spec))
    (file : Name × ZoneStateFile.Spec) (n : Name) :
    lastFile (files ++ [file]) n = if n = file.1 then some file.2 else lastFile files n := by
  unfold lastFile
  rw [List.reverse_append, List.reverse_singleton, List.singleton_append]
  by_cases hn : n = file.1
  · rw [if_pos hn, List.lookup_cons, beq_iff_eq.mpr hn]
  · rw [if_neg hn, List.lookup_cons, beq_eq_false_iff_ne.mpr hn]

theorem policyName_of_not_mem {s : State} {n : Name} (hn : n ∉ s.zones) :
    s.policyName n = none := by
  simp [State.policyName, AList.lookup_eq_none.mpr hn]

-- Of the files of one zone the last one decides its policy.
theorem policyName_loadZoneStates (s : State) (files : List (Name × ZoneStateFile.Spec))
    {n : Name} (hn : n ∈ s.zones) :
    (loadZoneStates s files).policyName n =
      match lastFile files n with
      | some spec => spec.policy.map (fun p ↦ State.nameOf s.policies p.name)
      | none => s.policyName n := by
  induction files using List.reverseRecOn with
  | nil => rfl
  | append_singleton files file ih =>
    rw [loadZoneStates_concat, policyName_loadZoneState, lastFile_concat]
    simp only [nameOf_loadZoneStates, mem_zones_loadZoneStates, hn, and_true]
    by_cases hfile : n = file.1
    · rw [if_pos hfile, if_pos hfile]
    · rw [if_neg hfile, if_neg hfile]
      exact ih

/-! ## The link after loading -/

/-- The name that a zone gets when its state file names the policy `k`: the name of the registered
policy if the global state file or a zone keeps it, and `k` for a policy that has to be restored. -/
def resolvedName (s : State) (spec : StateFile.Spec) (k : String) : String :=
  match s.policies.lookup k with
  | none => k
  | some q => if k ∈ spec.policies ∨ q.zones.isEmpty = false then q.latest.name else k

theorem nameOf_parseInto (spec : StateFile.Spec) (s : State) (changes : List Change)
    (k : String) :
    State.nameOf (spec.parseInto s changes).1.policies k = resolvedName s spec k := by
  unfold State.nameOf resolvedName
  rw [StateFile.lookup_parseInto_policies]
  cases hp : spec.policies.lookup k with
  | none =>
    have hnot : k ∉ spec.policies := AList.lookup_eq_none.mp hp
    cases s.policies.lookup k with
    | none => rfl
    | some q =>
      cases he : q.zones.isEmpty with
      | false => simp [he, Option.filter_some]
      | true => simp [he, hnot, Option.filter_some]
  | some p =>
    have hmem : k ∈ spec.policies := HashMap.mem_iff_lookup.mpr ⟨p, hp⟩
    cases s.policies.lookup k with
    | none => rfl
    | some q => simp [hmem, StateFile.mergePolicy, StateFile.PolicySpec.parseInto_name]

/-- The files leave the policy of every zone as it is: a zone with a policy stays listed, and a zone
state file names the policy that its zone already has. -/
structure KeepsPolicies (s : State) (spec : StateFile.Spec)
    (files : List (Name × ZoneStateFile.Spec)) : Prop where
  listed : ∀ n, s.policyName n ≠ none → n ∈ spec.zones
  same : ∀ n file, n ∈ spec.zones → lastFile files n = some file →
    file.policy.map (fun p ↦ resolvedName s spec p.name) = s.policyName n

theorem uses_loadState (s : State) (spec : StateFile.Spec)
    (files : List (Name × ZoneStateFile.Spec)) (k : String) (n : Name) :
    (loadState s spec files).Uses k n ↔ s.Uses k n := by
  unfold loadState
  rw [uses_loadZoneStates, uses_parseInto]

-- The policy of a zone after loading.
theorem policyName_loadState (s : State) (spec : StateFile.Spec)
    (files : List (Name × ZoneStateFile.Spec)) (n : Name) :
    (loadState s spec files).policyName n =
      if n ∈ spec.zones then
        match lastFile files n with
        | some file => file.policy.map (fun p ↦ resolvedName s spec p.name)
        | none => s.policyName n
      else none := by
  have hmem : n ∈ (spec.parseInto s []).1.zones ↔ n ∈ spec.zones := by
    rw [HashMap.mem_iff_lookup, StateFile.lookup_parseInto_zones]
    by_cases hn : n ∈ spec.zones
    · simp [hn]
    · simp [hn]
  unfold loadState
  by_cases hn : n ∈ spec.zones
  · rw [policyName_loadZoneStates _ _ (hmem.mpr hn), if_pos hn]
    simp only [nameOf_parseInto, policyName_parseInto, if_pos hn]
  · rw [if_neg hn, policyName_of_not_mem]
    rw [mem_zones_loadZoneStates]
    exact fun h ↦ hn (hmem.mp h)

-- Loading keeps the link exactly when it changes no zone's policy.
theorem linked_loadState_iff {s : State} (hlinked : s.Linked) (spec : StateFile.Spec)
    (files : List (Name × ZoneStateFile.Spec)) :
    (loadState s spec files).Linked ↔ KeepsPolicies s spec files := by
  have hsides : (loadState s spec files).Linked ↔
      ∀ n, (loadState s spec files).policyName n = s.policyName n := by
    rw [State.linked_iff]
    refine ⟨?_, ?_⟩
    · intro h n
      apply Option.ext
      intro k
      rw [h n k, uses_loadState, State.linked_iff.mp hlinked n k]
    · intro h n k
      rw [h n, uses_loadState, State.linked_iff.mp hlinked n k]
  rw [hsides]
  refine ⟨?_, ?_⟩
  · intro h
    refine ⟨?_, ?_⟩
    · intro n hname
      by_cases hn : n ∈ spec.zones
      · exact hn
      · have hn' := h n
        rw [policyName_loadState, if_neg hn] at hn'
        exact absurd hn'.symm hname
    · intro n file hn hfile
      have hn' := h n
      rw [policyName_loadState, if_pos hn, hfile] at hn'
      exact hn'
  · intro h n
    rw [policyName_loadState]
    by_cases hn : n ∈ spec.zones
    · rw [if_pos hn]
      cases hfile : lastFile files n with
      | none => rfl
      | some file => exact h.same n file hn hfile
    · rw [if_neg hn]
      by_cases hname : s.policyName n = none
      · exact hname.symm
      · exact absurd (h.listed n hname) hn

/-- No call of `remove_zone` or `change_policy` fires one of its assertions. -/
def NeverPanics (c : Center) : Prop :=
  ∀ n, (∃ r, removeZone c n = .ok r) ∧ ∀ k, ∃ r, changePolicy c n k = .ok r

theorem neverPanics_of_linked {c : Center} (h : c.state.Linked) : NeverPanics c := by
  intro n
  refine ⟨?_, ?_⟩
  · rcases removeZone_spec c n h with ⟨r, c', hrun, -⟩
    exact ⟨(r, c'), hrun⟩
  · intro k
    rcases changePolicy_spec c n k h with ⟨r, c', hrun, -⟩
    exact ⟨(r, c'), hrun⟩

/-- The state after loading is linked, and no later removal or policy change panics, exactly when
the files leave every zone the policy it had.  For a new state, this is when no zone that the global
file lists has a policy in its own file. -/
theorem loadState_linked_and_safe_iff (s : State) (hlinked : s.Linked) (spec : StateFile.Spec)
    (files : List (Name × ZoneStateFile.Spec)) :
    ((loadState s spec files).Linked ∧
        ∀ updateTx nextTask, NeverPanics ⟨loadState s spec files, updateTx, nextTask⟩) ↔
      KeepsPolicies s spec files := by
  rw [← linked_loadState_iff hlinked]
  exact ⟨fun h ↦ h.1, fun h ↦ ⟨h, fun _ _ ↦ neverPanics_of_linked h⟩⟩

/-! ## A restart with one zone -/

namespace RestartExample

def zone : Name := ⟨[[97, 98]], by decide⟩

def version : PolicyVersion :=
  { name := "default"
    loader := { review := { required := false, cmdHook := none } }
    keyManager := {}
    signer :=
      { serialPolicy := .Counter
        sigInceptionOffset := Duration.fromSecs 86400
        sigValidityTime := Duration.fromSecs 1209600
        denial := .NSec
        review := { required := false, cmdHook := none } }
    server := {} }

/-- The global state file of a daemon with one policy and one zone. -/
def stateFile : StateFile.Spec :=
  { config :=
      { policyDir := Config.default.policyDir
        zoneStateDir := Config.default.zoneStateDir
        tsigStorePath := Config.default.tsigStorePath
        daemon :=
          { logging := { level := none, target := none, traceTargets := none }
            configFile := none, daemonize := none, pidFile := none, chroot := none
            identity := none }
        loader := { notifListeners := [], review := { servers := [] } }
        signer := { review := { servers := [] } }
        keyManager := {}
        server := { servers := [] } }
    zones := AList.insert zone () ∅
    policies := AList.insert "default"
      { latest := StateFile.PolicyVersionSpec.build version, midDeletion := false } ∅ }

/-- The state file of the zone, which uses that policy. -/
def zoneFile : ZoneStateFile.Spec := { policy := some (ZoneStateFile.PolicySpec.build version) }

def restarted : State :=
  loadState (State.new Config.default) stateFile [(zone, zoneFile)]

/-- A state in which the zone has the policy already. -/
def live : State :=
  { State.new Config.default with
    zones := AList.insert zone { policy := some version } ∅
    policies := AList.insert "default"
      { latest := version, midDeletion := false, zones := AList.insert zone () ∅ } ∅ }

private theorem mem_singleton {α : Type} {a : α} {n : Name} :
    n ∈ (AList.insert zone a ∅ : HashMap Name α) ↔ n = zone := by
  rw [AList.mem_insert]
  simp

theorem live_linked : live.Linked := by
  refine ⟨?_, ?_⟩
  · intro n z p hz hp
    have hmem := HashMap.lookup_eq_some_iff.mp hz
    simp only [live, AList.insert_empty, AList.singleton_entries, List.mem_singleton,
      Sigma.mk.injEq, heq_eq_eq] at hmem
    rw [hmem.1]
    rw [hmem.2, Option.some.injEq] at hp
    rw [← hp]
    exact ⟨_, rfl, by decide⟩
  · intro k q n hq hn
    have hmem := HashMap.lookup_eq_some_iff.mp hq
    simp only [live, AList.insert_empty, AList.singleton_entries, List.mem_singleton,
      Sigma.mk.injEq, heq_eq_eq] at hmem
    rw [hmem.2] at hn
    have hzone : n = zone := mem_singleton.mp hn
    rw [hzone, hmem.1]
    exact ⟨_, version, rfl, rfl, rfl⟩

end RestartExample

open RestartExample in
/-- The files give the zone the policy that it has. -/
theorem same_policy_linked_and_safe :
    (loadState live stateFile [(zone, zoneFile)]).Linked ∧
      ∀ updateTx nextTask,
        NeverPanics ⟨loadState live stateFile [(zone, zoneFile)], updateTx, nextTask⟩ := by
  have hlisted : ∀ n, n ∈ stateFile.zones ↔ n = zone := fun n => mem_singleton
  refine (loadState_linked_and_safe_iff live live_linked _ _).mpr ⟨?_, ?_⟩
  · intro n hpolicy
    rw [hlisted]
    by_contra hne
    exact hpolicy (policyName_of_not_mem (mt mem_singleton.mp hne))
  · intro n file hn hfile
    rw [hlisted] at hn
    subst hn
    have hlast : zoneFile = file := by simpa [lastFile] using hfile
    rw [← hlast]
    rfl

/-- After this restart the zone has the policy but the policy does not list the zone, so that
removing the zone panics. -/
theorem restart_breaks_link :
    (State.new Config.default).Linked ∧ ¬RestartExample.restarted.Linked ∧
      removeZone ⟨RestartExample.restarted, [], 0⟩ RestartExample.zone =
        .error "zone policies are consistent" := by
  refine ⟨State.linked_new _, ?_, rfl⟩
  intro h
  have huses := (State.linked_iff.mp h RestartExample.zone "default").mp (by decide)
  rw [RestartExample.restarted, uses_loadState] at huses
  rcases huses with ⟨q, hq, -⟩
  simp [State.new] at hq

end Cascade
