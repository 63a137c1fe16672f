import Cascade.Center

/-!
# The state files

The global state file lists the known zones and the policies, and the state file of a zone holds
its policy in full.  Loading merges a parsed file into the live state.
-/

namespace Cascade

open Lib

/-! ## The global state file -/

namespace StateFile

structure PolicyVersionSpec where
  loader : LoaderPolicySpec
  keyManager : KeyManagerPolicySpec
  signer : SignerPolicySpec
  server : ServerPolicySpec
deriving DecidableEq

def PolicyVersionSpec.parse (spec : PolicyVersionSpec) (name : String) : PolicyVersion :=
  { name
    loader := spec.loader.parse
    keyManager := spec.keyManager.parse
    signer := spec.signer.parse
    server := spec.server.parse }

def PolicyVersionSpec.build (policy : PolicyVersion) : PolicyVersionSpec :=
  { loader := LoaderPolicySpec.build policy.loader
    keyManager := KeyManagerPolicySpec.build policy.keyManager
    signer := SignerPolicySpec.build policy.signer
    server := ServerPolicySpec.build policy.server }

structure PolicySpec where
  latest : PolicyVersionSpec
  midDeletion : Bool
deriving DecidableEq

namespace PolicySpec

def parse (spec : PolicySpec) (name : String) : Policy :=
  { latest := spec.latest.parse name, midDeletion := spec.midDeletion, zones := ∅ }

def parseInto (spec : PolicySpec) (policy : Policy) (changed : Bool) : Policy × Bool :=
  let name := policy.latest.name
  let (latest, changed) := updateValue policy.latest (spec.latest.parse name) changed
  ({ latest, midDeletion := policy.midDeletion || spec.midDeletion, zones := policy.zones },
    changed)

def build (policy : Policy) : PolicySpec :=
  { latest := PolicyVersionSpec.build policy.latest, midDeletion := policy.midDeletion }

-- The merge of a policy keeps its zones.
theorem parseInto_zones (spec : PolicySpec) (policy : Policy) (changed : Bool) :
    (spec.parseInto policy changed).1.zones = policy.zones := rfl

-- The merge of a policy keeps its name.
theorem parseInto_name (spec : PolicySpec) (policy : Policy) (changed : Bool) :
    (spec.parseInto policy changed).1.latest.name = policy.latest.name := by
  simp only [parseInto, updateValue]
  by_cases h : (policy.latest != spec.latest.parse policy.latest.name) = true
  · rw [if_pos h]
    rfl
  · rw [if_neg h]

end PolicySpec

structure Spec where
  config : ConfigSpec
  zones : HashSet Name
  policies : HashMap String PolicySpec

/-- The policy under `name` in the new set: the existing one updated, with a change for each of its
zones if it is new, or one made from the file. -/
def mergePolicy (name : String) (spec : PolicySpec) : Option Policy → Policy × List Change
  | some policy =>
    let (policy, changed) := spec.parseInto policy false
    (policy, if changed then
      policy.zones.keys.map (fun zone ↦ .ZonePolicyChanged zone policy.latest) else [])
  | none => (spec.parse name, [])

/-- The zone of that name in the new set: the existing one or a new one. -/
def mergeZone (_ : Name) (_ : Unit) : Option ZoneState → ZoneState × List Change
  | some zone => (zone, [])
  | none => ({}, [])

def Spec.parseInto (spec : Spec) (state : State) (changes : List Change) : State × List Change :=
  -- Update the configuration.
  let (config, changed) := spec.config.parseInto state.config false
  let changes := if changed then changes ++ [.ConfigChanged] else changes
  -- Update the policy set; a policy not in the file is kept if zones are using it.
  let m := HashMap.moveEach mergePolicy { old := state.policies, new := ∅, log := changes }
    spec.policies.entries
  let policies := HashMap.insertEach (fun _ policy ↦ !policy.zones.isEmpty) m.new m.old.entries
  -- Update the zone set; a zone not in the file is removed.
  let z := HashMap.moveEach mergeZone { old := state.zones, new := ∅, log := m.log }
    spec.zones.entries
  ({ state with config, zones := z.new, policies },
    z.log ++ z.old.keys.map (fun name ↦ .ZoneRemoved name))

def Spec.build (state : State) : Spec :=
  { config := ConfigSpec.build state.config
    zones := HashMap.mapVal (fun _ _ ↦ ()) state.zones
    policies := HashMap.mapVal (fun _ ↦ PolicySpec.build) state.policies }

section

variable (spec : Spec) (state : State) (changes : List Change)

theorem lookup_parseInto_policies (k : String) :
    (spec.parseInto state changes).1.policies.lookup k =
      match spec.policies.lookup k with
      | some p => some (mergePolicy k p (state.policies.lookup k)).1
      | none => (state.policies.lookup k).filter (fun q ↦ !q.zones.isEmpty) := by
  simp only [Spec.parseInto]
  rw [HashMap.lookup_merged mergePolicy _ spec.policies.nodupKeys, ← AList.lookup]
  cases spec.policies.lookup k with
  | some p => rfl
  | none => rfl

theorem lookup_parseInto_zones (n : Name) :
    (spec.parseInto state changes).1.zones.lookup n =
      if n ∈ spec.zones then some ((state.zones.lookup n).getD {}) else none := by
  simp only [Spec.parseInto]
  rw [HashMap.lookup_moveEach_new _ _ spec.zones.nodupKeys, ← AList.lookup]
  by_cases hn : n ∈ spec.zones
  · rcases HashMap.mem_iff_lookup.mp hn with ⟨u, hu⟩
    cases hz : state.zones.lookup n with
    | none => simp [hn, hu, mergeZone]
    | some z => simp [hn, hu, mergeZone]
  · simp [hn, AList.lookup_eq_none.mpr hn]

end

end StateFile

/-! ## The state file of a zone -/

namespace ZoneStateFile

structure PolicySpec where
  name : String
  loader : LoaderPolicySpec
  keyManager : KeyManagerPolicySpec
  signer : SignerPolicySpec
  server : ServerPolicySpec
deriving DecidableEq

def PolicySpec.parse (spec : PolicySpec) : PolicyVersion :=
  { name := spec.name
    loader := spec.loader.parse
    keyManager := spec.keyManager.parse
    signer := spec.signer.parse
    server := spec.server.parse }

def PolicySpec.build (policy : PolicyVersion) : PolicySpec :=
  { name := policy.name
    loader := LoaderPolicySpec.build policy.loader
    keyManager := KeyManagerPolicySpec.build policy.keyManager
    signer := SignerPolicySpec.build policy.signer
    server := ServerPolicySpec.build policy.server }

structure Spec where
  policy : Option PolicySpec
deriving DecidableEq

/-- What is warned about when the policy of a zone is loaded. -/
inductive SyncWarning
  | OlderVersion (policy : String)
  | UnknownPolicy (policy : String)
deriving DecidableEq

/-- Synchronizes a loaded policy with the registered ones: a policy of that name is used in its
latest version, and an unknown policy is restored, with no zones.  With the warning. -/
def syncPolicyLog (policy : PolicyVersion) (policies : HashMap String Policy) :
    (PolicyVersion × HashMap String Policy) × Option SyncWarning :=
  match policies.lookup policy.name with
  | some entry =>
    if entry.latest = policy then ((entry.latest, policies), none)
    else ((entry.latest, policies), some (.OlderVersion policy.name))
  | none =>
    ((policy, policies.insert policy.name { latest := policy, midDeletion := false, zones := ∅ }),
      some (.UnknownPolicy policy.name))

def syncPolicy (policy : PolicyVersion) (policies : HashMap String Policy) :
    PolicyVersion × HashMap String Policy := (syncPolicyLog policy policies).1

theorem syncPolicy_of_some {policy : PolicyVersion} {policies : HashMap String Policy}
    {entry : Policy} (h : policies.lookup policy.name = some entry) :
    syncPolicy policy policies = (entry.latest, policies) := by
  unfold syncPolicy syncPolicyLog
  rw [h]
  dsimp only
  split
  · rfl
  · rfl

theorem syncPolicy_of_none {policy : PolicyVersion} {policies : HashMap String Policy}
    (h : policies.lookup policy.name = none) :
    syncPolicy policy policies =
      (policy, policies.insert policy.name { latest := policy, midDeletion := false, zones := ∅ }) := by
  unfold syncPolicy syncPolicyLog
  rw [h]

def Spec.parseInto (spec : Spec) (state : ZoneState) (policies : HashMap String Policy) :
    ZoneState × HashMap String Policy :=
  match spec.policy with
  | none => ({ state with policy := none }, policies)
  | some policy =>
    let (policy, policies) := syncPolicy policy.parse policies
    ({ state with policy := some policy }, policies)

def Spec.build (zone : ZoneState) : Spec := { policy := zone.policy.map PolicySpec.build }

end ZoneStateFile

end Cascade
