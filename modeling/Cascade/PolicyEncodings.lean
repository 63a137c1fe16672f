import Cascade.PolicyFile
import Cascade.SavedState
import Cascade.Startup

/-!
# The policy encodings

A policy version is written to the global state file, to the state file of each zone that uses it and
to a policy file.  The three formats have copies of the same functions for the parts of a policy, so
each of them gives back what was written, up to fractions of a second.
-/

namespace Cascade

open Lib

/-- All durations of the policy are whole numbers of seconds. -/
structure PolicyVersion.WholeSeconds (policy : PolicyVersion) : Prop where
  sigInceptionOffset : policy.signer.sigInceptionOffset.nanos = 0
  sigValidityTime : policy.signer.sigValidityTime.nanos = 0

/-! ## The three formats -/

namespace StateFile

theorem PolicyVersionSpec.parse_build {policy : PolicyVersion} (hwhole : policy.WholeSeconds) :
    (PolicyVersionSpec.build policy).parse policy.name = policy :=
  (parse_build_iff policy policy.name).mpr
    ⟨rfl, hwhole.sigInceptionOffset, hwhole.sigValidityTime⟩

-- Nothing is reported when the file holds what is there already.
theorem PolicySpec.parseInto_build {policy : Policy} (hwhole : policy.latest.WholeSeconds)
    (changed : Bool) : (PolicySpec.build policy).parseInto policy changed = (policy, changed) := by
  have hsame : (PolicyVersionSpec.build policy.latest).parse policy.latest.name = policy.latest :=
    PolicyVersionSpec.parse_build hwhole
  have hkept : updateValue policy.latest policy.latest changed = (policy.latest, changed) := by
    rw [updateValue, if_neg (by simp)]
  simp only [PolicySpec.parseInto, PolicySpec.build, hsame, hkept, Bool.or_self]

end StateFile

namespace ZoneStateFile

theorem PolicySpec.parse_build {policy : PolicyVersion} (hwhole : policy.WholeSeconds) :
    (PolicySpec.build policy).parse = policy := by
  have hsigner : (SignerPolicySpec.build policy.signer).parse = policy.signer :=
    (StateFile.SignerPolicySpec.parse_build_iff policy.signer).mpr
      ⟨hwhole.sigInceptionOffset, hwhole.sigValidityTime⟩
  simp only [PolicySpec.build, PolicySpec.parse, hsigner, LoaderPolicySpec.parse_build,
    KeyManagerPolicySpec.parse_build, ServerPolicySpec.parse_build]

end ZoneStateFile

namespace PolicyFile

def V1.Spec.build (policy : PolicyVersion) : V1.Spec :=
  { loader := LoaderPolicySpec.build policy.loader
    keyManager := KeyManagerPolicySpec.build policy.keyManager
    signer := SignerPolicySpec.build policy.signer
    server := ServerPolicySpec.build policy.server }

def Spec.build (policy : Policy) : Spec := .V1 (V1.Spec.build policy.latest)

theorem V1.Spec.parse_build {policy : PolicyVersion} (hwhole : policy.WholeSeconds) :
    (V1.Spec.build policy).parse policy.name = policy := by
  have hsigner : (SignerPolicySpec.build policy.signer).parse = policy.signer :=
    (StateFile.SignerPolicySpec.parse_build_iff policy.signer).mpr
      ⟨hwhole.sigInceptionOffset, hwhole.sigValidityTime⟩
  simp only [V1.Spec.build, V1.Spec.parse, hsigner, LoaderPolicySpec.parse_build,
    KeyManagerPolicySpec.parse_build, ServerPolicySpec.parse_build]

theorem Spec.parseInto_build {policy : Policy} (hwhole : policy.latest.WholeSeconds) :
    (Spec.build policy).parseInto policy = policy := by
  have hsame : policy.latest = (V1.Spec.build policy.latest).parse policy.latest.name :=
    (V1.Spec.parse_build hwhole).symm
  show (if policy.latest = (V1.Spec.build policy.latest).parse policy.latest.name then policy
    else _) = policy
  exact if_pos hsame

end PolicyFile

/-! ## Loading a zone together with the global state -/

section

open StateFile (PolicySpec)
open ZoneStateFile (Spec)

/-- Loading the saved zone under `name` takes its policy from the registered ones, which stay as they
are, and warns about nothing. -/
structure Recognised (s : State) (name : Name) (zone : ZoneState) : Prop where
  sync : ∀ policy, zone.policy = some policy →
    ZoneStateFile.syncPolicyLog (ZoneStateFile.PolicySpec.build policy).parse s.policies =
      ((policy, s.policies), none)
  policies : (loadZoneState s name (Spec.build zone)).policies = s.policies
  zone : ∀ existing, s.zones.lookup name = some existing →
    (loadZoneState s name (Spec.build zone)).zones.lookup name =
      some { existing with policy := zone.policy }

-- Saving and loading the registry keeps the version that it has of a policy.
theorem latest_parseInto_build {state live : State} (hkeyed : live.Keyed)
    (changes : List Change) {policy : PolicyVersion} (hwhole : policy.WholeSeconds)
    (hlatest : (state.policies.lookup policy.name).map (·.latest) = some policy) :
    ((((StateFile.Spec.build state).parseInto live changes).1.policies.lookup policy.name).map
      (·.latest)) = some policy := by
  rw [Option.map_eq_some_iff] at hlatest
  obtain ⟨entry, hentry, hversion⟩ := hlatest
  have hbuilt : (StateFile.Spec.build state).policies.lookup policy.name =
      some (PolicySpec.build entry) := by
    show (HashMap.mapVal (fun _ ↦ PolicySpec.build) state.policies).lookup policy.name = _
    rw [HashMap.lookup_mapVal, hentry]
    rfl
  have hparsed : (StateFile.PolicyVersionSpec.build entry.latest).parse policy.name = policy := by
    rw [hversion]
    exact StateFile.PolicyVersionSpec.parse_build hwhole
  rw [StateFile.lookup_parseInto_policies, hbuilt]
  cases hlive : live.policies.lookup policy.name with
  | none =>
    show some ((StateFile.PolicyVersionSpec.build entry.latest).parse policy.name) = some policy
    rw [hparsed]
  | some existing =>
    have hname : existing.latest.name = policy.name := hkeyed _ _ hlive
    show some (updateValue existing.latest
      ((StateFile.PolicyVersionSpec.build entry.latest).parse existing.latest.name) false).1 = _
    rw [updateValue_eq, hname, hparsed]

theorem recognised_of_registered {s : State} {zone : ZoneState} {policy : PolicyVersion}
    (hpolicy : zone.policy = some policy) (hwhole : policy.WholeSeconds)
    (hregistered : (s.policies.lookup policy.name).map (·.latest) = some policy) (name : Name) :
    Recognised s name zone := by
  have hspec : Spec.build zone = { policy := some (ZoneStateFile.PolicySpec.build policy) } := by
    rw [Spec.build, hpolicy]
    rfl
  have hparsed := ZoneStateFile.PolicySpec.parse_build hwhole
  have hsync : ZoneStateFile.syncPolicyLog policy s.policies = ((policy, s.policies), none) := by
    obtain ⟨entry, hentry, hversion⟩ := Option.map_eq_some_iff.mp hregistered
    rw [ZoneStateFile.syncPolicyLog, hentry]
    show (if entry.latest = policy then ((entry.latest, s.policies), none) else _) = _
    rw [if_pos hversion, hversion]
  have hinto : ∀ existing : ZoneState, (Spec.build zone).parseInto existing s.policies =
      ({ existing with policy := some policy }, s.policies) := by
    intro existing
    rw [hspec]
    simp only [ZoneStateFile.Spec.parseInto, hparsed, ZoneStateFile.syncPolicy, hsync]
  constructor
  · intro other hother
    rw [hpolicy, Option.some.injEq] at hother
    rw [← hother, hparsed]
    exact hsync
  · rw [loadZoneState]
    cases s.zones.lookup name with
    | none => exact congrArg Prod.snd (hinto {})
    | some existing => exact congrArg Prod.snd (hinto existing)
  · intro existing hexisting
    rw [loadZoneState, hexisting, hpolicy]
    show (s.zones.insert name ((Spec.build zone).parseInto existing s.policies).1).lookup name = _
    rw [hinto existing, AList.lookup_insert]

-- Whatever zones are loaded, they restore policies at most and change none.
theorem latest_loadZoneStates {s : State} {policy : PolicyVersion}
    (h : (s.policies.lookup policy.name).map (·.latest) = some policy) (files : List (Name × Spec)) :
    ((loadZoneStates s files).policies.lookup policy.name).map (·.latest) = some policy := by
  induction files using List.reverseRecOn with
  | nil => exact h
  | append_singleton files file ih =>
    have hkept : ∀ zone, (file.2.parseInto zone (loadZoneStates s files).policies).2.lookup
        policy.name = (loadZoneStates s files).policies.lookup policy.name := by
      intro zone
      cases lookup_restored file.2 zone (loadZoneStates s files).policies policy.name with
      | inl hsame => exact hsame
      | inr hrestored =>
        rw [hrestored.1] at ih
        cases ih
    rw [loadZoneStates_concat, loadZoneState]
    cases (loadZoneStates s files).zones.lookup file.1 with
    | none =>
      rw [← ih]
      exact congrArg _ (hkept {})
    | some existing =>
      rw [← ih]
      exact congrArg _ (hkept existing)

end

/-- Each format gives back the version that was written, under its own name; a zone that is saved and
loaded together with the registry, after any other zones, is found to use the version registered; and
merging what was written into the policy that it was written from changes and reports nothing. -/
theorem policy_encodings_agree (policy : PolicyVersion) (hwhole : policy.WholeSeconds) :
    (StateFile.PolicyVersionSpec.build policy).parse policy.name = policy ∧
    (ZoneStateFile.PolicySpec.build policy).parse = policy ∧
    (PolicyFile.V1.Spec.build policy).parse policy.name = policy ∧
    (∀ (state live : State) (files : List (Name × ZoneStateFile.Spec)) (name : Name)
      (zone : ZoneState), live.Keyed →
      zone.policy = some policy →
      (state.policies.lookup policy.name).map (·.latest) = some policy →
      Recognised (loadState live (StateFile.Spec.build state) files) name zone) ∧
    ∀ entry : Policy, entry.latest = policy →
      (∀ changed, (StateFile.PolicySpec.build entry).parseInto entry changed = (entry, changed)) ∧
      (PolicyFile.Spec.build entry).parseInto entry = entry := by
  refine ⟨StateFile.PolicyVersionSpec.parse_build hwhole,
    ZoneStateFile.PolicySpec.parse_build hwhole, PolicyFile.V1.Spec.parse_build hwhole, ?_, ?_⟩
  · intro state live files name zone hkeyed hpolicy hlatest
    have hloaded := latest_parseInto_build hkeyed [] hwhole hlatest
    exact recognised_of_registered hpolicy hwhole (latest_loadZoneStates hloaded files) name
  · intro entry hentry
    rw [← hentry] at hwhole
    exact ⟨StateFile.PolicySpec.parseInto_build hwhole, PolicyFile.Spec.parseInto_build hwhole⟩

/-! ## A saved daemon with one zone -/

namespace EncodingExample

open RestartExample (zone version)

def entry : Policy := { latest := version, midDeletion := false, zones := AList.insert zone () ∅ }

def user : ZoneState := { policy := some version }

def saved : State :=
  { State.new Config.default with
    zones := AList.insert zone user ∅
    policies := AList.insert "default" entry ∅ }

end EncodingExample

open EncodingExample in
theorem saved_policy_recognised :
    (StateFile.PolicyVersionSpec.build RestartExample.version).parse "default" =
      RestartExample.version ∧
    Recognised (loadState (State.new Config.default) (StateFile.Spec.build saved) [])
      RestartExample.zone user ∧
    (PolicyFile.Spec.build entry).parseInto entry = entry := by
  obtain ⟨hstate, -, -, hzone, hmerge⟩ := policy_encodings_agree RestartExample.version ⟨rfl, rfl⟩
  have hkeyed : (State.new Config.default).Keyed := by
    intro k q hq
    simp [State.new] at hq
  exact ⟨hstate, hzone saved _ [] RestartExample.zone user hkeyed rfl rfl,
    (hmerge entry rfl).2⟩

end Cascade
