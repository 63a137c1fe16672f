import Cascade.SavedState
import Cascade.Startup

/-!
# The changes of a merge

Merging the state file into the state reports what it changes: the configuration, the policies of
zones, and the zones that are gone.  A zone that is new is not reported.
-/

namespace Cascade

open Lib

/-! ## The configuration -/

section

variable {T : Type} [BEq T]

/-- What `update_value` leaves at `dst`. -/
def updated (dst value : T) : T := if dst != value then value else dst

-- The flag is raised exactly where the value becomes another.
theorem updateValue_eq_updated [ReflBEq T] (dst value : T) (changed : Bool) :
    updateValue dst value changed = (updated dst value, changed || dst != updated dst value) := by
  unfold updateValue updated
  by_cases hne : (dst != value) = true
  · simp [hne]
  · have hsame : (dst != dst) = false := by
      rw [bne, BEq.rfl, Bool.not_true]
    rw [if_neg hne, if_neg hne, hsame, Bool.or_false]

theorem bne_eq_false_iff_beq (a b : T) : (a != b) = false ↔ (a == b) = true := by
  rw [bne, Bool.not_eq_false']

end

namespace StateFile

/-- The settings that the state file holds are the same in both configurations. -/
structure PersistedEq (before after : Config) : Prop where
  policyDir : (before.policyDir == after.policyDir) = true
  zoneStateDir : (before.zoneStateDir == after.zoneStateDir) = true
  tsigStorePath : (before.tsigStorePath == after.tsigStorePath) = true
  logLevel : (before.daemon.logging.level.file == after.daemon.logging.level.file) = true
  logTarget : (before.daemon.logging.target.file == after.daemon.logging.target.file) = true
  traceTargets :
    (before.daemon.logging.traceTargets.file == after.daemon.logging.traceTargets.file) = true
  configFile : (before.daemon.configFile.file == after.daemon.configFile.file) = true
  daemonize : (before.daemon.daemonize.file == after.daemon.daemonize.file) = true
  pidFile : (before.daemon.pidFile == after.daemon.pidFile) = true
  chroot : (before.daemon.chroot == after.daemon.chroot) = true
  identity : (before.daemon.identity == after.daemon.identity) = true
  loader : (before.loader == after.loader) = true
  signer : (before.signer == after.signer) = true
  keyManager : (before.keyManager == after.keyManager) = true
  server : (before.server == after.server) = true

theorem ConfigSpec.parseInto_snd_eq_false_iff (spec : ConfigSpec) (config : Config) :
    (spec.parseInto config false).2 = false ↔ PersistedEq config (spec.parseInto config false).1 := by
  simp only [ConfigSpec.parseInto, DaemonConfigSpec.parseInto, LoggingConfigSpec.parseInto,
    updateValue_eq_updated, Bool.or_eq_false_iff, bne_eq_false_iff_beq]
  constructor
  · intro h
    obtain ⟨⟨⟨⟨⟨⟨⟨⟨⟨⟨⟨⟨⟨⟨⟨-, policyDir⟩, zoneStateDir⟩, tsigStorePath⟩, logLevel⟩, logTarget⟩,
      traceTargets⟩, configFile⟩, daemonize⟩, pidFile⟩, chroot⟩, identity⟩, loader⟩, signer⟩,
      keyManager⟩, server⟩ := h
    exact ⟨policyDir, zoneStateDir, tsigStorePath, logLevel, logTarget, traceTargets, configFile,
      daemonize, pidFile, chroot, identity, loader, signer, keyManager, server⟩
  · intro h
    exact ⟨⟨⟨⟨⟨⟨⟨⟨⟨⟨⟨⟨⟨⟨⟨trivial, h.policyDir⟩, h.zoneStateDir⟩, h.tsigStorePath⟩, h.logLevel⟩,
      h.logTarget⟩, h.traceTargets⟩, h.configFile⟩, h.daemonize⟩, h.pidFile⟩, h.chroot⟩,
      h.identity⟩, h.loader⟩, h.signer⟩, h.keyManager⟩, h.server⟩

/-! ## Policies and zones -/

/-- The changes that the merge of the policies reports. -/
def policyChanges (spec : Spec) (state : State) : List Change :=
  spec.policies.entries.flatMap (fun e ↦ (mergePolicy e.1 e.2 (state.policies.lookup e.1)).2)

theorem mem_mergePolicy_snd {name : String} {spec : PolicySpec} {change : Change} :
    ∀ {existing : Option Policy}, change ∈ (mergePolicy name spec existing).2 ↔
      ∃ policy zone, existing = some policy ∧ zone ∈ policy.zones ∧
        policy.latest ≠ (mergePolicy name spec existing).1.latest ∧
        change = .ZonePolicyChanged zone (mergePolicy name spec existing).1.latest := by
  intro existing
  cases existing with
  | none => simp [mergePolicy]
  | some policy =>
    have hmerge : mergePolicy name spec (some policy) = ((spec.parseInto policy false).1,
        if (spec.parseInto policy false).2 then policy.zones.keys.map
          (fun zone ↦ .ZonePolicyChanged zone (spec.parseInto policy false).1.latest) else []) :=
      rfl
    have hflag : (spec.parseInto policy false).2 =
        (policy.latest != (spec.parseInto policy false).1.latest) := by
      simp only [PolicySpec.parseInto, updateValue_eq_updated, Bool.false_or]
    rw [hmerge, hflag]
    by_cases hsame : policy.latest = (spec.parseInto policy false).1.latest
    · simp [← hsame]
    · rw [if_pos (by simpa using hsame), List.mem_map]
      constructor
      · intro h
        obtain ⟨zone, hzone, hchange⟩ := h
        exact ⟨policy, zone, rfl, hzone, hsame, hchange.symm⟩
      · intro h
        obtain ⟨policy', zone, heq, hzone, -, hchange⟩ := h
        obtain rfl := Option.some.inj heq
        exact ⟨zone, hzone, hchange.symm⟩

-- A policy that is not in the file has no new version, and one that is new has no zones.
theorem mem_policyChanges (spec : Spec) (state : State) (changes : List Change) {change : Change} :
    change ∈ policyChanges spec state ↔
      ∃ k zone old new, state.policies.lookup k = some old ∧
        (spec.parseInto state changes).1.policies.lookup k = some new ∧
        old.latest ≠ new.latest ∧ zone ∈ old.zones ∧
        change = .ZonePolicyChanged zone new.latest := by
  rw [policyChanges, List.mem_flatMap]
  constructor
  · intro h
    obtain ⟨e, he, hchange⟩ := h
    obtain ⟨policy, zone, hold, hzone, hne, heq⟩ := mem_mergePolicy_snd.mp hchange
    have hspec : spec.policies.lookup e.1 = some e.2 := HashMap.lookup_eq_some_iff.mpr he
    refine ⟨e.1, zone, policy, _, hold, ?_, hne, hzone, heq⟩
    rw [lookup_parseInto_policies, hspec]
  · intro h
    obtain ⟨k, zone, old, new, hold, hnew, hne, hzone, heq⟩ := h
    rw [lookup_parseInto_policies] at hnew
    cases hspec : spec.policies.lookup k with
    | none =>
      rw [hspec, hold] at hnew
      obtain ⟨hkept, -⟩ := Option.filter_eq_some_iff.mp hnew
      obtain rfl := Option.some.inj hkept
      exact absurd rfl hne
    | some p =>
      rw [hspec] at hnew
      obtain rfl := Option.some.inj hnew
      refine ⟨⟨k, p⟩, HashMap.lookup_eq_some_iff.mp hspec, ?_⟩
      exact mem_mergePolicy_snd.mpr ⟨old, zone, hold, hzone, hne, heq⟩

/-- The names of the zones that the merge drops. -/
def droppedZones (spec : Spec) (state : State) : List Name :=
  (HashMap.moveEach mergeZone { old := state.zones, new := ∅, log := [] } spec.zones.entries).old.keys

theorem mem_droppedZones {spec : Spec} {state : State} {n : Name} :
    n ∈ droppedZones spec state ↔ n ∈ state.zones ∧ n ∉ spec.zones := by
  show n ∈ (HashMap.moveEach mergeZone _ spec.zones.entries).old ↔ _
  rw [← AList.lookup_isSome, ← AList.lookup_isSome, HashMap.lookup_moveEach_old]
  have hkeys : n ∈ spec.zones.entries.keys ↔ n ∈ spec.zones := Iff.rfl
  by_cases hn : n ∈ spec.zones
  · simp [hkeys, hn]
  · simp [hkeys, hn]

-- A zone that is kept or new reports nothing.
theorem log_mergeZone (es : List (Sigma fun _ : Name ↦ Unit)) (hn : es.NodupKeys)
    (old : HashMap Name ZoneState) (log : List Change) :
    (HashMap.moveEach mergeZone { old, new := ∅, log } es).log = log := by
  have hnone : es.flatMap (fun e ↦ (mergeZone e.1 e.2 (old.lookup e.1)).2) = [] := by
    apply List.flatMap_eq_nil_iff.mpr
    intro e _
    cases old.lookup e.1 <;> rfl
  rw [HashMap.log_moveEach mergeZone es hn, hnone, List.append_nil]

/-- What the merge reports, in order. -/
def appended (spec : Spec) (state : State) : List Change :=
  (if (spec.config.parseInto state.config false).2 then [.ConfigChanged] else []) ++
    policyChanges spec state ++ (droppedZones spec state).map .ZoneRemoved

-- The zones that are left over do not depend on what was reported before.
theorem droppedZones_eq (spec : Spec) (state : State) (log : List Change) :
    (HashMap.moveEach mergeZone { old := state.zones, new := ∅, log } spec.zones.entries).old.keys =
      droppedZones spec state := by
  have hold : ∀ (es : List (Sigma fun _ : Name ↦ Unit)) (s t : HashMap.Move Name ZoneState Change),
      s.old = t.old →
      (HashMap.moveEach mergeZone s es).old = (HashMap.moveEach mergeZone t es).old := by
    intro es
    induction es with
    | nil => exact fun _ _ h ↦ h
    | cons e es ih =>
      intro s t h
      apply ih
      show s.old.erase e.1 = t.old.erase e.1
      rw [h]
  rw [droppedZones, hold]
  rfl

theorem parseInto_snd (spec : Spec) (state : State) (changes : List Change) :
    (spec.parseInto state changes).2 = changes ++ appended spec state := by
  have hconfig : (if (spec.config.parseInto state.config false).2 then changes ++ [.ConfigChanged]
      else changes) =
      changes ++ (if (spec.config.parseInto state.config false).2 then [.ConfigChanged] else []) := by
    split
    · rfl
    · exact (List.append_nil _).symm
  simp only [Spec.parseInto]
  rw [log_mergeZone _ spec.zones.nodupKeys, droppedZones_eq,
    HashMap.log_moveEach mergePolicy _ spec.policies.nodupKeys, hconfig, appended, policyChanges]
  simp only [List.append_assoc]

/-! ## What is reported -/

/-- `reported` names exactly the changes from `before` to `after`, and the zones that stay keep their
state. -/
structure Reported (before after : State) (reported : List Change) : Prop where
  configChanged : .ConfigChanged ∈ reported ↔ ¬PersistedEq before.config after.config
  zoneAdded : ∀ n, .ZoneAdded n ∈ reported ↔ n ∈ after.zones ∧ n ∉ before.zones
  zoneRemoved : ∀ n, .ZoneRemoved n ∈ reported ↔ n ∈ before.zones ∧ n ∉ after.zones
  zonePolicyChanged : ∀ n version, .ZonePolicyChanged n version ∈ reported ↔
    ∃ k old new, before.policies.lookup k = some old ∧ after.policies.lookup k = some new ∧
      old.latest ≠ new.latest ∧ n ∈ old.zones ∧ version = new.latest
  kept : ∀ n, n ∈ before.zones → n ∈ after.zones → after.zones.lookup n = before.zones.lookup n

/-- The merge adds to the list of changes those that it makes. -/
def ReportsChanges (spec : Spec) (state : State) (changes : List Change) : Prop :=
  ∃ reported, (spec.parseInto state changes).2 = changes ++ reported ∧
    Reported state (spec.parseInto state changes).1 reported

section

variable (spec : Spec) (state : State) (changes : List Change)

theorem mem_parseInto_zones (n : Name) :
    n ∈ (spec.parseInto state changes).1.zones ↔ n ∈ spec.zones := by
  rw [← AList.lookup_isSome, lookup_parseInto_zones]
  by_cases hn : n ∈ spec.zones
  · simp [hn]
  · simp [hn]

theorem configChanged_mem_appended :
    .ConfigChanged ∈ appended spec state ↔
      ¬PersistedEq state.config (spec.parseInto state changes).1.config := by
  have hflag := spec.config.parseInto_snd_eq_false_iff state.config
  have hconfig : (spec.parseInto state changes).1.config =
      (spec.config.parseInto state.config false).1 := rfl
  rw [hconfig, ← hflag, Bool.not_eq_false]
  simp only [appended, List.mem_append, mem_policyChanges spec state [], List.mem_map]
  cases (spec.config.parseInto state.config false).2 <;> simp

theorem zoneAdded_notMem_appended (n : Name) : .ZoneAdded n ∉ appended spec state := by
  have hpolicy : .ZoneAdded n ∉ policyChanges spec state := by
    intro h
    obtain ⟨k, zone, old, new, -, -, -, -, heq⟩ := (mem_policyChanges spec state []).mp h
    cases heq
  unfold appended
  split <;> simp [hpolicy]

theorem zoneRemoved_mem_appended (n : Name) :
    .ZoneRemoved n ∈ appended spec state ↔
      n ∈ state.zones ∧ n ∉ (spec.parseInto state changes).1.zones := by
  have hpolicy : .ZoneRemoved n ∉ policyChanges spec state := by
    intro h
    obtain ⟨k, zone, old, new, -, -, -, -, heq⟩ := (mem_policyChanges spec state []).mp h
    cases heq
  rw [mem_parseInto_zones, ← mem_droppedZones]
  unfold appended
  split <;> simp [hpolicy]

theorem zonePolicyChanged_mem_appended (n : Name) (version : PolicyVersion) :
    .ZonePolicyChanged n version ∈ appended spec state ↔
      ∃ k old new, state.policies.lookup k = some old ∧
        (spec.parseInto state changes).1.policies.lookup k = some new ∧
        old.latest ≠ new.latest ∧ n ∈ old.zones ∧ version = new.latest := by
  have hpolicy : .ZonePolicyChanged n version ∈ appended spec state ↔
      .ZonePolicyChanged n version ∈ policyChanges spec state := by
    unfold appended
    split <;> simp
  rw [hpolicy, mem_policyChanges spec state changes]
  constructor
  · intro h
    obtain ⟨k, zone, old, new, hold, hnew, hne, hzone, heq⟩ := h
    obtain ⟨rfl, rfl⟩ := Change.ZonePolicyChanged.inj heq
    exact ⟨k, old, new, hold, hnew, hne, hzone, rfl⟩
  · intro h
    obtain ⟨k, old, new, hold, hnew, hne, hzone, rfl⟩ := h
    exact ⟨k, n, old, new, hold, hnew, hne, hzone, rfl⟩

theorem kept_parseInto (n : Name) (hbefore : n ∈ state.zones)
    (hafter : n ∈ (spec.parseInto state changes).1.zones) :
    (spec.parseInto state changes).1.zones.lookup n = state.zones.lookup n := by
  obtain ⟨zone, hzone⟩ := HashMap.mem_iff_lookup.mp hbefore
  rw [mem_parseInto_zones] at hafter
  rw [lookup_parseInto_zones, if_pos hafter, hzone]
  rfl

/-- All changes are reported, and no others, exactly where the file names no new zone. -/
theorem reportsChanges_iff :
    ReportsChanges spec state changes ↔ ∀ n ∈ spec.zones, n ∈ state.zones := by
  constructor
  · intro h n hn
    obtain ⟨reported, happended, hreported⟩ := h
    rw [parseInto_snd] at happended
    obtain rfl := List.append_cancel_left happended
    by_contra hnew
    have hadded := (hreported.zoneAdded n).mpr
      ⟨(mem_parseInto_zones spec state changes n).mpr hn, hnew⟩
    exact zoneAdded_notMem_appended spec state n hadded
  · intro hknown
    refine ⟨appended spec state, parseInto_snd spec state changes, ?_⟩
    exact {
      configChanged := configChanged_mem_appended spec state changes
      zoneAdded := by
        intro n
        apply iff_of_false (zoneAdded_notMem_appended spec state n)
        intro hadded
        have hn := (mem_parseInto_zones spec state changes n).mp hadded.1
        exact hadded.2 (hknown n hn)
      zoneRemoved := zoneRemoved_mem_appended spec state changes
      zonePolicyChanged := zonePolicyChanged_mem_appended spec state changes
      kept := kept_parseInto spec state changes }

end

/-- The first merge of a file with one zone, into the state that the daemon starts from. -/
theorem new_zone_not_reported :
    ¬ReportsChanges RestartExample.stateFile (State.new Config.default) [] := by
  intro h
  obtain ⟨reported, happended, hreported⟩ := h
  rw [parseInto_snd] at happended
  obtain rfl := List.append_cancel_left happended
  have hlisted : RestartExample.zone ∈ RestartExample.stateFile.zones := by decide
  have hadded := (hreported.zoneAdded RestartExample.zone).mpr
    ⟨(mem_parseInto_zones _ _ _ _).mpr hlisted, AList.notMem_empty _⟩
  exact zoneAdded_notMem_appended _ _ _ hadded

end StateFile

end Cascade
