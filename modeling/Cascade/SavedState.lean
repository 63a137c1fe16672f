import Cascade.ConfigFile
import Cascade.StateCodec
import Mathlib.Logic.Equiv.List

/-!
# The state after a restart

The global state is saved, and the file is loaded into a fresh state, whose environment, command line
and defaults give it some configuration to start from.
-/

namespace Cascade

open Lib Lib.Serde

instance : ReflBEq Utf8Path := ⟨fun {path} ↦ beq_self_eq_true path.components⟩

instance : ReflBEq LogTarget where
  rfl {target} := by
    cases target with
    | File path => exact BEq.refl path
    | Syslog => rfl

section

variable {T : Type} [BEq T] (dst value : T) (changed : Bool)

theorem updateValue_beq [ReflBEq T] : ((updateValue dst value changed).1 == value) = true := by
  unfold updateValue
  by_cases hne : (dst != value) = true
  · rw [if_pos hne]
    exact BEq.refl value
  · rw [if_neg hne]
    simpa [bne] using hne

theorem updateValue_eq [LawfulBEq T] : (updateValue dst value changed).1 = value :=
  eq_of_beq (updateValue_beq dst value changed)

end

namespace StateFile

/-! ## The configuration -/

/-- What `config` has from its file, and all that has one source only, is in `restored`.  Paths are
compared as such. -/
structure ConfigKept (config restored : Config) : Prop where
  policyDir : (restored.policyDir == config.policyDir) = true
  zoneStateDir : (restored.zoneStateDir == config.zoneStateDir) = true
  tsigStorePath : (restored.tsigStorePath == config.tsigStorePath) = true
  stateFile : restored.daemon.stateFile.file = config.daemon.stateFile.file
  logLevel : restored.daemon.logging.level.file = config.daemon.logging.level.file
  logTarget : (restored.daemon.logging.target.file == config.daemon.logging.target.file) = true
  traceTargets :
    restored.daemon.logging.traceTargets.file = config.daemon.logging.traceTargets.file
  configFile : (restored.daemon.configFile.file == config.daemon.configFile.file) = true
  daemonize : restored.daemon.daemonize.file = config.daemon.daemonize.file
  pidFile : (restored.daemon.pidFile == config.daemon.pidFile) = true
  chroot : (restored.daemon.chroot == config.daemon.chroot) = true
  identity : restored.daemon.identity = config.daemon.identity
  loader : restored.loader = config.loader
  signer : restored.signer = config.signer
  keyManager : restored.keyManager = config.keyManager
  server : restored.server = config.server

-- The state file does not hold the setting for its own location.
theorem configKept_iff (config fresh : Config) (changed : Bool) :
    ConfigKept config ((ConfigSpec.build config).parseInto fresh changed).1 ↔
      fresh.daemon.stateFile.file = config.daemon.stateFile.file := by
  constructor
  · intro hkept
    exact hkept.stateFile
  · intro hfile
    have hlevel : (config.daemon.logging.level.file.map LogLevelSpec.build).map (·.parse) =
        config.daemon.logging.level.file := by
      simp [Function.comp_def]
    have htarget : (config.daemon.logging.target.file.map LogTargetSpec.build).map (·.parse) =
        config.daemon.logging.target.file := by
      simp [Function.comp_def]
    have hidentity : (ConfigSpec.build config).daemon.identity.map (fun x ↦ (x.1.parse, x.2.parse)) =
        config.daemon.identity := by
      simp [ConfigSpec.build, DaemonConfigSpec.build, Function.comp_def]
    exact {
      policyDir := updateValue_beq _ _ _
      zoneStateDir := updateValue_beq _ _ _
      tsigStorePath := updateValue_beq _ _ _
      stateFile := hfile
      logLevel := (updateValue_eq _ _ _).trans hlevel
      logTarget := by
        have hbeq := updateValue_beq fresh.daemon.logging.target.file
        rw [← htarget]
        exact hbeq _ _
      traceTargets := updateValue_eq _ _ _
      configFile := updateValue_beq _ _ _
      daemonize := updateValue_eq _ _ _
      pidFile := updateValue_beq _ _ _
      chroot := updateValue_beq _ _ _
      identity := (updateValue_eq _ _ _).trans hidentity
      loader := (updateValue_eq _ _ _).trans (LoaderConfigSpec.parse_build config.loader)
      signer := (updateValue_eq _ _ _).trans (SignerConfigSpec.parse_build config.signer)
      keyManager := rfl
      server := (updateValue_eq _ _ _).trans (ServerConfigSpec.parse_build config.server) }

/-! ## Policies and zones -/

-- A fraction of a second is lost.
theorem SignerPolicySpec.parse_build_iff (policy : SignerPolicy) :
    (SignerPolicySpec.build policy).parse = policy ↔
      policy.sigInceptionOffset.nanos = 0 ∧ policy.sigValidityTime.nanos = 0 := by
  obtain ⟨serialPolicy, sigInceptionOffset, sigValidityTime, denial, review⟩ := policy
  simp [SignerPolicySpec.build, SignerPolicySpec.parse, Duration.fromSecs_asSecs_iff]

theorem parse_build_iff (policy : PolicyVersion) (name : String) :
    (PolicyVersionSpec.build policy).parse name = policy ↔
      policy.name = name ∧ policy.signer.sigInceptionOffset.nanos = 0 ∧
        policy.signer.sigValidityTime.nanos = 0 := by
  rw [← SignerPolicySpec.parse_build_iff]
  obtain ⟨name', loader, keyManager, signer, server⟩ := policy
  simp only [PolicyVersionSpec.build, PolicyVersionSpec.parse, PolicyVersion.mk.injEq,
    LoaderPolicySpec.parse_build, KeyManagerPolicySpec.parse_build, ServerPolicySpec.parse_build,
    true_and, and_true]
  constructor
  · rintro ⟨hname, hsigner⟩
    exact ⟨hname.symm, hsigner⟩
  · rintro ⟨hname, hsigner⟩
    exact ⟨hname.symm, hsigner⟩

/-- What the state file is to keep of a policy. -/
def kept (policy : Policy) : PolicyVersion × Bool := (policy.latest, policy.midDeletion)

/-- A policy as the policy files and the state files make them. -/
structure Regular (name : String) (policy : Policy) : Prop where
  name : policy.latest.name = name
  sigInceptionOffset : policy.latest.signer.sigInceptionOffset.nanos = 0
  sigValidityTime : policy.latest.signer.sigValidityTime.nanos = 0

theorem kept_parse_build_iff (name : String) (policy : Policy) :
    kept ((PolicySpec.build policy).parse name) = kept policy ↔ Regular name policy := by
  have hversion := parse_build_iff policy.latest name
  constructor
  · intro hkept
    obtain ⟨hname, hoffset, htime⟩ := hversion.mp (congrArg Prod.fst hkept)
    exact ⟨hname, hoffset, htime⟩
  · intro hregular
    have heq := hversion.mpr ⟨hregular.name, hregular.sigInceptionOffset, hregular.sigValidityTime⟩
    show ((PolicyVersionSpec.build policy.latest).parse name, policy.midDeletion) = kept policy
    rw [heq]
    rfl

section

variable (state : State) (fresh : Config)

/-- The fresh state with the file of `state` loaded into it. -/
def restart : State := ((Spec.build state).parseInto (State.new fresh) []).1

theorem lookup_restart_policies (name : String) :
    (restart state fresh).policies.lookup name =
      (state.policies.lookup name).map (fun policy ↦ (PolicySpec.build policy).parse name) := by
  have hbuilt : (Spec.build state).policies.lookup name =
      (state.policies.lookup name).map PolicySpec.build := HashMap.lookup_mapVal _ _ name
  rw [restart, lookup_parseInto_policies, hbuilt]
  cases state.policies.lookup name with
  | none => rfl
  | some policy => rfl

theorem mem_restart_zones (name : Name) : name ∈ (restart state fresh).zones ↔ name ∈ state.zones := by
  have hbuilt : name ∈ (Spec.build state).zones ↔ name ∈ state.zones := by
    rw [← AList.lookup_isSome, ← AList.lookup_isSome]
    show ((HashMap.mapVal (fun _ _ ↦ ()) state.zones).lookup name).isSome = true ↔ _
    rw [HashMap.lookup_mapVal, Option.isSome_map]
  rw [← hbuilt, ← AList.lookup_isSome, restart, lookup_parseInto_zones]
  by_cases hmem : name ∈ (Spec.build state).zones
  · rw [if_pos hmem]
    exact iff_of_true rfl hmem
  · rw [if_neg hmem]
    exact iff_of_false Bool.false_ne_true hmem

end

/-! ## A restart -/

/-- The settings, the policies and the names of the zones are all there again. -/
structure Restored (state restored : State) : Prop where
  config : ConfigKept state.config restored.config
  policies : ∀ name, (restored.policies.lookup name).map kept = (state.policies.lookup name).map kept
  zones : ∀ name, name ∈ restored.zones ↔ name ∈ state.zones

theorem restored_restart_iff (state : State) (fresh : Config) :
    Restored state (restart state fresh) ↔
      fresh.daemon.stateFile.file = state.config.daemon.stateFile.file ∧
        ∀ name policy, state.policies.lookup name = some policy → Regular name policy := by
  have hconfig := configKept_iff state.config fresh false
  constructor
  · intro hrestored
    constructor
    · exact hconfig.mp hrestored.config
    · intro name policy hpolicy
      have hkept := hrestored.policies name
      rw [lookup_restart_policies, hpolicy] at hkept
      exact (kept_parse_build_iff name policy).mp (Option.some.inj hkept)
  · rintro ⟨hfile, hregular⟩
    exact {
      config := hconfig.mpr hfile
      policies := by
        intro name
        rw [lookup_restart_policies]
        cases hpolicy : state.policies.lookup name with
        | none => rfl
        | some policy =>
          exact congrArg some ((kept_parse_build_iff name policy).mpr (hregular name policy hpolicy))
      zones := mem_restart_zones state fresh }

section

variable [Text SocketAddr] [Text Name]

/-- Saving succeeds, what is read is what was written, and loading it into a fresh state restores
everything. -/
def RoundTrips (state : State) (fresh : Config) : Prop :=
  ∃ saved, codec.encode (Spec.build state) = some saved ∧
    ∃ spec, codec.decode saved = some spec ∧ spec = Spec.build state ∧
      Restored state (spec.parseInto (State.new fresh) []).1

/-- No identity is configured, the policies are as usual, and the location of the state file itself,
which no file has, is the same. -/
structure Saveable (state : State) (fresh : Config) : Prop where
  identity : state.config.daemon.identity = none
  stateFile : fresh.daemon.stateFile.file = state.config.daemon.stateFile.file
  policies : ∀ name policy, state.policies.lookup name = some policy → Regular name policy

theorem isSome_encode_build (state : State) :
    (codec.encode (Spec.build state)).isSome = state.config.daemon.identity.isNone := by
  rw [isSome_codec]
  exact Option.isNone_map

/-- The state file brings back the state exactly if there is no identity in the configuration. -/
theorem round_trips_iff (state : State) (fresh : Config) :
    RoundTrips state fresh ↔ Saveable state fresh := by
  have hencode := isSome_encode_build state
  constructor
  · rintro ⟨saved, hsaved, spec, hspec, rfl, hrestored⟩
    obtain ⟨hfile, hregular⟩ := (restored_restart_iff state fresh).mp hrestored
    rw [hsaved] at hencode
    exact ⟨Option.isNone_iff_eq_none.mp hencode.symm, hfile, hregular⟩
  · rintro ⟨hidentity, hfile, hregular⟩
    rw [hidentity] at hencode
    obtain ⟨saved, hsaved⟩ := Option.isSome_iff_exists.mp hencode
    have hrestored := (restored_restart_iff state fresh).mpr ⟨hfile, hregular⟩
    exact ⟨saved, hsaved, Spec.build state, codec.decode_encode _ saved hsaved, rfl, hrestored⟩

end

/-! ## An identity -/

namespace ShortRun

/-- A text for the value of each number: so many strokes. -/
abbrev strokes (T : Type) [Encodable T] : Text T where
  write t := String.ofList (List.replicate (Encodable.encode t) '|')
  read s := Encodable.decode s.length
  read_write t := by rw [String.length_ofList, List.length_replicate, Encodable.encodek]

def bytes (name : Name) : List (List Nat) := name.labels.map (fun l ↦ l.map UInt8.toNat)

def ofBytes (ls : List (List Nat)) : Option Name :=
  let labels := ls.map (fun l ↦ l.map UInt8.ofNat)
  if h : labels.all Label.isValid = true ∧ wireLen labels ≤ 255 then some ⟨labels, h⟩ else none

theorem ofBytes_bytes (name : Name) : ofBytes (bytes name) = some name := by
  have hlabels : (bytes name).map (fun l ↦ l.map UInt8.ofNat) = name.labels := by
    simp [bytes, Function.comp_def]
  simp only [ofBytes, hlabels]
  rw [dif_pos name.valid]

def numbers : SocketAddr → Nat × Nat × Option Nat
  | .V4 octets port => (octets.toNat, port.toNat, none)
  | .V6 octets port scopeId => (octets.toNat, port.toNat, some scopeId.toNat)

def ofNumbers : Nat × Nat × Option Nat → Option SocketAddr
  | (octets, port, none) => some (.V4 (.ofNat 32 octets) (.ofNat port))
  | (octets, port, some scopeId) => some (.V6 (.ofNat 128 octets) (.ofNat port) (.ofNat scopeId))

theorem ofNumbers_numbers (addr : SocketAddr) : ofNumbers (numbers addr) = some addr := by
  cases addr with
  | V4 octets port => simp [numbers, ofNumbers]
  | V6 octets port scopeId => simp [numbers, ofNumbers]

-- No text of either kind is in the file below.
abbrev nameText : Text Name :=
  let : Encodable Name := .ofLeftInjection bytes ofBytes ofBytes_bytes
  strokes Name

abbrev socketAddrText : Text SocketAddr :=
  let : Encodable SocketAddr := .ofLeftInjection numbers ofNumbers ofNumbers_numbers
  strokes SocketAddr

/-- The configuration file sets the user and the group to run as, and nothing else. -/
def daemonUser : State :=
  State.new (ConfigFile.Spec.parseInto
    { daemon := { identity := some ⟨.Numeric 1000, .Numeric 1000⟩ } } Config.default)

end ShortRun

section

open ShortRun

local instance : Text Name := nameText

local instance : Text SocketAddr := socketAddrText

/-- A user to run as cannot be written to the file. -/
theorem not_round_trips :
    codec.encode (Spec.build daemonUser) = none ∧ ¬RoundTrips daemonUser Config.default := by
  have hencode : (codec.encode (Spec.build daemonUser)).isSome = false := isSome_encode_build daemonUser
  have hnone := Option.isSome_eq_false_iff.mp hencode
  rw [Option.isNone_iff_eq_none] at hnone
  constructor
  · exact hnone
  · rintro ⟨saved, hsaved, -⟩
    rw [hnone] at hsaved
    cases hsaved

end

end StateFile

end Cascade
