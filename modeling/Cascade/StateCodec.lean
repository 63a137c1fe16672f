import Cascade.StateFile
import Cascade.Lib.Serde
import Mathlib.Data.Finset.Sort
import Mathlib.Data.String.Basic

/-!
# Saving the global state

How the state file is written and read, as its types declare it.  The texts for domain names and for
socket addresses are those of the libraries that they are from.
-/

namespace Cascade

open Lib Lib.Serde

/-- A type whose library writes it as a text that it reads back. -/
class Text (T : Type) where
  write : T → String
  read : String → Option T
  read_write : ∀ t, read (write t) = some t

abbrev Text.codec (T : Type) [Text T] : Codec T := .ofText write read read_write

abbrev Utf8Path.codec : Codec Utf8Path :=
  .ofText (fun path ↦ String.ofList path.chars) (fun s ↦ some ⟨s.toList⟩) (fun path ↦ by simp)

namespace StateFile

/-! ## Policies -/

abbrev reviewPolicy : Codec ReviewPolicySpec :=
  .struct (.iso (.and (.field "required" .bool) (.optional "cmd-hook" .string))
    (fun s ↦ (s.required, s.cmdHook)) (fun (required, cmdHook) ↦ { required, cmdHook }) (fun _ ↦ rfl))

abbrev loaderPolicy : Codec LoaderPolicySpec :=
  .struct (.iso (.field "review" reviewPolicy) (fun s ↦ s.review) (fun review ↦ { review })
    (fun _ ↦ rfl))

abbrev keyManagerPolicy : Codec KeyManagerPolicySpec :=
  .struct (.iso .empty (fun _ ↦ ()) (fun _ ↦ {}) (fun _ ↦ rfl))

def signerSerialPolicy : Codec SignerSerialPolicySpec :=
  .units [("keep", .Keep), ("counter", .Counter), ("unix-time", .UnixTime),
    ("date-counter", .DateCounter)] (by decide)

instance : Codec.Total signerSerialPolicy := ⟨fun t ↦ by cases t <;> rfl⟩

def nsec3OptOutPolicy : Codec Nsec3OptOutPolicySpec :=
  .tagged "type" [.unit "disabled" .Disabled (fun t ↦ decide (t = .Disabled)) (by simp),
    .unit "flag-only" .FlagOnly (fun t ↦ decide (t = .FlagOnly)) (by simp),
    .unit "enabled" .Enabled (fun t ↦ decide (t = .Enabled)) (by simp)] (by decide)

instance : Codec.Total nsec3OptOutPolicy := ⟨fun t ↦ by cases t <;> rfl⟩

/-- The names of the fields of a variant are not changed. -/
def signerDenialPolicy : Codec SignerDenialPolicySpec :=
  .tagged "type" [.unit "n-sec" .NSec (fun t ↦ decide (t = .NSec)) (by simp),
    .struct "n-sec3" (.field "opt_out" nsec3OptOutPolicy)
      (fun | .NSec3 optOut => some optOut | _ => none) .NSec3] (by decide)

instance : Codec.Total signerDenialPolicy where
  isSome_encode t := by
    cases t with
    | NSec => rfl
    | NSec3 optOut => cases optOut <;> rfl

abbrev signerPolicy : Codec SignerPolicySpec :=
  .struct (.iso (.and (.field "serial-policy" signerSerialPolicy)
      (.and (.field "sig-inception-offset" .u64) (.and (.field "sig-validity-time" .u64)
        (.and (.field "denial" signerDenialPolicy) (.field "review" reviewPolicy)))))
    (fun s ↦ (s.serialPolicy, s.sigInceptionOffset, s.sigValidityTime, s.denial, s.review))
    (fun (serialPolicy, sigInceptionOffset, sigValidityTime, denial, review) ↦
      { serialPolicy, sigInceptionOffset, sigValidityTime, denial, review })
    (fun _ ↦ rfl))

abbrev serverPolicy : Codec ServerPolicySpec :=
  .struct (.iso .empty (fun _ ↦ ()) (fun _ ↦ {}) (fun _ ↦ rfl))

abbrev policyVersion : Codec PolicyVersionSpec :=
  .struct (.iso (.and (.field "loader" loaderPolicy) (.and (.field "key-manager" keyManagerPolicy)
      (.and (.field "signer" signerPolicy) (.field "server" serverPolicy))))
    (fun s ↦ (s.loader, s.keyManager, s.signer, s.server))
    (fun (loader, keyManager, signer, server) ↦ { loader, keyManager, signer, server })
    (fun _ ↦ rfl))

abbrev policy : Codec PolicySpec :=
  .struct (.iso (.and (.field "latest" policyVersion) (.field "mid-deletion" .bool))
    (fun s ↦ (s.latest, s.midDeletion)) (fun (latest, midDeletion) ↦ { latest, midDeletion })
    (fun _ ↦ rfl))

/-! ## The configuration -/

def userId : Codec UserIdSpec :=
  .tagged "type" [
    .newtype "numeric" .u32 (fun | .Numeric id => some id | _ => none) .Numeric,
    .newtype "named" .string (fun | .Named name => some name | _ => none) .Named]
    (by decide)

def groupId : Codec GroupIdSpec :=
  .tagged "type" [
    .newtype "numeric" .u32 (fun | .Numeric id => some id | _ => none) .Numeric,
    .newtype "named" .string (fun | .Named name => some name | _ => none) .Named]
    (by decide)

-- Neither kind of content is an object, so that no place is left for the tag.
@[simp] theorem encode_userId (t : UserIdSpec) : userId.encode t = none := by
  cases t <;> rfl

def logLevel : Codec LogLevelSpec :=
  .units [("trace", .Trace), ("debug", .Debug), ("info", .Info), ("warning", .Warning),
    ("error", .Error), ("critical", .Critical)] (by decide)

instance : Codec.Total logLevel := ⟨fun t ↦ by cases t <;> rfl⟩

instance : Codec.NotNull logLevel := inferInstanceAs (Codec.NotNull (.units _ _))

def logTarget : Codec LogTargetSpec :=
  .tagged "type" [
    .struct "file" (.field "path" Utf8Path.codec) (fun | .File path => some path | _ => none) .File,
    .unit "syslog" .Syslog (fun | .Syslog => true | _ => false) (by
      intro t h
      cases t <;> cases h
      rfl)] (by decide)

instance : Codec.Total logTarget := ⟨fun t ↦ by cases t <;> rfl⟩

instance : Codec.NotNull logTarget := inferInstanceAs (Codec.NotNull (.tagged _ _ _))

/-- A set of texts, in some order. -/
abbrev textSet : Codec (Finset String) :=
  .iso (.list .string) (fun s ↦ s.sort (· ≤ ·)) List.toFinset (fun s ↦ Finset.sort_toFinset s (· ≤ ·))

abbrev loggingConfig : Codec LoggingConfigSpec :=
  .struct (.iso (.and (.optional "level" logLevel) (.and (.optional "target" logTarget)
      (.optional "trace-targets" textSet)))
    (fun s ↦ (s.level, s.target, s.traceTargets))
    (fun (level, target, traceTargets) ↦ { level, target, traceTargets }) (fun _ ↦ rfl))

def daemonConfig : Codec DaemonConfigSpec :=
  .struct (.iso (.and (.field "logging" loggingConfig)
      (.and (.optional "config-file" Utf8Path.codec) (.and (.optional "daemonize" .bool)
        (.and (.optional "pid-file" Utf8Path.codec) (.and (.optional "chroot" Utf8Path.codec)
          (.optional "identity" (.pair userId groupId)))))))
    (fun s ↦ (s.logging, s.configFile, s.daemonize, s.pidFile, s.chroot, s.identity))
    (fun (logging, configFile, daemonize, pidFile, chroot, identity) ↦
      { logging, configFile, daemonize, pidFile, chroot, identity })
    (fun _ ↦ rfl))

abbrev keyManagerConfig : Codec KeyManagerConfigSpec :=
  .struct (.iso .empty (fun _ ↦ ()) (fun _ ↦ {}) (fun _ ↦ rfl))

section

variable [Text SocketAddr]

def socketConfig : Codec SocketConfigSpec :=
  .tagged "type" [
    .struct "udp" (.field "addr" (Text.codec SocketAddr)) (fun | .Udp addr => some addr | _ => none)
      .Udp,
    .struct "tcp" (.field "addr" (Text.codec SocketAddr)) (fun | .Tcp addr => some addr | _ => none)
      .Tcp,
    .struct "tcp-udp" (.field "addr" (Text.codec SocketAddr))
      (fun | .TcpUdp addr => some addr | _ => none) .TcpUdp] (by
      show ["udp", "tcp", "tcp-udp"].Nodup
      decide)

instance : Codec.Total socketConfig := ⟨fun t ↦ by cases t <;> rfl⟩

abbrev reviewConfig : Codec ReviewConfigSpec :=
  .struct (.iso (.field "servers" (.list socketConfig)) (fun s ↦ s.servers) (fun servers ↦ { servers })
    (fun _ ↦ rfl))

abbrev loaderConfig : Codec LoaderConfigSpec :=
  .struct (.iso (.and (.field "notif-listeners" (.list socketConfig)) (.field "review" reviewConfig))
    (fun s ↦ (s.notifListeners, s.review)) (fun (notifListeners, review) ↦ { notifListeners, review })
    (fun _ ↦ rfl))

abbrev signerConfig : Codec SignerConfigSpec :=
  .struct (.iso (.field "review" reviewConfig) (fun s ↦ s.review) (fun review ↦ { review })
    (fun _ ↦ rfl))

abbrev serverConfig : Codec ServerConfigSpec :=
  .struct (.iso (.field "servers" (.list socketConfig)) (fun s ↦ s.servers) (fun servers ↦ { servers })
    (fun _ ↦ rfl))

def config : Codec ConfigSpec :=
  .struct (.iso (.and (.field "policy-dir" Utf8Path.codec)
      (.and (.field "zone-state-dir" Utf8Path.codec) (.and (.field "tsig-store-path" Utf8Path.codec)
        (.and (.field "daemon" daemonConfig) (.and (.field "loader" loaderConfig)
          (.and (.field "signer" signerConfig) (.and (.field "key-manager" keyManagerConfig)
            (.field "server" serverConfig))))))))
    (fun s ↦ (s.policyDir, s.zoneStateDir, s.tsigStorePath, s.daemon, s.loader, s.signer,
      s.keyManager, s.server))
    (fun (policyDir, zoneStateDir, tsigStorePath, daemon, loader, signer, keyManager, server) ↦
      { policyDir, zoneStateDir, tsigStorePath, daemon, loader, signer, keyManager, server })
    (fun _ ↦ rfl))

variable [Text Name]

def spec : Codec Spec :=
  .struct (.iso (.and (.field "config" config) (.and (.field "zones" (.set (Text.codec Name)))
      (.field "policies" (.map policy))))
    (fun s ↦ (s.config, s.zones, s.policies)) (fun (config, zones, policies) ↦ { config, zones, policies })
    (fun _ ↦ rfl))

/-- The state file with its version. -/
def codec : Codec Spec :=
  .tagged "version" [.newtype "v1" spec some id (by
    intro t s h
    cases h
    rfl)] (List.nodup_singleton "v1")

end

/-! ## What can be saved -/

theorem isSome_identity (identity : Option (UserIdSpec × GroupIdSpec)) :
    ((Codec.pair userId groupId).option.encode identity).isSome = identity.isNone := by
  cases identity with
  | none => rfl
  | some identity =>
    show ((userId.encode identity.1).bind _).isSome = false
    rw [encode_userId]
    rfl

theorem isSome_daemonConfig (s : DaemonConfigSpec) :
    (daemonConfig.encode s).isSome = s.identity.isNone := by
  simp only [daemonConfig, Codec.isSome_struct, Fields.isSome_iso, Fields.isSome_and,
    Fields.isSome_field, Fields.isSome_optional, Codec.Total.isSome_encode, isSome_identity,
    Bool.true_and]

section

variable [Text SocketAddr]

theorem isSome_config (s : ConfigSpec) : (config.encode s).isSome = s.daemon.identity.isNone := by
  simp only [config, Codec.isSome_struct, Fields.isSome_iso, Fields.isSome_and,
    Fields.isSome_field, Codec.Total.isSome_encode, isSome_daemonConfig, Bool.true_and,
    Bool.and_true]

variable [Text Name]

theorem isSome_spec (s : Spec) : (spec.encode s).isSome = s.config.daemon.identity.isNone := by
  simp only [spec, Codec.isSome_struct, Fields.isSome_iso, Fields.isSome_and, Fields.isSome_field,
    Codec.Total.isSome_encode, isSome_config, Bool.and_true]

-- Everything but the identity can be saved.
theorem isSome_codec (s : Spec) : (codec.encode s).isSome = s.config.daemon.identity.isNone := by
  rw [← isSome_spec]
  show ((Variant.entriesOf (spec.encode s)).bind _).isSome = _
  cases hspec : spec.encode s with
  | none => rfl
  | some v =>
    obtain ⟨es, -, rfl⟩ := Option.map_eq_some_iff.mp hspec
    rfl

end

end StateFile

end Cascade
