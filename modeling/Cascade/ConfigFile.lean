import Cascade.Center

/-!
# The configuration file

Reloading the configuration file sets every setting that the file can hold, a setting that is
missing from the file included.  The rest of the configuration is from the environment and the
command line, or from the state file.
-/

namespace Cascade

open Lib

namespace ConfigFile

inductive LogLevelSpec
  | Trace
  | Debug
  | Info
  | Warning
  | Error
  | Critical
deriving DecidableEq

def LogLevelSpec.parse : LogLevelSpec → LogLevel
  | .Trace => .Trace
  | .Debug => .Debug
  | .Info => .Info
  | .Warning => .Warning
  | .Error => .Error
  | .Critical => .Critical

inductive LogTargetSpec
  | File (path : Utf8Path)
  | Syslog

def LogTargetSpec.parse : LogTargetSpec → LogTarget
  | .File path => .File path
  | .Syslog => .Syslog

inductive UserIdSpec
  | Numeric (id : UInt32)
  | Named (name : String)
deriving DecidableEq

def UserIdSpec.parse : UserIdSpec → UserId
  | .Numeric id => .Numeric id
  | .Named id => .Named id

inductive GroupIdSpec
  | Numeric (id : UInt32)
  | Named (name : String)
deriving DecidableEq

def GroupIdSpec.parse : GroupIdSpec → GroupId
  | .Numeric id => .Numeric id
  | .Named id => .Named id

structure IdentitySpec where
  user : UserIdSpec
  group : GroupIdSpec
deriving DecidableEq

def IdentitySpec.parse (spec : IdentitySpec) : UserId × GroupId :=
  (spec.user.parse, spec.group.parse)

structure DaemonSpec where
  logLevel : Option LogLevelSpec := none
  logTarget : Option LogTargetSpec := none
  daemonize : Option Bool := none
  pidFile : Option Utf8Path := none
  chroot : Option Utf8Path := none
  identity : Option IdentitySpec := none

def DaemonSpec.parseInto (spec : DaemonSpec) (config : DaemonConfig) : DaemonConfig :=
  { config with
    logging := { config.logging with
      level := { config.logging.level with file := spec.logLevel.map LogLevelSpec.parse }
      target := { config.logging.target with file := spec.logTarget.map LogTargetSpec.parse } }
    daemonize := { config.daemonize with file := spec.daemonize }
    pidFile := spec.pidFile
    chroot := spec.chroot
    identity := spec.identity.map IdentitySpec.parse }

inductive SimpleSocketSpec
  | UDP (addr : SocketAddr)
  | TCP (addr : SocketAddr)
  | TCPUDP (addr : SocketAddr)
deriving DecidableEq

def SimpleSocketSpec.parse : SimpleSocketSpec → SocketConfig
  | .UDP addr => .UDP addr
  | .TCP addr => .TCP addr
  | .TCPUDP addr => .TCPUDP addr

inductive ComplexSocketSpec
  | UDP (addr : SocketAddr)
  | TCP (addr : SocketAddr)
  | TCPUDP (addr : SocketAddr)
deriving DecidableEq

def ComplexSocketSpec.parse : ComplexSocketSpec → SocketConfig
  | .UDP addr => .UDP addr
  | .TCP addr => .TCP addr
  | .TCPUDP addr => .TCPUDP addr

inductive SocketSpec
  | Simple (spec : SimpleSocketSpec)
  | Complex (spec : ComplexSocketSpec)
deriving DecidableEq

def SocketSpec.parse : SocketSpec → SocketConfig
  | .Simple spec => spec.parse
  | .Complex spec => spec.parse

structure ReviewSpec where
  servers : List SocketSpec := []
deriving DecidableEq

def ReviewSpec.parseInto (spec : ReviewSpec) (_ : ReviewConfig) : ReviewConfig :=
  { servers := spec.servers.map SocketSpec.parse }

structure LoaderSpec where
  notifListeners : List SocketSpec := []
  review : ReviewSpec := {}
deriving DecidableEq

def LoaderSpec.parseInto (spec : LoaderSpec) (config : LoaderConfig) : LoaderConfig :=
  { notifListeners := spec.notifListeners.map SocketSpec.parse
    review := spec.review.parseInto config.review }

structure SignerSpec where
  review : ReviewSpec := {}
deriving DecidableEq

def SignerSpec.parseInto (spec : SignerSpec) (config : SignerConfig) : SignerConfig :=
  { review := spec.review.parseInto config.review }

structure KeyManagerSpec where
deriving DecidableEq

def KeyManagerSpec.parseInto (_ : KeyManagerSpec) (config : KeyManagerConfig) : KeyManagerConfig :=
  config

structure ServerSpec where
  servers : List SocketSpec := []
deriving DecidableEq

def ServerSpec.parseInto (spec : ServerSpec) (_ : ServerConfig) : ServerConfig :=
  { servers := spec.servers.map SocketSpec.parse }

structure Spec where
  policyDir : Utf8Path := Utf8Path.ofString "/etc/cascade/policies"
  zoneStateDir : Utf8Path := Utf8Path.ofString "/var/db/cascade/zone-state"
  tsigStorePath : Utf8Path := Utf8Path.ofString "/var/db/cascade/tsig-keys.db"
  daemon : DaemonSpec := {}
  loader : LoaderSpec := {}
  signer : SignerSpec := {}
  keyManager : KeyManagerSpec := {}
  server : ServerSpec := {}

def Spec.parseInto (spec : Spec) (config : Config) : Config :=
  { policyDir := spec.policyDir
    zoneStateDir := spec.zoneStateDir
    tsigStorePath := spec.tsigStorePath
    daemon := spec.daemon.parseInto config.daemon
    loader := spec.loader.parseInto config.loader
    signer := spec.signer.parseInto config.signer
    keyManager := spec.keyManager.parseInto config.keyManager
    server := spec.server.parseInto config.server }

/-- `config::reload`; `file` is missing when the file cannot be loaded. -/
def reload (c : Center) (file : Option Spec) : Except Unit Unit × Center :=
  match file with
  | none => (.error (), c)
  | some spec =>
    let c := { c with state := { c.state with config := spec.parseInto c.state.config } }
    (.ok (), c.send (.Changed .ConfigChanged))

/-! ## A file that changes nothing -/

/-- Every setting that the file holds is the one already in force. -/
structure Spec.InForce (spec : Spec) (config : Config) : Prop where
  policyDir : spec.policyDir = config.policyDir
  zoneStateDir : spec.zoneStateDir = config.zoneStateDir
  tsigStorePath : spec.tsigStorePath = config.tsigStorePath
  logLevel : spec.daemon.logLevel.map LogLevelSpec.parse = config.daemon.logging.level.file
  logTarget : spec.daemon.logTarget.map LogTargetSpec.parse = config.daemon.logging.target.file
  daemonize : spec.daemon.daemonize = config.daemon.daemonize.file
  pidFile : spec.daemon.pidFile = config.daemon.pidFile
  chroot : spec.daemon.chroot = config.daemon.chroot
  identity : spec.daemon.identity.map IdentitySpec.parse = config.daemon.identity
  notifListeners : spec.loader.notifListeners.map SocketSpec.parse = config.loader.notifListeners
  loaderReview : spec.loader.review.servers.map SocketSpec.parse = config.loader.review.servers
  signerReview : spec.signer.review.servers.map SocketSpec.parse = config.signer.review.servers
  servers : spec.server.servers.map SocketSpec.parse = config.server.servers

-- Loading such a file leaves the configuration as it is.
theorem Spec.InForce.parseInto_eq {spec : Spec} {config : Config} (h : spec.InForce config) :
    spec.parseInto config = config := by
  simp only [Spec.parseInto, DaemonSpec.parseInto, LoaderSpec.parseInto, SignerSpec.parseInto,
    KeyManagerSpec.parseInto, ServerSpec.parseInto, ReviewSpec.parseInto, h.policyDir,
    h.zoneStateDir, h.tsigStorePath, h.logLevel, h.logTarget, h.daemonize, h.pidFile, h.chroot,
    h.identity, h.notifListeners, h.loaderReview, h.signerReview, h.servers]

-- The state file records every setting that the configuration file holds.
theorem Spec.inForce_of_build_eq {spec : Spec} {config : Config}
    (h : StateFile.ConfigSpec.build (spec.parseInto config) = StateFile.ConfigSpec.build config) :
    spec.InForce config := by
  have hlogging := congrArg (fun s ↦ s.daemon.logging) h
  have hidentity := congrArg (fun s ↦ s.daemon.identity.map (fun x ↦ (x.1.parse, x.2.parse))) h
  have hloader := congrArg (fun s ↦ s.loader.parse) h
  have hsigner := congrArg (fun s ↦ s.signer.parse) h
  have hserver := congrArg (fun s ↦ s.server.parse) h
  simp only [StateFile.ConfigSpec.build, StateFile.LoaderConfigSpec.parse_build,
    StateFile.SignerConfigSpec.parse_build, StateFile.ServerConfigSpec.parse_build]
    at hloader hsigner hserver
  exact {
    policyDir := congrArg (fun s ↦ s.policyDir) h
    zoneStateDir := congrArg (fun s ↦ s.zoneStateDir) h
    tsigStorePath := congrArg (fun s ↦ s.tsigStorePath) h
    logLevel := by
      have hlevel := congrArg (fun s ↦ s.level.map StateFile.LogLevelSpec.parse) hlogging
      simpa [StateFile.ConfigSpec.build, StateFile.DaemonConfigSpec.build,
        StateFile.LoggingConfigSpec.build, Function.comp_def, Spec.parseInto,
        DaemonSpec.parseInto] using hlevel
    logTarget := by
      have htarget := congrArg (fun s ↦ s.target.map StateFile.LogTargetSpec.parse) hlogging
      simpa [StateFile.ConfigSpec.build, StateFile.DaemonConfigSpec.build,
        StateFile.LoggingConfigSpec.build, Function.comp_def, Spec.parseInto,
        DaemonSpec.parseInto] using htarget
    daemonize := congrArg (fun s ↦ s.daemon.daemonize) h
    pidFile := congrArg (fun s ↦ s.daemon.pidFile) h
    chroot := congrArg (fun s ↦ s.daemon.chroot) h
    identity := by
      simpa [StateFile.ConfigSpec.build, StateFile.DaemonConfigSpec.build, Function.comp_def,
        Spec.parseInto, DaemonSpec.parseInto] using hidentity
    notifListeners := congrArg (fun c ↦ c.notifListeners) hloader
    loaderReview := congrArg (fun c ↦ c.review.servers) hloader
    signerReview := congrArg (fun c ↦ c.review.servers) hsigner
    servers := congrArg (fun c ↦ c.servers) hserver }

end ConfigFile

end Cascade
