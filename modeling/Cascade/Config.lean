import Mathlib.Data.Finset.Basic
import Cascade.Base

/-!
# Configuration

The configuration of the daemon, and the part of it that the state file stores.  A setting keeps
one value for each of its sources; the state file stores the one from the configuration file only.
-/

namespace Cascade

/-- A path.  Paths are compared by their components: a repeated separator, a trailing one and a
`.` that is not at the front make no difference. -/
structure Utf8Path where
  chars : List Char

namespace Utf8Path

def ofString (s : String) : Utf8Path := ⟨s.toList⟩

def components (p : Utf8Path) : Bool × List (List Char) :=
  let parts := p.chars.splitOn '/'
  let inner := parts.tail.filter (fun c ↦ c != [] && c != ['.'])
  (p.chars.head? == some '/', if parts.headD [] == [] then inner else parts.headD [] :: inner)

instance : BEq Utf8Path := ⟨fun a b ↦ a.components == b.components⟩

example : (ofString "/var//db/./x/" == ofString "/var/db/x") = true := by decide

end Utf8Path

/-- A configured setting, from the least to the most specific source. -/
structure Setting (T : Type) where
  default : T
  file : Option T
  env : Option T
  args : Option T

namespace Setting

variable {T : Type}

def new (default : T) : Setting T := { default, file := none, env := none, args := none }

def value (s : Setting T) : T := ((s.args.or s.env).or s.file).getD s.default

/-- Settings are compared by their current values. -/
instance [BEq T] : BEq (Setting T) := ⟨fun a b ↦ a.value == b.value⟩

end Setting

inductive UserId
  | Numeric (id : UInt32)
  | Named (name : String)
deriving DecidableEq

inductive GroupId
  | Numeric (id : UInt32)
  | Named (name : String)
deriving DecidableEq

inductive SocketConfig
  | UDP (addr : SocketAddr)
  | TCP (addr : SocketAddr)
  | TCPUDP (addr : SocketAddr)
deriving DecidableEq

inductive LogLevel
  | Trace
  | Debug
  | Info
  | Warning
  | Error
  | Critical
deriving DecidableEq

inductive LogTarget
  | File (path : Utf8Path)
  | Syslog

instance : BEq LogTarget where
  beq
    | .File a, .File b => a == b
    | .Syslog, .Syslog => true
    | _, _ => false

structure ReviewConfig where
  servers : List SocketConfig := []
deriving DecidableEq

structure LoaderConfig where
  notifListeners : List SocketConfig := []
  review : ReviewConfig := {}
deriving DecidableEq

structure SignerConfig where
  review : ReviewConfig := {}
deriving DecidableEq

structure KeyManagerConfig where
deriving DecidableEq

structure ServerConfig where
  servers : List SocketConfig := []
deriving DecidableEq

structure LoggingConfig where
  level : Setting LogLevel
  target : Setting LogTarget
  traceTargets : Setting (Finset String)

def LoggingConfig.default : LoggingConfig :=
  { level := Setting.new .Info
    target := Setting.new (.File (Utf8Path.ofString "/dev/stdout"))
    traceTargets := Setting.new ∅ }

structure DaemonConfig where
  stateFile : Setting Utf8Path
  logging : LoggingConfig
  configFile : Setting Utf8Path
  daemonize : Setting Bool
  pidFile : Option Utf8Path
  chroot : Option Utf8Path
  identity : Option (UserId × GroupId)

def DaemonConfig.default : DaemonConfig :=
  { stateFile := Setting.new (Utf8Path.ofString "/var/db/cascade/state.db")
    logging := LoggingConfig.default
    configFile := Setting.new (Utf8Path.ofString "/etc/cascade/config.toml")
    daemonize := Setting.new false
    pidFile := none
    chroot := none
    identity := none }

structure Config where
  policyDir : Utf8Path
  zoneStateDir : Utf8Path
  tsigStorePath : Utf8Path
  daemon : DaemonConfig
  loader : LoaderConfig
  signer : SignerConfig
  keyManager : KeyManagerConfig
  server : ServerConfig

def Config.default : Config :=
  { policyDir := Utf8Path.ofString "/etc/cascade/policies"
    zoneStateDir := Utf8Path.ofString "/var/db/cascade/zone-state.db"
    tsigStorePath := Utf8Path.ofString "/var/db/cascade/tsig-keys.db"
    daemon := DaemonConfig.default
    loader := {}
    signer := {}
    keyManager := {}
    server := {} }

/-! ## The configuration in the state file -/

/-- `util::update_value`: the new value of `dst`, and of the flag for a change. -/
def updateValue {T : Type} [BEq T] (dst value : T) (changed : Bool) : T × Bool :=
  if dst != value then (value, true) else (dst, changed)

namespace StateFile

inductive UserIdSpec
  | Numeric (id : UInt32)
  | Named (name : String)
deriving DecidableEq

def UserIdSpec.parse : UserIdSpec → UserId
  | .Numeric v => .Numeric v
  | .Named v => .Named v

def UserIdSpec.build : UserId → UserIdSpec
  | .Numeric v => .Numeric v
  | .Named v => .Named v

@[simp] theorem UserIdSpec.parse_build (value : UserId) :
    (UserIdSpec.build value).parse = value := by
  cases value <;> rfl

inductive GroupIdSpec
  | Numeric (id : UInt32)
  | Named (name : String)
deriving DecidableEq

def GroupIdSpec.parse : GroupIdSpec → GroupId
  | .Numeric v => .Numeric v
  | .Named v => .Named v

def GroupIdSpec.build : GroupId → GroupIdSpec
  | .Numeric v => .Numeric v
  | .Named v => .Named v

@[simp] theorem GroupIdSpec.parse_build (value : GroupId) :
    (GroupIdSpec.build value).parse = value := by
  cases value <;> rfl

inductive SocketConfigSpec
  | Udp (addr : SocketAddr)
  | Tcp (addr : SocketAddr)
  | TcpUdp (addr : SocketAddr)
deriving DecidableEq

def SocketConfigSpec.parse : SocketConfigSpec → SocketConfig
  | .Udp addr => .UDP addr
  | .Tcp addr => .TCP addr
  | .TcpUdp addr => .TCPUDP addr

def SocketConfigSpec.build : SocketConfig → SocketConfigSpec
  | .UDP addr => .Udp addr
  | .TCP addr => .Tcp addr
  | .TCPUDP addr => .TcpUdp addr

@[simp] theorem SocketConfigSpec.parse_build (value : SocketConfig) :
    (SocketConfigSpec.build value).parse = value := by
  cases value <;> rfl

inductive LogLevelSpec
  | Trace
  | Debug
  | Info
  | Warning
  | Error
  | Critical
deriving DecidableEq

def LogLevelSpec.parse : LogLevelSpec → LogLevel
  | .Trace => .Trace
  | .Debug => .Debug
  | .Info => .Info
  | .Warning => .Warning
  | .Error => .Error
  | .Critical => .Critical

def LogLevelSpec.build : LogLevel → LogLevelSpec
  | .Trace => .Trace
  | .Debug => .Debug
  | .Info => .Info
  | .Warning => .Warning
  | .Error => .Error
  | .Critical => .Critical

@[simp] theorem LogLevelSpec.parse_build (value : LogLevel) :
    (LogLevelSpec.build value).parse = value := by
  cases value <;> rfl

inductive LogTargetSpec
  | File (path : Utf8Path)
  | Syslog

def LogTargetSpec.parse : LogTargetSpec → LogTarget
  | .File path => .File path
  | .Syslog => .Syslog

def LogTargetSpec.build : LogTarget → LogTargetSpec
  | .File path => .File path
  | .Syslog => .Syslog

@[simp] theorem LogTargetSpec.parse_build (value : LogTarget) :
    (LogTargetSpec.build value).parse = value := by
  cases value <;> rfl

structure ReviewConfigSpec where
  servers : List SocketConfigSpec
deriving DecidableEq

def ReviewConfigSpec.parse (spec : ReviewConfigSpec) : ReviewConfig :=
  { servers := spec.servers.map SocketConfigSpec.parse }

def ReviewConfigSpec.build (config : ReviewConfig) : ReviewConfigSpec :=
  { servers := config.servers.map SocketConfigSpec.build }

@[simp] theorem ReviewConfigSpec.parse_build (config : ReviewConfig) :
    (ReviewConfigSpec.build config).parse = config := by
  simp [ReviewConfigSpec.build, ReviewConfigSpec.parse, Function.comp_def]

structure LoaderConfigSpec where
  notifListeners : List SocketConfigSpec
  review : ReviewConfigSpec
deriving DecidableEq

def LoaderConfigSpec.parse (spec : LoaderConfigSpec) : LoaderConfig :=
  { notifListeners := spec.notifListeners.map SocketConfigSpec.parse
    review := spec.review.parse }

def LoaderConfigSpec.build (config : LoaderConfig) : LoaderConfigSpec :=
  { notifListeners := config.notifListeners.map SocketConfigSpec.build
    review := ReviewConfigSpec.build config.review }

@[simp] theorem LoaderConfigSpec.parse_build (config : LoaderConfig) :
    (LoaderConfigSpec.build config).parse = config := by
  simp [LoaderConfigSpec.build, LoaderConfigSpec.parse, Function.comp_def]

structure SignerConfigSpec where
  review : ReviewConfigSpec
deriving DecidableEq

def SignerConfigSpec.parse (spec : SignerConfigSpec) : SignerConfig :=
  { review := spec.review.parse }

def SignerConfigSpec.build (config : SignerConfig) : SignerConfigSpec :=
  { review := ReviewConfigSpec.build config.review }

@[simp] theorem SignerConfigSpec.parse_build (config : SignerConfig) :
    (SignerConfigSpec.build config).parse = config := by
  simp [SignerConfigSpec.build, SignerConfigSpec.parse]

structure KeyManagerConfigSpec where
deriving DecidableEq

def KeyManagerConfigSpec.parse (_ : KeyManagerConfigSpec) : KeyManagerConfig := {}

def KeyManagerConfigSpec.build (_ : KeyManagerConfig) : KeyManagerConfigSpec := {}

structure ServerConfigSpec where
  servers : List SocketConfigSpec
deriving DecidableEq

def ServerConfigSpec.parse (spec : ServerConfigSpec) : ServerConfig :=
  { servers := spec.servers.map SocketConfigSpec.parse }

def ServerConfigSpec.build (config : ServerConfig) : ServerConfigSpec :=
  { servers := config.servers.map SocketConfigSpec.build }

@[simp] theorem ServerConfigSpec.parse_build (config : ServerConfig) :
    (ServerConfigSpec.build config).parse = config := by
  simp [ServerConfigSpec.build, ServerConfigSpec.parse, Function.comp_def]

structure LoggingConfigSpec where
  level : Option LogLevelSpec
  target : Option LogTargetSpec
  traceTargets : Option (Finset String)

def LoggingConfigSpec.parseInto (spec : LoggingConfigSpec) (config : LoggingConfig)
    (changed : Bool) : LoggingConfig × Bool :=
  let (level, changed) := updateValue config.level.file (spec.level.map (·.parse)) changed
  let (target, changed) := updateValue config.target.file (spec.target.map (·.parse)) changed
  let (traceTargets, changed) := updateValue config.traceTargets.file spec.traceTargets changed
  ({ level := { config.level with file := level }
     target := { config.target with file := target }
     traceTargets := { config.traceTargets with file := traceTargets } }, changed)

def LoggingConfigSpec.build (config : LoggingConfig) : LoggingConfigSpec :=
  { level := config.level.file.map LogLevelSpec.build
    target := config.target.file.map LogTargetSpec.build
    traceTargets := config.traceTargets.file }

structure DaemonConfigSpec where
  logging : LoggingConfigSpec
  configFile : Option Utf8Path
  daemonize : Option Bool
  pidFile : Option Utf8Path
  chroot : Option Utf8Path
  identity : Option (UserIdSpec × GroupIdSpec)

def DaemonConfigSpec.parseInto (spec : DaemonConfigSpec) (config : DaemonConfig)
    (changed : Bool) : DaemonConfig × Bool :=
  let (logging, changed) := spec.logging.parseInto config.logging changed
  let (configFile, changed) := updateValue config.configFile.file spec.configFile changed
  let (daemonize, changed) := updateValue config.daemonize.file spec.daemonize changed
  let (pidFile, changed) := updateValue config.pidFile spec.pidFile changed
  let (chroot, changed) := updateValue config.chroot spec.chroot changed
  let (identity, changed) := updateValue config.identity
    (spec.identity.map (fun (u, g) ↦ (u.parse, g.parse))) changed
  ({ stateFile := config.stateFile
     logging
     configFile := { config.configFile with file := configFile }
     daemonize := { config.daemonize with file := daemonize }
     pidFile, chroot, identity }, changed)

def DaemonConfigSpec.build (config : DaemonConfig) : DaemonConfigSpec :=
  { logging := LoggingConfigSpec.build config.logging
    configFile := config.configFile.file
    daemonize := config.daemonize.file
    pidFile := config.pidFile
    chroot := config.chroot
    identity := config.identity.map (fun (u, g) ↦ (UserIdSpec.build u, GroupIdSpec.build g)) }

structure ConfigSpec where
  policyDir : Utf8Path
  zoneStateDir : Utf8Path
  tsigStorePath : Utf8Path
  daemon : DaemonConfigSpec
  loader : LoaderConfigSpec
  signer : SignerConfigSpec
  keyManager : KeyManagerConfigSpec
  server : ServerConfigSpec

def ConfigSpec.parseInto (spec : ConfigSpec) (config : Config) (changed : Bool) :
    Config × Bool :=
  let (policyDir, changed) := updateValue config.policyDir spec.policyDir changed
  let (zoneStateDir, changed) := updateValue config.zoneStateDir spec.zoneStateDir changed
  let (tsigStorePath, changed) := updateValue config.tsigStorePath spec.tsigStorePath changed
  let (daemon, changed) := spec.daemon.parseInto config.daemon changed
  let (loader, changed) := updateValue config.loader spec.loader.parse changed
  let (signer, changed) := updateValue config.signer spec.signer.parse changed
  let (keyManager, changed) := updateValue config.keyManager spec.keyManager.parse changed
  let (server, changed) := updateValue config.server spec.server.parse changed
  ({ policyDir, zoneStateDir, tsigStorePath, daemon, loader, signer, keyManager, server }, changed)

def ConfigSpec.build (config : Config) : ConfigSpec :=
  { policyDir := config.policyDir
    zoneStateDir := config.zoneStateDir
    tsigStorePath := config.tsigStorePath
    daemon := DaemonConfigSpec.build config.daemon
    loader := LoaderConfigSpec.build config.loader
    signer := SignerConfigSpec.build config.signer
    keyManager := KeyManagerConfigSpec.build config.keyManager
    server := ServerConfigSpec.build config.server }

end StateFile

end Cascade
