import Cascade.SavedState
import Cascade.WriteFile

/-!
# The sources of the configuration

A daemon is configured by its environment, its command line and the configuration file.  That file
is read at the first start and when the configuration is reloaded; later starts find what it said in
the state file.
-/

namespace Cascade

open Lib Lib.Serde

/-! ## Environment variables -/

namespace Env

/-- The environment.  The value of a variable that is set need not be text. -/
abbrev Vars := String → Option (Option String)

inductive EnvError
  | NonUtf8 (var : String)
  | InvalidLogLevel (value : String)
  | InvalidLogTarget (value : String)
deriving DecidableEq

inductive LogTargetSpec
  | File (path : Utf8Path)
  | Syslog

def LogTargetSpec.parse (s : String) : Except EnvError LogTargetSpec :=
  if s = "stdout" then .ok (.File (Utf8Path.ofString "/dev/stdout"))
  else if s = "stderr" then .ok (.File (Utf8Path.ofString "/dev/stderr"))
  else if "file:".toList.isPrefixOf s.toList then .ok (.File ⟨s.toList.drop 5⟩)
  else if s = "syslog" then .ok .Syslog
  else .error (.InvalidLogTarget s)

def LogTargetSpec.build : LogTargetSpec → LogTarget
  | .File path => .File path
  | .Syslog => .Syslog

structure EnvSpec where
  state : Option Utf8Path := none
  config : Option Utf8Path := none
  logLevel : Option LogLevel := none
  logTarget : Option LogTargetSpec := none
  logTraceTargets : Option (Finset String) := none

def var (vars : Vars) (name : String) : Except EnvError (Option String) :=
  match vars name with
  | none => .ok none
  | some none => .error (.NonUtf8 name)
  | some (some value) => .ok (some value)

def logLevel (value : String) : Except EnvError LogLevel :=
  if value = "trace" then .ok .Trace
  else if value = "debug" then .ok .Debug
  else if value = "info" then .ok .Info
  else if value = "warning" then .ok .Warning
  else if value = "error" then .ok .Error
  else if value = "critical" then .ok .Critical
  else .error (.InvalidLogLevel value)

def EnvSpec.process (vars : Vars) : Except EnvError EnvSpec := do
  let state ← var vars "CASCADE_STATE_PATH"
  let config ← var vars "CASCADE_CONFIG_PATH"
  let level ← (← var vars "CASCADE_LOG_LEVEL").mapM Env.logLevel
  let target ← (← var vars "CASCADE_LOG").mapM LogTargetSpec.parse
  let traceTargets ← var vars "CASCADE_LOG_TRACE_TARGETS"
  return { state := state.map Utf8Path.ofString
           config := config.map Utf8Path.ofString
           logLevel := level
           logTarget := target
           logTraceTargets := traceTargets.map (fun value ↦ (value.splitOn ",").toFinset) }

def EnvSpec.merge (env : EnvSpec) (config : Config) : Config :=
  { config with daemon := { config.daemon with
      stateFile := { config.daemon.stateFile with env := env.state }
      logging := {
        level := { config.daemon.logging.level with env := env.logLevel }
        target :=
          { config.daemon.logging.target with env := env.logTarget.map LogTargetSpec.build }
        traceTargets := { config.daemon.logging.traceTargets with env := env.logTraceTargets } }
      configFile := { config.daemon.configFile with env := env.config } } }

end Env

/-! ## The command line -/

namespace Args

inductive LogTargetSpec
  | File (path : Utf8Path)
  | Syslog

def LogTargetSpec.build : LogTargetSpec → LogTarget
  | .File path => .File path
  | .Syslog => .Syslog

/-- The arguments that concern the configuration, as they have been parsed. -/
structure ArgsSpec where
  state : Option Utf8Path := none
  config : Option Utf8Path := none
  logLevel : Option LogLevel := none
  logTarget : Option LogTargetSpec := none
  daemonize : Bool := false

def ArgsSpec.merge (args : ArgsSpec) (config : Config) : Config :=
  { config with daemon := { config.daemon with
      stateFile := { config.daemon.stateFile with args := args.state }
      logging := { config.daemon.logging with
        level := { config.daemon.logging.level with args := args.logLevel }
        target :=
          { config.daemon.logging.target with args := args.logTarget.map LogTargetSpec.build } }
      configFile := { config.daemon.configFile with args := args.config }
      daemonize :=
        { config.daemon.daemonize with args := if args.daemonize then some true else none } } }

end Args

open Env Args

def Config.init (vars : Vars) (args : ArgsSpec) : Except EnvError Config := do
  let env ← EnvSpec.process vars
  return env.merge (args.merge Config.default)

/-! ## Starts and stops -/

section

variable [Text SocketAddr] [Text Name]

/-- A machine with the daemon.  `configFiles` is what the configuration files hold that can be
loaded, and `stateFiles` the contents of the state files. -/
structure Host where
  configFiles : PathKey → Option ConfigFile.Spec
  stateFiles : PathKey → Option Value
  daemon : Option State

namespace Host

/-- A machine on which the daemon has never been started. -/
def Fresh (h : Host) : Prop := (∀ key, h.stateFiles key = none) ∧ h.daemon = none

inductive Action
  | editConfig (key : PathKey) (file : Option ConfigFile.Spec)
  | removeState (key : PathKey)
  | start (vars : Vars) (args : ArgsSpec) (policies : HashMap String Policy)
  | work (zones : HashMap Name ZoneState) (policies : HashMap String Policy)
  | reload
  | save
  | stop

/-- The start of `main`, up to the files of zones and keys.  `policies` are the ones that
`reload_all` loads at a first start. -/
def start (h : Host) (vars : Vars) (args : ArgsSpec) (policies : HashMap String Policy) :
    Option Host :=
  match h.daemon, Config.init vars args with
  | none, .ok config =>
    match h.stateFiles config.daemon.stateFile.value.components with
    | none =>
      match h.configFiles config.daemon.configFile.value.components with
      | none => none
      | some file =>
        some { h with daemon := some { State.new (file.parseInto config) with policies := policies } }
    | some saved =>
      match StateFile.codec.decode saved with
      | none => none
      | some spec => some { h with daemon := some (spec.parseInto (State.new config) []).1 }
  | _, _ => none

/-- `config::reload` -/
def reload (h : Host) : Option Host :=
  match h.daemon with
  | none => none
  | some state =>
    match h.configFiles state.config.daemon.configFile.value.components with
    | none => some h
    | some file =>
      some { h with daemon := some { state with config := file.parseInto state.config } }

/-- `Spec::save` of the global state, which leaves the file alone if the state cannot be written. -/
def save (h : Host) : Option Host :=
  match h.daemon with
  | none => none
  | some state =>
    match StateFile.codec.encode (StateFile.Spec.build state) with
    | none => some h
    | some saved =>
      let path := state.config.daemon.stateFile.value.components
      some { h with stateFiles := Function.update h.stateFiles path (some saved) }

/-- What else the daemon does to its state leaves the configuration as it is. -/
def work (h : Host) (zones : HashMap Name ZoneState) (policies : HashMap String Policy) :
    Option Host :=
  h.daemon.map (fun state ↦ { h with daemon := some { state with zones, policies } })

def step (h : Host) : Action → Option Host
  | .editConfig key file => some { h with configFiles := Function.update h.configFiles key file }
  | .removeState key => some { h with stateFiles := Function.update h.stateFiles key none }
  | .start vars args policies => h.start vars args policies
  | .work zones policies => h.work zones policies
  | .reload => h.reload
  | .save => h.save
  | .stop => some { h with daemon := none }

end Host

end

/-! ## Settings

The settings of a daemon, without where they come from. -/

def LogTarget.key : LogTarget → Option PathKey
  | .File path => some path.components
  | .Syslog => none

structure Settings where
  policyDir : PathKey
  zoneStateDir : PathKey
  tsigStorePath : PathKey
  stateFile : PathKey
  logLevel : LogLevel
  logTarget : Option PathKey
  traceTargets : Finset String
  configFile : PathKey
  daemonize : Bool
  pidFile : Option PathKey
  chroot : Option PathKey
  identity : Option (UserId × GroupId)
  loader : LoaderConfig
  signer : SignerConfig
  keyManager : KeyManagerConfig
  server : ServerConfig

def Config.settings (config : Config) : Settings where
  policyDir := config.policyDir.components
  zoneStateDir := config.zoneStateDir.components
  tsigStorePath := config.tsigStorePath.components
  stateFile := config.daemon.stateFile.value.components
  logLevel := config.daemon.logging.level.value
  logTarget := config.daemon.logging.target.value.key
  traceTargets := config.daemon.logging.traceTargets.value
  configFile := config.daemon.configFile.value.components
  daemonize := config.daemon.daemonize.value
  pidFile := config.daemon.pidFile.map Utf8Path.components
  chroot := config.daemon.chroot.map Utf8Path.components
  identity := config.daemon.identity
  loader := config.loader
  signer := config.signer
  keyManager := config.keyManager
  server := config.server

/-- What the most specific source says that says something. -/
def firstOf {T : Type} (sources : List (Option T)) (default : T) : T :=
  (sources.findSome? id).getD default

def statePath (env : EnvSpec) (args : ArgsSpec) : PathKey :=
  (firstOf [args.state, env.state] (Utf8Path.ofString "/var/db/cascade/state.db")).components

def configPath (env : EnvSpec) (args : ArgsSpec) : PathKey :=
  (firstOf [args.config, env.config] (Utf8Path.ofString "/etc/cascade/config.toml")).components

/-- The settings of a daemon with that environment and command line and that configuration file. -/
def Settings.layered (env : EnvSpec) (args : ArgsSpec) (file : ConfigFile.Spec) : Settings where
  policyDir := file.policyDir.components
  zoneStateDir := file.zoneStateDir.components
  tsigStorePath := file.tsigStorePath.components
  stateFile := statePath env args
  logLevel := firstOf [args.logLevel, env.logLevel,
    file.daemon.logLevel.map ConfigFile.LogLevelSpec.parse] .Info
  logTarget := (firstOf [args.logTarget.map Args.LogTargetSpec.build,
    env.logTarget.map Env.LogTargetSpec.build,
    file.daemon.logTarget.map ConfigFile.LogTargetSpec.parse]
    (.File (Utf8Path.ofString "/dev/stdout"))).key
  traceTargets := firstOf [env.logTraceTargets] ∅
  configFile := configPath env args
  daemonize := args.daemonize || file.daemon.daemonize.getD false
  pidFile := file.daemon.pidFile.map Utf8Path.components
  chroot := file.daemon.chroot.map Utf8Path.components
  identity := file.daemon.identity.map ConfigFile.IdentitySpec.parse
  loader := ⟨file.loader.notifListeners.map ConfigFile.SocketSpec.parse,
    ⟨file.loader.review.servers.map ConfigFile.SocketSpec.parse⟩⟩
  signer := ⟨⟨file.signer.review.servers.map ConfigFile.SocketSpec.parse⟩⟩
  keyManager := {}
  server := ⟨file.server.servers.map ConfigFile.SocketSpec.parse⟩

/-! ## The sources of a configuration -/

/-- What the sources other than the configuration file say. -/
def Setting.unfiled {T : Type} (s : Setting T) : Setting T := { s with file := none }

structure Given where
  stateFile : Setting Utf8Path
  logLevel : Setting LogLevel
  logTarget : Setting LogTarget
  traceTargets : Setting (Finset String)
  configFile : Setting Utf8Path
  daemonize : Setting Bool

def Config.given (config : Config) : Given where
  stateFile := config.daemon.stateFile.unfiled
  logLevel := config.daemon.logging.level.unfiled
  logTarget := config.daemon.logging.target.unfiled
  traceTargets := config.daemon.logging.traceTargets.unfiled
  configFile := config.daemon.configFile.unfiled
  daemonize := config.daemon.daemonize.unfiled

/-- What the configuration file says. -/
structure FileLayer where
  policyDir : PathKey
  zoneStateDir : PathKey
  tsigStorePath : PathKey
  stateFile : Option Utf8Path
  logLevel : Option LogLevel
  logTarget : Option (Option PathKey)
  traceTargets : Option (Finset String)
  configFile : Option PathKey
  daemonize : Option Bool
  pidFile : Option PathKey
  chroot : Option PathKey
  identity : Option (UserId × GroupId)
  loader : LoaderConfig
  signer : SignerConfig
  keyManager : KeyManagerConfig
  server : ServerConfig

def Config.fileLayer (config : Config) : FileLayer where
  policyDir := config.policyDir.components
  zoneStateDir := config.zoneStateDir.components
  tsigStorePath := config.tsigStorePath.components
  stateFile := config.daemon.stateFile.file
  logLevel := config.daemon.logging.level.file
  logTarget := config.daemon.logging.target.file.map LogTarget.key
  traceTargets := config.daemon.logging.traceTargets.file
  configFile := config.daemon.configFile.file.map Utf8Path.components
  daemonize := config.daemon.daemonize.file
  pidFile := config.daemon.pidFile.map Utf8Path.components
  chroot := config.daemon.chroot.map Utf8Path.components
  identity := config.daemon.identity
  loader := config.loader
  signer := config.signer
  keyManager := config.keyManager
  server := config.server

def ConfigFile.Spec.layer (spec : ConfigFile.Spec) : FileLayer :=
  (spec.parseInto Config.default).fileLayer

-- Neither file touches the other sources.
theorem given_parseInto (spec : ConfigFile.Spec) (config : Config) :
    (spec.parseInto config).given = config.given := rfl

theorem given_restore (spec : StateFile.ConfigSpec) (config : Config) (changed : Bool) :
    (spec.parseInto config changed).1.given = config.given := rfl

/-- The settings that a configuration file does not have. -/
def Config.Unfiled (config : Config) : Prop :=
  config.daemon.stateFile.file = none ∧ config.daemon.logging.traceTargets.file = none ∧
    config.daemon.configFile.file = none

theorem fileLayer_parseInto (spec : ConfigFile.Spec) {config : Config} (h : config.Unfiled) :
    (spec.parseInto config).fileLayer = spec.layer := by
  obtain ⟨hstate, htrace, hconfig⟩ := h
  simp only [ConfigFile.Spec.layer, Config.fileLayer, ConfigFile.Spec.parseInto,
    ConfigFile.DaemonSpec.parseInto, hstate, htrace, hconfig]
  rfl

theorem unfiled_of_fileLayer {spec : ConfigFile.Spec} {config : Config}
    (h : config.fileLayer = spec.layer) : config.Unfiled := by
  have hstate : config.daemon.stateFile.file = none := congrArg FileLayer.stateFile h
  have htrace : config.daemon.logging.traceTargets.file = none := congrArg FileLayer.traceTargets h
  have hconfig : config.daemon.configFile.file.map Utf8Path.components = none :=
    congrArg FileLayer.configFile h
  exact ⟨hstate, htrace, Option.map_eq_none_iff.mp hconfig⟩

theorem Utf8Path.components_of_beq {a b : Utf8Path} (h : (a == b) = true) :
    a.components = b.components := eq_of_beq h

theorem LogTarget.key_of_beq {a b : LogTarget} (h : (a == b) = true) : a.key = b.key := by
  cases a with
  | File a =>
    cases b with
    | File b => exact congrArg some (Utf8Path.components_of_beq h)
    | Syslog => cases h
  | Syslog =>
    cases b with
    | File b => cases h
    | Syslog => rfl

theorem map_of_beq {T K : Type} [BEq T] {f : T → K} (hf : ∀ a b, (a == b) = true → f a = f b)
    {a b : Option T} (h : (a == b) = true) : a.map f = b.map f := by
  cases a with
  | none =>
    cases b with
    | none => rfl
    | some b => cases h
  | some a =>
    cases b with
    | none => cases h
    | some b => exact congrArg some (hf a b h)

-- A restart finds the layer of the configuration file again.
theorem fileLayer_restore {config fresh : Config} (changed : Bool)
    (h : fresh.daemon.stateFile.file = config.daemon.stateFile.file) :
    ((StateFile.ConfigSpec.build config).parseInto fresh changed).1.fileLayer =
      config.fileLayer := by
  have hkept := (StateFile.configKept_iff config fresh changed).mpr h
  have hpath : ∀ a b : Utf8Path, (a == b) = true → a.components = b.components :=
    fun _ _ ↦ Utf8Path.components_of_beq
  have htarget : ∀ a b : LogTarget, (a == b) = true → a.key = b.key :=
    fun _ _ ↦ LogTarget.key_of_beq
  simp only [Config.fileLayer, FileLayer.mk.injEq]
  exact ⟨hpath _ _ hkept.policyDir, hpath _ _ hkept.zoneStateDir, hpath _ _ hkept.tsigStorePath,
    hkept.stateFile, hkept.logLevel, map_of_beq htarget hkept.logTarget, hkept.traceTargets,
    map_of_beq hpath hkept.configFile, hkept.daemonize, map_of_beq hpath hkept.pidFile,
    map_of_beq hpath hkept.chroot, hkept.identity, hkept.loader, hkept.signer, trivial,
    hkept.server⟩

/-! ## The settings in force -/

/-- A configuration with that environment and command line. -/
def Config.merged (env : EnvSpec) (args : ArgsSpec) : Config := env.merge (args.merge Config.default)

theorem merged_unfiled (env : EnvSpec) (args : ArgsSpec) : (Config.merged env args).Unfiled :=
  ⟨rfl, rfl, rfl⟩

theorem map_firstOf {T K : Type} (f : T → K) (sources : List (Option T)) (default : T) :
    f (firstOf sources default) = firstOf (sources.map (Option.map f)) (f default) := by
  induction sources with
  | nil => rfl
  | cons source sources ih =>
    cases source with
    | some value => rfl
    | none => exact ih

theorem firstOf_none {T : Type} (a b : Option T) (default : T) :
    firstOf [a, b, none] default = firstOf [a, b] default := by
  cases a with
  | some value => rfl
  | none =>
    cases b with
    | some value => rfl
    | none => rfl

-- The file counts if neither the command line nor the environment says anything.
theorem value_of_unfiled {T : Type} {s given : Setting T} (h : s.unfiled = given.unfiled) :
    s.value = firstOf [given.args, given.env, s.file] given.default := by
  have hargs : s.unfiled.args = given.unfiled.args := congrArg Setting.args h
  have henv : s.unfiled.env = given.unfiled.env := congrArg Setting.env h
  have hdefault : s.unfiled.default = given.unfiled.default := congrArg Setting.default h
  simp only [Setting.unfiled] at hargs henv hdefault
  rw [Setting.value, hargs, henv, hdefault]
  cases given.args with
  | some value => rfl
  | none =>
    cases given.env with
    | some value => rfl
    | none =>
      cases s.file with
      | some value => rfl
      | none => rfl

-- The files have no say in where they are.
theorem paths_of_given {env : EnvSpec} {args : ArgsSpec} {config : Config}
    (hgiven : config.given = (Config.merged env args).given) (hunfiled : config.Unfiled) :
    config.daemon.stateFile.value.components = statePath env args ∧
      config.daemon.configFile.value.components = configPath env args := by
  simp only [Config.given, Given.mk.injEq] at hgiven
  obtain ⟨gstate, _, _, _, gfile, _⟩ := hgiven
  obtain ⟨hstate, _, hfile⟩ := hunfiled
  constructor
  · rw [value_of_unfiled gstate, hstate]
    exact congrArg Utf8Path.components (firstOf_none _ _ _)
  · rw [value_of_unfiled gfile, hfile]
    exact congrArg Utf8Path.components (firstOf_none _ _ _)

/-- The layers of a configuration make up its settings. -/
theorem settings_of_layers {env : EnvSpec} {args : ArgsSpec} {file : ConfigFile.Spec}
    {config : Config} (hgiven : config.given = (Config.merged env args).given)
    (hlayer : config.fileLayer = file.layer) : config.settings = Settings.layered env args file := by
  have hunfiled := unfiled_of_fileLayer hlayer
  obtain ⟨vstate, vfile⟩ := paths_of_given hgiven hunfiled
  simp only [Config.given, Given.mk.injEq] at hgiven
  simp only [Config.fileLayer, ConfigFile.Spec.layer, FileLayer.mk.injEq] at hlayer
  obtain ⟨_, glevel, gtarget, gtrace, _, gdaemonize⟩ := hgiven
  obtain ⟨lpolicy, lzone, ltsig, _, llevel, ltarget, _, _, ldaemonize, lpid, lchroot, lidentity,
    lloader, lsigner, lkey, lserver⟩ := hlayer
  have vlevel : config.daemon.logging.level.value = firstOf [args.logLevel, env.logLevel,
      file.daemon.logLevel.map ConfigFile.LogLevelSpec.parse] .Info := by
    rw [value_of_unfiled glevel, llevel]
    rfl
  have vtarget : config.daemon.logging.target.value.key = (firstOf
      [args.logTarget.map Args.LogTargetSpec.build, env.logTarget.map Env.LogTargetSpec.build,
        file.daemon.logTarget.map ConfigFile.LogTargetSpec.parse]
      (.File (Utf8Path.ofString "/dev/stdout"))).key := by
    rw [value_of_unfiled gtarget, map_firstOf LogTarget.key, map_firstOf LogTarget.key]
    simp only [List.map_cons, List.map_nil, ltarget]
    rfl
  have vtrace : config.daemon.logging.traceTargets.value = firstOf [env.logTraceTargets] ∅ := by
    rw [value_of_unfiled gtrace, hunfiled.2.1]
    exact firstOf_none none env.logTraceTargets ∅
  have vdaemonize : config.daemon.daemonize.value =
      (args.daemonize || file.daemon.daemonize.getD false) := by
    rw [value_of_unfiled gdaemonize, ldaemonize]
    show firstOf [if args.daemonize then some true else none, none, file.daemon.daemonize] false = _
    cases args.daemonize with
    | true => rfl
    | false =>
      cases file.daemon.daemonize with
      | none => rfl
      | some value => rfl
  simp only [Config.settings, Settings.layered, Settings.mk.injEq, vstate, vlevel, vtarget, vtrace,
    vfile, vdaemonize, true_and]
  exact ⟨lpolicy, lzone, ltsig, lpid, lchroot, lidentity, lloader, lsigner, lserver⟩

/-! ## A daemon that remembers its configuration file

What the daemon is to do with its sources: it goes by its environment, its command line and one
configuration file, and a saved state remembers that file. -/

structure Sources where
  env : EnvSpec
  args : ArgsSpec
  file : ConfigFile.Spec

def Sources.settings (sources : Sources) : Settings :=
  Settings.layered sources.env sources.args sources.file

structure Memory where
  configFiles : PathKey → Option ConfigFile.Spec
  saved : PathKey → Option ConfigFile.Spec
  daemon : Option Sources

namespace Memory

/-- Nothing has been saved, and no daemon runs. -/
def new (configFiles : PathKey → Option ConfigFile.Spec) : Memory := ⟨configFiles, fun _ ↦ none, none⟩

/-- A daemon that starts remembers what was saved, or reads its file. -/
def start (m : Memory) (env : EnvSpec) (args : ArgsSpec) : Option Memory :=
  ((m.saved (statePath env args)).or (m.configFiles (configPath env args))).map
    (fun file ↦ { m with daemon := some ⟨env, args, file⟩ })

/-- A file that is not there changes nothing. -/
def reload (m : Memory) (sources : Sources) : Memory :=
  { m with daemon := some { sources with
      file := (m.configFiles (configPath sources.env sources.args)).getD sources.file } }

/-- A user to run as is not remembered, and nothing else is then. -/
def save (m : Memory) (sources : Sources) : Memory :=
  if sources.file.daemon.identity.isSome then m
  else
    { m with
      saved := Function.update m.saved (statePath sources.env sources.args) (some sources.file) }

/-- What the daemon is to make of the same actions. -/
def step (m : Memory) : Host.Action → Option Memory
  | .editConfig key file => some { m with configFiles := Function.update m.configFiles key file }
  | .removeState key => some { m with saved := Function.update m.saved key none }
  | .start vars args _ =>
    match m.daemon, EnvSpec.process vars with
    | none, .ok env => m.start env args
    | _, _ => none
  | .work _ _ => some m
  | .reload => m.daemon.map m.reload
  | .save => m.daemon.map m.save
  | .stop => some { m with daemon := none }

end Memory

theorem init_eq {vars : Vars} {args : ArgsSpec} {config : Config}
    (h : Config.init vars args = .ok config) :
    ∃ env, EnvSpec.process vars = .ok env ∧ config = Config.merged env args := by
  unfold Config.init at h
  cases hprocess : EnvSpec.process vars with
  | error error => simp [hprocess, bind, Except.bind] at h
  | ok env =>
    simp only [hprocess, bind, Except.bind, pure, Except.pure, Except.ok.injEq] at h
    exact ⟨env, rfl, h.symm⟩

inductive RunsOn : Option State → Option Sources → Prop
  | stopped : RunsOn none none
  | running {state : State} {sources : Sources} :
      state.config.given = (Config.merged sources.env sources.args).given →
        state.config.fileLayer = sources.file.layer → RunsOn (some state) (some sources)

theorem RunsOn.of_none {memory : Option Sources} (h : RunsOn none memory) : memory = none := by
  cases h
  rfl

theorem RunsOn.of_some {state : State} {memory : Option Sources} (h : RunsOn (some state) memory) :
    ∃ sources, memory = some sources ∧
      state.config.given = (Config.merged sources.env sources.args).given ∧
      state.config.fileLayer = sources.file.layer := by
  cases h with
  | running hgiven hlayer => exact ⟨_, rfl, hgiven, hlayer⟩

theorem RunsOn.settings {daemon : Option State} {memory : Option Sources}
    (h : RunsOn daemon memory) :
    daemon.map (fun state ↦ state.config.settings) = memory.map Sources.settings := by
  cases h with
  | stopped => rfl
  | running hgiven hlayer => exact congrArg some (settings_of_layers hgiven hlayer)

section

variable [Text SocketAddr] [Text Name]

/-- A state file that remembers a configuration file. -/
inductive Holds : Option Value → Option ConfigFile.Spec → Prop
  | missing : Holds none none
  | kept {state : State} {saved : Value} {file : ConfigFile.Spec} :
      StateFile.codec.encode (StateFile.Spec.build state) = some saved →
        state.config.fileLayer = file.layer → Holds (some saved) (some file)

theorem Holds.of_none {file : Option ConfigFile.Spec} (h : Holds none file) : file = none := by
  cases h
  rfl

theorem Holds.of_some {saved : Value} {file : Option ConfigFile.Spec}
    (h : Holds (some saved) file) :
    ∃ state spec, file = some spec ∧
      StateFile.codec.encode (StateFile.Spec.build state) = some saved ∧
      state.config.fileLayer = spec.layer := by
  cases h with
  | kept hsaved hlayer => exact ⟨_, _, rfl, hsaved, hlayer⟩

structure Remembers (h : Host) (m : Memory) : Prop where
  configFiles : h.configFiles = m.configFiles
  saved : ∀ key, Holds (h.stateFiles key) (m.saved key)
  daemon : RunsOn h.daemon m.daemon

-- Loading the state file into a daemon that starts finds the configuration file that it remembers.
theorem RunsOn.restored {state : State} {file : ConfigFile.Spec} {saved : Value}
    {spec : StateFile.Spec} (hsaved : StateFile.codec.encode (StateFile.Spec.build state) = some saved)
    (hlayer : state.config.fileLayer = file.layer)
    (hspec : StateFile.codec.decode saved = some spec) (env : EnvSpec) (args : ArgsSpec) :
    RunsOn (some (spec.parseInto (State.new (Config.merged env args)) []).1)
      (some ⟨env, args, file⟩) := by
  have hbuilt : spec = StateFile.Spec.build state :=
    Option.some.inj (hspec.symm.trans (StateFile.codec.decode_encode _ saved hsaved))
  rw [hbuilt]
  refine .running (given_restore _ _ _) ?_
  have hunfiled := unfiled_of_fileLayer hlayer
  exact (fileLayer_restore false ((merged_unfiled env args).1.trans hunfiled.1.symm)).trans hlayer

variable {h h' : Host} {m : Memory}

theorem Remembers.start (hm : Remembers h m) {vars : Vars} {args : ArgsSpec}
    {policies : HashMap String Policy} (hh : h.start vars args policies = some h') :
    ∃ m', m.step (.start vars args policies) = some m' ∧ Remembers h' m' := by
  unfold Host.start at hh
  split at hh
  next config hstopped hinit =>
    obtain ⟨env, hprocess, hconfig⟩ := init_eq hinit
    have hunfiled : config.Unfiled := hconfig ▸ merged_unfiled env args
    obtain ⟨hstate, hfile⟩ := @paths_of_given env args config (by rw [hconfig]) hunfiled
    have hnone : m.daemon = none := RunsOn.of_none (hstopped ▸ hm.daemon)
    have hholds := hm.saved (statePath env args)
    have hstep : m.step (.start vars args policies) = m.start env args := by
      simp only [Memory.step, hnone, hprocess]
    rw [hstate, hfile] at hh
    cases hsaved : h.stateFiles (statePath env args) with
    | none =>
      simp only [hsaved] at hh
      have hforgot := Holds.of_none (hsaved ▸ hholds)
      cases hread : h.configFiles (configPath env args) with
      | none => simp [hread] at hh
      | some file =>
        simp only [hread, Option.some.injEq] at hh
        refine ⟨{ m with daemon := some ⟨env, args, file⟩ }, ?_, ?_⟩
        · rw [hstep, Memory.start, hforgot, ← hm.configFiles, hread]
          rfl
        · rw [← hh]
          refine ⟨hm.configFiles, hm.saved, .running ?_ (fileLayer_parseInto file hunfiled)⟩
          exact (given_parseInto file config).trans (by rw [hconfig])
    | some saved =>
      simp only [hsaved] at hh
      obtain ⟨state, file, hremembers, hencode, hlayer⟩ := Holds.of_some (hsaved ▸ hholds)
      cases hdecode : StateFile.codec.decode saved with
      | none => simp [hdecode] at hh
      | some spec =>
        simp only [hdecode, Option.some.injEq] at hh
        refine ⟨{ m with daemon := some ⟨env, args, file⟩ }, ?_, ?_⟩
        · rw [hstep, Memory.start, hremembers]
          rfl
        · rw [← hh, hconfig]
          exact ⟨hm.configFiles, hm.saved, RunsOn.restored hencode hlayer hdecode env args⟩
  · cases hh

theorem Remembers.reload (hm : Remembers h m) (hh : h.reload = some h') :
    ∃ m', m.step .reload = some m' ∧ Remembers h' m' := by
  unfold Host.reload at hh
  split at hh
  · cases hh
  next state hstate =>
    obtain ⟨sources, hdaemon, hgiven, hlayer⟩ := RunsOn.of_some (hstate ▸ hm.daemon)
    have hunfiled := unfiled_of_fileLayer hlayer
    have hstep : m.step .reload = some (m.reload sources) := congrArg (Option.map _) hdaemon
    refine ⟨m.reload sources, hstep, ?_⟩
    rw [(paths_of_given hgiven hunfiled).2] at hh
    unfold Memory.reload
    rw [← hm.configFiles]
    cases hread : h.configFiles (configPath sources.env sources.args) with
    | none =>
      simp only [hread, Option.some.injEq] at hh
      rw [← hh]
      exact ⟨rfl, hm.saved, hstate ▸ .running hgiven hlayer⟩
    | some new =>
      simp only [hread, Option.some.injEq] at hh
      rw [← hh]
      exact ⟨rfl, hm.saved,
        .running ((given_parseInto new _).trans hgiven) (fileLayer_parseInto new hunfiled)⟩

theorem Remembers.save (hm : Remembers h m) (hh : h.save = some h') :
    ∃ m', m.step .save = some m' ∧ Remembers h' m' := by
  unfold Host.save at hh
  split at hh
  · cases hh
  next state hstate =>
    obtain ⟨sources, hdaemon, hgiven, hlayer⟩ := RunsOn.of_some (hstate ▸ hm.daemon)
    have hpath := (paths_of_given hgiven (unfiled_of_fileLayer hlayer)).1
    have hidentity : state.config.daemon.identity.isNone = sources.file.daemon.identity.isNone := by
      have hsame : state.config.daemon.identity =
          sources.file.daemon.identity.map ConfigFile.IdentitySpec.parse :=
        congrArg FileLayer.identity hlayer
      rw [hsame, Option.isNone_map]
    have hencoded := StateFile.isSome_encode_build state
    rw [hidentity] at hencoded
    have hstep : m.step .save = some (m.save sources) := congrArg (Option.map _) hdaemon
    refine ⟨m.save sources, hstep, ?_⟩
    unfold Memory.save
    cases hencode : StateFile.codec.encode (StateFile.Spec.build state) with
    | none =>
      simp only [hencode, Option.some.injEq] at hh
      have hsome : sources.file.daemon.identity.isSome = true := by
        rw [hencode] at hencoded
        simpa using hencoded.symm
      rw [if_pos hsome, ← hh]
      exact hm
    | some saved =>
      simp only [hencode, hpath, Option.some.injEq] at hh
      have hnone : ¬sources.file.daemon.identity.isSome = true := by
        rw [hencode] at hencoded
        simpa using hencoded.symm
      rw [if_neg hnone, ← hh]
      refine ⟨hm.configFiles, ?_, hm.daemon⟩
      intro key
      by_cases hkey : key = statePath sources.env sources.args
      · subst hkey
        simp only [Function.update_self]
        exact .kept hencode hlayer
      · simp only [Function.update_of_ne hkey]
        exact hm.saved key

theorem Remembers.step (hm : Remembers h m) {a : Host.Action} (hh : h.step a = some h') :
    ∃ m', m.step a = some m' ∧ Remembers h' m' := by
  cases a with
  | editConfig key file =>
    refine ⟨_, rfl, ?_⟩
    rw [← Option.some.inj hh, hm.configFiles]
    exact ⟨rfl, hm.saved, hm.daemon⟩
  | removeState key =>
    refine ⟨_, rfl, ?_⟩
    rw [← Option.some.inj hh]
    refine ⟨hm.configFiles, ?_, hm.daemon⟩
    intro other
    by_cases hkey : other = key
    · subst hkey
      simp only [Function.update_self]
      exact .missing
    · simp only [Function.update_of_ne hkey]
      exact hm.saved other
  | start vars args policies => exact hm.start hh
  | work zones policies =>
    obtain ⟨state, hstate, hh'⟩ := Option.map_eq_some_iff.mp hh
    obtain ⟨sources, hdaemon, hgiven, hlayer⟩ := RunsOn.of_some (hstate ▸ hm.daemon)
    refine ⟨m, rfl, ?_⟩
    rw [← hh']
    exact ⟨hm.configFiles, hm.saved, hdaemon ▸ .running hgiven hlayer⟩
  | reload => exact hm.reload hh
  | save => exact hm.save hh
  | stop =>
    refine ⟨_, rfl, ?_⟩
    rw [← Option.some.inj hh]
    exact ⟨hm.configFiles, hm.saved, .stopped⟩

theorem remembers_new (hfresh : h.Fresh) : Remembers h (Memory.new h.configFiles) := by
  refine ⟨rfl, ?_, ?_⟩
  · intro key
    rw [hfresh.1 key]
    exact .missing
  · rw [hfresh.2]
    exact .stopped

/-- However often the daemon is started, reloads its configuration, saves its state and is stopped,
with whatever environments, command lines and files: after the same actions a daemon that remembers
its configuration file has the same settings.  They are those that the command line and the
environment of the last start and one configuration file give, in this order: the file that was
loaded last since that start or at it, or else the one that was in force when the state was saved
that it found. -/
theorem configuration_remembered (hfresh : h.Fresh) {as : List Host.Action}
    (hrun : exec Host.step h as = some h') :
    ∃ memory, exec Memory.step (Memory.new h.configFiles) as = some memory ∧
      memory.configFiles = h'.configFiles ∧
      h'.daemon.map (fun state ↦ state.config.settings) = memory.daemon.map Sources.settings := by
  have hstep : ∀ h m a h', Remembers h m → Host.step h a = some h' →
      ∃ m', Memory.step m a = some m' ∧ Remembers h' m' := fun _ _ _ _ hm hh ↦ hm.step hh
  obtain ⟨memory, hmemory, hm⟩ := exec_related hstep (remembers_new hfresh) hrun
  exact ⟨memory, hmemory, hm.configFiles.symm, hm.daemon.settings⟩

end

/-! ## A configuration file that is changed later -/

namespace ChangedFile

def config : PathKey := (Utf8Path.ofString "/etc/cascade/config.toml").components

def verbose : ConfigFile.Spec := { daemon := { logLevel := some .Debug } }

def machine : Host := ⟨fun key ↦ if key = config then some verbose else none, fun _ ↦ none, none⟩

def vars : Vars := fun name ↦ if name = "CASCADE_LOG" then some (some "syslog") else none

/-- The file is changed after the state has been saved, and the daemon starts again. -/
def actions : List Host.Action :=
  [.start vars {} ∅, .save, .editConfig config (some {}), .stop, .start vars {} ∅]

def isVerbose (host : Host) : Bool :=
  host.daemon.any (fun state ↦ decide (state.config.daemon.logging.level.value = .Debug))

end ChangedFile

section

open ChangedFile StateFile.ShortRun

local instance : Text Name := nameText

local instance : Text SocketAddr := socketAddrText

theorem changed_file_not_read :
    ∃ host, exec Host.step machine actions = some host ∧ isVerbose host = true ∧
      ∃ memory, exec Memory.step (Memory.new machine.configFiles) actions = some memory ∧
        memory.configFiles = host.configFiles ∧
        host.daemon.map (fun state ↦ state.config.settings) =
          memory.daemon.map Sources.settings := by
  have hfresh : machine.Fresh := ⟨fun _ ↦ rfl, rfl⟩
  have hended : (exec Host.step machine actions).any isVerbose = true := by decide +kernel
  obtain ⟨host, hrun, hverbose⟩ := (Option.any_eq_true _ _).mp hended
  exact ⟨host, hrun, hverbose, configuration_remembered hfresh hrun⟩

end

end Cascade
