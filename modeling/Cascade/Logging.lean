import Cascade.Config
import Cascade.Lib.Runs
import Cascade.Lib.Tasks

/-!
# The logger

A change to the logger is prepared from what the logger looks like, and applied later.  A message is
first compared with a global maximum level and then, under the lock, with the settings in force, so
that the logger may be changed in between.  Each message is an entry of `logging` between the two.
-/

namespace Cascade

open Lib

/-- The levels of the `log` crate, and the filters on them. -/
inductive Level
  | Error
  | Warn
  | Info
  | Debug
  | Trace
deriving DecidableEq

inductive LevelFilter
  | Off
  | Error
  | Warn
  | Info
  | Debug
  | Trace
deriving DecidableEq

def Level.toNat : Level → Nat
  | .Error => 1
  | .Warn => 2
  | .Info => 3
  | .Debug => 4
  | .Trace => 5

def LevelFilter.toNat : LevelFilter → Nat
  | .Off => 0
  | .Error => 1
  | .Warn => 2
  | .Info => 3
  | .Debug => 4
  | .Trace => 5

/-- `level <= filter` -/
def Level.le (level : Level) (filter : LevelFilter) : Bool := decide (level.toNat ≤ filter.toNat)

theorem Level.le_trace (level : Level) : level.le .Trace = true := by
  cases level with
  | _ => rfl

/-- `LevelFilter::from` -/
def LogLevel.toFilter : LogLevel → LevelFilter
  | .Trace => .Trace
  | .Debug => .Debug
  | .Info => .Info
  | .Warning => .Warn
  | .Error => .Error
  | .Critical => .Error

structure Metadata where
  level : Level
  target : String

structure Record where
  metadata : Metadata
  args : String

/-- A file that has been opened, or the connection to the syslog. -/
inductive PrimaryLogger
  | File (path : Utf8Path)
  | Syslog

namespace PrimaryLogger

/-- Opening the file, or connecting to the syslog, may fail. -/
def new (opens : LogTarget → Bool) (config : LogTarget) : Except Unit PrimaryLogger :=
  if opens config then
    .ok (match config with
      | .File path => .File path
      | .Syslog => .Syslog)
  else .error ()

def isMatch : PrimaryLogger → LogTarget → Bool
  | .File l, .File r => l == r
  | .Syslog, .Syslog => true
  | _, _ => false

end PrimaryLogger

structure Inner where
  primary : PrimaryLogger
  level : LevelFilter
  traceTargets : Finset String

def Inner.enabled (inner : Inner) (metadata : Metadata) : Bool :=
  metadata.level.le inner.level ||
    (decide (metadata.level = .Trace) && decide (metadata.target ∈ inner.traceTargets))

structure PreparedChange where
  primary : Option PrimaryLogger
  level : LevelFilter
  traceTargets : Option (Finset String)

/-- `maxLevel` is the global one.  A thread that panics in `apply` poisons the lock. -/
structure Logger where
  inner : Option Inner
  poisoned : Bool
  maxLevel : LevelFilter

namespace Logger

def launch : Logger := { inner := none, poisoned := false, maxLevel := .Info }

/-- The target is opened anew if it has changed. -/
def preparePrimary (inner : Inner) (opens : LogTarget → Bool) (target : LogTarget) :
    Except Unit (Option PrimaryLogger) :=
  if !inner.primary.isMatch target then (PrimaryLogger.new opens target).map some else .ok none

def prepareTraceTargets (inner : Inner) (traceTargets : Finset String) : Option (Finset String) :=
  if inner.traceTargets ≠ traceTargets then some traceTargets else none

def prepare (l : Logger) (opens : LogTarget → Bool) (config : LoggingConfig) :
    Except Unit (Option PreparedChange) :=
  if l.poisoned then .ok none
  else
    match l.inner with
    | some inner =>
      match preparePrimary inner opens config.target.value with
      | .error err => .error err
      | .ok primary =>
        let level := config.level.value.toFilter
        let traceTargets := prepareTraceTargets inner config.traceTargets.value
        if primary.isNone && decide (inner.level = level) && traceTargets.isNone then .ok none
        else .ok (some { primary, level, traceTargets })
    | none =>
      match PrimaryLogger.new opens config.target.value with
      | .error err => .error err
      | .ok primary =>
        .ok (some { primary := some primary
                    level := config.level.value.toFilter
                    traceTargets := some config.traceTargets.value })

/-- The maximum level for the settings in force. -/
def maxLevelOf (inner : Inner) : LevelFilter :=
  if inner.traceTargets ≠ ∅ then .Trace else inner.level

def apply (l : Logger) (change : PreparedChange) : Logger :=
  if l.poisoned then l
  else
    match l.inner with
    | some inner =>
      let inner := { primary := change.primary.getD inner.primary
                     level := change.level
                     traceTargets := change.traceTargets.getD inner.traceTargets }
      { l with inner := some inner, maxLevel := maxLevelOf inner }
    | none =>
      match change.primary, change.traceTargets with
      | some primary, some traceTargets =>
        let inner := { primary, level := change.level, traceTargets }
        { l with inner := some inner, maxLevel := maxLevelOf inner }
      | _, _ => { l with poisoned := true }

def enabled (l : Logger) (metadata : Metadata) : Bool :=
  match l.poisoned, l.inner with
  | false, some inner => inner.enabled metadata
  | _, _ => metadata.level.le .Info

/-- Where a message is written: to the standard error stream if there is no logger yet. -/
inductive Sink
  | fallback
  | primary (logger : PrimaryLogger)

def log (l : Logger) (record : Record) : Option Sink :=
  match l.poisoned, l.inner with
  | false, some inner => if inner.enabled record.metadata then some (.primary inner.primary) else none
  | _, _ => some .fallback

end Logger

/-! ## Steps -/

/-- A message that has been written, and the configuration in force then. -/
structure Line where
  config : Option LoggingConfig
  sink : Logger.Sink
  record : Record

/-- The prepared changes with their configurations, the messages between their two checks, and, as
a record, the configuration in force and the messages that were written or rejected. -/
structure Logging where
  logger : Logger
  prepared : List (LoggingConfig × PreparedChange)
  logging : List Record
  config : Option LoggingConfig
  lines : List Line
  rejected : List (Option LoggingConfig × Record)

namespace Logging

def Launched (s : Logging) : Prop := s = ⟨Logger.launch, [], [], none, [], []⟩

inductive Action
  | prepare (opens : LogTarget → Bool) (config : LoggingConfig)
  | apply (i : Nat)
  | log (record : Record)
  | write (i : Nat)

def prepare (s : Logging) (opens : LogTarget → Bool) (config : LoggingConfig) : Logging :=
  match s.logger.prepare opens config with
  | .error _ => s
  | .ok none => { s with config := some config }
  | .ok (some change) => { s with prepared := s.prepared ++ [(config, change)] }

def apply (s : Logging) (i : Nat) : Option Logging :=
  match s.prepared[i]? with
  | some (config, change) =>
    some { s with logger := s.logger.apply change
                  prepared := s.prepared.eraseIdx i
                  config := some config }
  | none => none

/-- The macros of the `log` crate. -/
def log (s : Logging) (record : Record) : Logging :=
  if record.metadata.level.le s.logger.maxLevel then { s with logging := s.logging ++ [record] }
  else { s with rejected := s.rejected ++ [(s.config, record)] }

def write (s : Logging) (i : Nat) : Option Logging :=
  match s.logging[i]? with
  | some record =>
    let s := { s with logging := s.logging.eraseIdx i }
    match s.logger.log record with
    | some sink => some { s with lines := s.lines ++ [⟨s.config, sink, record⟩] }
    | none => some { s with rejected := s.rejected ++ [(s.config, record)] }
  | none => none

def step (s : Logging) : Action → Option Logging
  | .prepare opens config => some (s.prepare opens config)
  | .apply i => s.apply i
  | .log record => some (s.log record)
  | .write i => s.write i

/-- No change is prepared while another one waits. -/
def inTurn (s : Logging) : Action → Prop
  | .prepare _ _ => s.prepared = []
  | _ => True

/-! ## What a configuration asks for -/

/-- Whether a message is to be written.  Without a configuration it goes to the standard error
stream. -/
def logs : Option LoggingConfig → Metadata → Bool
  | none, metadata => metadata.level.le .Info
  | some config, metadata =>
    metadata.level.le config.level.value.toFilter ||
      (decide (metadata.level = .Trace) && decide (metadata.target ∈ config.traceTargets.value))

/-- Whether a message is to be written there. -/
def isFor : Option LoggingConfig → Logger.Sink → Bool
  | none, .fallback => true
  | some config, .primary logger => logger.isMatch config.target.value
  | _, _ => false

/-- The settings are those of the configuration. -/
structure Shows (config : LoggingConfig) (inner : Inner) : Prop where
  primary : inner.primary.isMatch config.target.value = true
  level : inner.level = config.level.value.toFilter
  traceTargets : inner.traceTargets = config.traceTargets.value

theorem Shows.enabled {config : LoggingConfig} {inner : Inner} (h : Shows config inner)
    (metadata : Metadata) : inner.enabled metadata = logs (some config) metadata := by
  rw [Inner.enabled, h.level, h.traceTargets]
  rfl

-- The maximum level hides nothing that the settings ask for.
theorem le_maxLevelOf {inner : Inner} {metadata : Metadata} (h : inner.enabled metadata = true) :
    metadata.level.le (Logger.maxLevelOf inner) = true := by
  unfold Logger.maxLevelOf
  by_cases htrace : inner.traceTargets ≠ ∅
  · rw [if_pos htrace]
    exact metadata.level.le_trace
  · rw [if_neg htrace]
    have hempty : inner.traceTargets = ∅ := not_not.mp htrace
    simpa [Inner.enabled, hempty] using h

/-! ## Changes -/

theorem isMatch_new {opens : LogTarget → Bool} {target : LogTarget} {primary : PrimaryLogger}
    (h : PrimaryLogger.new opens target = .ok primary) : primary.isMatch target = true := by
  unfold PrimaryLogger.new at h
  split at h
  · cases h
    cases target with
    | File path => exact beq_self_eq_true path.components
    | Syslog => rfl
  · cases h

/-- Applying the change leads to the settings of the configuration. -/
def Completes (l : Logger) (config : LoggingConfig) (change : PreparedChange) : Prop :=
  ∃ inner, l.apply change = ⟨some inner, false, Logger.maxLevelOf inner⟩ ∧ Shows config inner

section

variable {l : Logger} {opens : LogTarget → Bool} {config : LoggingConfig}

-- The first change sets everything.
theorem prepare_first (hinner : l.inner = none) (hsafe : l.poisoned = false)
    {change : Option PreparedChange} (h : l.prepare opens config = .ok change) :
    ∃ primary, primary.isMatch config.target.value = true ∧
      change = some ⟨some primary, config.level.value.toFilter,
        some config.traceTargets.value⟩ := by
  simp only [Logger.prepare, hinner, hsafe, Bool.false_eq_true, if_false] at h
  split at h
  · cases h
  next primary hnew =>
    cases h
    exact ⟨primary, isMatch_new hnew, rfl⟩

theorem isMatch_preparePrimary {inner : Inner} {target : LogTarget}
    {primary : Option PrimaryLogger}
    (h : Logger.preparePrimary inner opens target = .ok primary) :
    (primary.getD inner.primary).isMatch target = true := by
  unfold Logger.preparePrimary at h
  cases hmatch : inner.primary.isMatch target with
  | true =>
    simp only [hmatch, Bool.not_true, Bool.false_eq_true, if_false] at h
    cases h
    exact hmatch
  | false =>
    simp only [hmatch, Bool.not_false, if_true] at h
    cases hopened : PrimaryLogger.new opens target with
    | error error => simp [hopened, Except.map] at h
    | ok opened =>
      simp only [hopened, Except.map, Except.ok.injEq] at h
      rw [← h]
      exact isMatch_new hopened

theorem prepareTraceTargets_eq (inner : Inner) (traceTargets : Finset String) :
    (Logger.prepareTraceTargets inner traceTargets).getD inner.traceTargets = traceTargets := by
  unfold Logger.prepareTraceTargets
  by_cases hsame : inner.traceTargets = traceTargets
  · rw [if_neg (not_not.mpr hsame)]
    exact hsame
  · rw [if_pos hsame]
    rfl

/-- What a later change leaves out is as the configuration has it. -/
structure Adjusts (inner : Inner) (config : LoggingConfig) (change : PreparedChange) : Prop where
  primary : (change.primary.getD inner.primary).isMatch config.target.value = true
  level : change.level = config.level.value.toFilter
  traceTargets : change.traceTargets.getD inner.traceTargets = config.traceTargets.value

theorem prepare_later {inner : Inner} (hinner : l.inner = some inner) (hsafe : l.poisoned = false)
    {change : Option PreparedChange} (h : l.prepare opens config = .ok change) :
    (change = none ∧ Shows config inner) ∨
      ∃ adjusted, change = some adjusted ∧ Adjusts inner config adjusted := by
  have htrace := prepareTraceTargets_eq inner config.traceTargets.value
  simp only [Logger.prepare, hinner, hsafe, Bool.false_eq_true, if_false] at h
  split at h
  · cases h
  next primary hprimary =>
    have hmatch := isMatch_preparePrimary hprimary
    split at h
    next hsame =>
      cases h
      simp only [Bool.and_eq_true, Option.isNone_iff_eq_none, decide_eq_true_eq] at hsame
      obtain ⟨⟨hnone, hlevel⟩, htargets⟩ := hsame
      rw [hnone] at hmatch
      rw [htargets] at htrace
      exact Or.inl ⟨rfl, hmatch, hlevel, htrace⟩
    · cases h
      exact Or.inr ⟨_, rfl, hmatch, rfl, htrace⟩

-- A change completes its configuration on the logger that it was prepared from.
theorem completes_of_prepare (hsafe : l.poisoned = false) {change : PreparedChange}
    (h : l.prepare opens config = .ok (some change)) : Completes l config change := by
  cases hinner : l.inner with
  | none =>
    obtain ⟨primary, hmatch, hchange⟩ := prepare_first hinner hsafe h
    cases hchange
    refine ⟨⟨primary, config.level.value.toFilter, config.traceTargets.value⟩, ?_,
      hmatch, rfl, rfl⟩
    simp only [Logger.apply, hinner, hsafe, Bool.false_eq_true, if_false]
  | some inner =>
    obtain ⟨hnone, _⟩ | ⟨adjusted, hchange, hadjusts⟩ := prepare_later hinner hsafe h
    · cases hnone
    · cases hchange
      refine ⟨⟨change.primary.getD inner.primary, change.level,
        change.traceTargets.getD inner.traceTargets⟩, ?_,
        hadjusts.primary, hadjusts.level, hadjusts.traceTargets⟩
      simp only [Logger.apply, hinner, hsafe, Bool.false_eq_true, if_false]

end

/-! ## Any run -/

/-- The global maximum level is that of the logger. -/
def Levelled (l : Logger) : Prop :=
  l.maxLevel = match l.inner with
    | some inner => Logger.maxLevelOf inner
    | none => .Info

/-- No lock is poisoned, and a change that was prepared for the first logger sets everything. -/
structure Calm (s : Logging) : Prop where
  safe : s.logger.poisoned = false
  levelled : Levelled s.logger
  prepared : s.logger.inner = none →
    ∀ change ∈ s.prepared, change.2.primary.isSome ∧ change.2.traceTargets.isSome

theorem le_maxLevel {l : Logger} (hsafe : l.poisoned = false) (hlevelled : Levelled l)
    {metadata : Metadata} (h : l.enabled metadata = true) :
    metadata.level.le l.maxLevel = true := by
  unfold Levelled at hlevelled
  unfold Logger.enabled at h
  cases hinner : l.inner with
  | none =>
    simp only [hinner, hsafe] at hlevelled h
    rw [hlevelled]
    exact h
  | some inner =>
    simp only [hinner, hsafe] at hlevelled h
    rw [hlevelled]
    exact le_maxLevelOf h

-- Whatever change is applied, the logger has a configuration and its maximum level afterwards.
theorem apply_spec {l : Logger} {change : PreparedChange} (hsafe : l.poisoned = false)
    (hfirst : l.inner = none → change.primary.isSome ∧ change.traceTargets.isSome) :
    ∃ inner, l.apply change = ⟨some inner, false, Logger.maxLevelOf inner⟩ := by
  cases hinner : l.inner with
  | some inner =>
    exact ⟨⟨change.primary.getD inner.primary, change.level,
      change.traceTargets.getD inner.traceTargets⟩, by simp [Logger.apply, hinner, hsafe]⟩
  | none =>
    obtain ⟨hprimary, htrace⟩ := hfirst hinner
    obtain ⟨primary, hprimary⟩ := Option.isSome_iff_exists.mp hprimary
    obtain ⟨targets, htrace⟩ := Option.isSome_iff_exists.mp htrace
    exact ⟨⟨primary, change.level, targets⟩,
      by simp [Logger.apply, hinner, hsafe, hprimary, htrace]⟩

variable {s s' : Logging}

theorem Calm.step (h : s.Calm) {a : Action} (hs : s.step a = some s') : s'.Calm := by
  cases a with
  | prepare opens config =>
    rw [← Option.some.inj hs]
    unfold Logging.prepare
    split
    · exact h
    · exact ⟨h.safe, h.levelled, h.prepared⟩
    next change hprepare =>
      refine ⟨h.safe, h.levelled, ?_⟩
      intro hinner entry hentry
      cases List.mem_append.mp hentry with
      | inl hold => exact h.prepared hinner entry hold
      | inr hnew =>
        obtain ⟨primary, _, hchange⟩ := prepare_first hinner h.safe hprepare
        rw [List.mem_singleton.mp hnew, Option.some.inj hchange]
        exact ⟨rfl, rfl⟩
  | apply i =>
    simp only [Logging.step, Logging.apply] at hs
    split at hs
    next config change hi =>
      rw [← Option.some.inj hs]
      obtain ⟨inner, happly⟩ := apply_spec h.safe
        (fun hinner ↦ h.prepared hinner _ (List.mem_of_getElem? hi))
      refine ⟨?_, ?_, ?_⟩
      · simp only [happly]
      · simp only [happly, Levelled]
      · simp only [happly]
        intro hinner
        cases hinner
    · cases hs
  | log record =>
    rw [← Option.some.inj hs]
    unfold Logging.log
    split
    · exact ⟨h.safe, h.levelled, h.prepared⟩
    · exact ⟨h.safe, h.levelled, h.prepared⟩
  | write i =>
    simp only [Logging.step, Logging.write] at hs
    split at hs
    · split at hs
      · rw [← Option.some.inj hs]
        exact ⟨h.safe, h.levelled, h.prepared⟩
      · rw [← Option.some.inj hs]
        exact ⟨h.safe, h.levelled, h.prepared⟩
    · cases hs

theorem calm_launched (h : s.Launched) : s.Calm := by
  rw [h]
  refine ⟨rfl, rfl, ?_⟩
  intro _ change hchange
  cases hchange

/-! ## Changes in turn -/

/-- The logger shows the configuration in force. -/
def InForce (s : Logging) : Prop :=
  match s.config with
  | none => s.logger.inner = none
  | some config => ∃ inner, s.logger.inner = some inner ∧ Shows config inner

/-- At most one change waits, and it completes its configuration.  What has passed the first check
without a configuration is to be written, and what has been written or rejected was rightly so. -/
structure Follows (s : Logging) : Prop where
  calm : s.Calm
  inForce : s.InForce
  one : s.prepared.length ≤ 1
  prepared : ∀ entry ∈ s.prepared, Completes s.logger entry.1 entry.2
  logging : s.config = none → ∀ record ∈ s.logging, logs none record.metadata = true
  lines : ∀ line ∈ s.lines,
    logs line.config line.record.metadata = true ∧ isFor line.config line.sink = true
  rejected : ∀ entry ∈ s.rejected, logs entry.1 entry.2.metadata = false

theorem enabled_eq (hsafe : s.logger.poisoned = false) (h : s.InForce) (metadata : Metadata) :
    s.logger.enabled metadata = logs s.config metadata := by
  unfold InForce at h
  unfold Logger.enabled
  cases hconfig : s.config with
  | none =>
    simp only [hconfig] at h
    simp only [hsafe, h]
    rfl
  | some config =>
    simp only [hconfig] at h
    obtain ⟨inner, hinner, hshows⟩ := h
    simp only [hsafe, hinner]
    exact hshows.enabled metadata

-- What is written is what the configuration in force asks for, and where it says.
theorem log_spec (h : s.Follows) {record : Record} (hrecord : record ∈ s.logging) :
    match s.logger.log record with
    | some sink => logs s.config record.metadata = true ∧ isFor s.config sink = true
    | none => logs s.config record.metadata = false := by
  have hforce := h.inForce
  unfold InForce at hforce
  cases hconfig : s.config with
  | none =>
    simp only [hconfig] at hforce
    simp only [Logger.log, h.calm.safe, hforce]
    exact ⟨h.logging hconfig record hrecord, rfl⟩
  | some config =>
    simp only [hconfig] at hforce
    obtain ⟨inner, hinner, hshows⟩ := hforce
    have hlogs := hshows.enabled record.metadata
    simp only [Logger.log, h.calm.safe, hinner]
    cases henabled : inner.enabled record.metadata with
    | true => exact ⟨hlogs ▸ henabled, hshows.primary⟩
    | false => exact hlogs ▸ henabled

theorem Follows.prepare (h : s.Follows) (opens : LogTarget → Bool) (config : LoggingConfig)
    (hturn : s.prepared = []) : (s.prepare opens config).Follows := by
  have hcalm : (s.prepare opens config).Calm :=
    h.calm.step (a := .prepare opens config) rfl
  unfold Logging.prepare at hcalm ⊢
  split
  · exact h
  next hprepare =>
    have hshows : InForce { s with config := some config } := by
      cases hinner : s.logger.inner with
      | none =>
        obtain ⟨primary, _, hchange⟩ := prepare_first hinner h.calm.safe hprepare
        cases hchange
      | some inner =>
        obtain ⟨_, hshows⟩ | ⟨adjusted, hchange, _⟩ := prepare_later hinner h.calm.safe hprepare
        · exact ⟨inner, hinner, hshows⟩
        · cases hchange
    refine ⟨⟨h.calm.safe, h.calm.levelled, h.calm.prepared⟩, hshows, h.one, h.prepared, ?_, h.lines,
      h.rejected⟩
    intro hnone
    cases hnone
  next change hprepare =>
    simp only [hprepare] at hcalm
    refine ⟨hcalm, h.inForce, ?_, ?_, h.logging, h.lines, h.rejected⟩
    · simp [hturn]
    · intro entry hentry
      have hnew : entry = (config, change) := by simpa [hturn] using hentry
      rw [hnew]
      exact completes_of_prepare h.calm.safe hprepare

theorem Follows.apply (h : s.Follows) {i : Nat} (hs : s.apply i = some s') : s'.Follows := by
  have hcalm : s'.Calm := h.calm.step (a := .apply i) hs
  unfold Logging.apply at hs
  split at hs
  next config change hi =>
    obtain ⟨inner, happly, hshows⟩ := h.prepared _ (List.mem_of_getElem? hi)
    have hlt : i < s.prepared.length := (List.getElem?_eq_some_iff.mp hi).1
    have hrest : s.prepared.eraseIdx i = [] := by
      have hlength := List.length_eraseIdx_of_lt hlt
      have hone := h.one
      exact List.length_eq_zero_iff.mp (by omega)
    rw [← Option.some.inj hs] at hcalm ⊢
    refine ⟨hcalm, ?_, ?_, ?_, ?_, h.lines, h.rejected⟩
    · exact ⟨inner, by rw [happly], hshows⟩
    · simp only [hrest, List.length_nil, Nat.zero_le]
    · simp only [hrest]
      intro entry hentry
      cases hentry
    · intro hnone
      cases hnone
  · cases hs

theorem Follows.log (h : s.Follows) (record : Record) : (s.log record).Follows := by
  have hcalm : (s.log record).Calm := h.calm.step (a := .log record) rfl
  unfold Logging.log at hcalm ⊢
  split
  next hle =>
    refine ⟨⟨h.calm.safe, h.calm.levelled, h.calm.prepared⟩, h.inForce, h.one, h.prepared, ?_, h.lines,
      h.rejected⟩
    intro hconfig other hother
    cases List.mem_append.mp hother with
    | inl hold => exact h.logging hconfig other hold
    | inr hnew =>
      have hinner : s.logger.inner = none := by
        have hforce := h.inForce
        unfold InForce at hforce
        rwa [hconfig] at hforce
      have hlevel : s.logger.maxLevel = .Info := by
        have hlevelled := h.calm.levelled
        unfold Levelled at hlevelled
        rwa [hinner] at hlevelled
      rw [List.mem_singleton.mp hnew]
      rw [hlevel] at hle
      exact hle
  next hle =>
    refine ⟨⟨h.calm.safe, h.calm.levelled, h.calm.prepared⟩, h.inForce, h.one, h.prepared, h.logging,
      h.lines, ?_⟩
    intro entry hentry
    cases List.mem_append.mp hentry with
    | inl hold => exact h.rejected entry hold
    | inr hnew =>
      rw [List.mem_singleton.mp hnew]
      show logs s.config record.metadata = false
      rw [← enabled_eq h.calm.safe h.inForce, Bool.eq_false_iff]
      intro henabled
      exact hle (le_maxLevel h.calm.safe h.calm.levelled henabled)

theorem Follows.write (h : s.Follows) {i : Nat} (hs : s.write i = some s') : s'.Follows := by
  have hcalm : s'.Calm := h.calm.step (a := .write i) hs
  unfold Logging.write at hs
  split at hs
  next record hi =>
    have hspec := log_spec h (List.mem_of_getElem? hi)
    have hlogging : s.config = none → ∀ other ∈ s.logging.eraseIdx i, logs none other.metadata = true :=
      fun hconfig other hother ↦ h.logging hconfig other (List.mem_of_mem_eraseIdx hother)
    cases hlog : s.logger.log record with
    | some sink =>
      simp only [hlog] at hs hspec
      rw [← Option.some.inj hs] at hcalm ⊢
      refine ⟨hcalm, h.inForce, h.one, h.prepared, hlogging, ?_, h.rejected⟩
      intro line hline
      cases List.mem_append.mp hline with
      | inl hold => exact h.lines line hold
      | inr hnew =>
        rw [List.mem_singleton.mp hnew]
        exact hspec
    | none =>
      simp only [hlog] at hs hspec
      rw [← Option.some.inj hs] at hcalm ⊢
      refine ⟨hcalm, h.inForce, h.one, h.prepared, hlogging, h.lines, ?_⟩
      intro entry hentry
      cases List.mem_append.mp hentry with
      | inl hold => exact h.rejected entry hold
      | inr hnew =>
        rw [List.mem_singleton.mp hnew]
        exact hspec
  · cases hs

theorem follows_launched (h : s.Launched) : s.Follows := by
  have hcalm := calm_launched h
  rw [h] at hcalm ⊢
  refine ⟨hcalm, rfl, Nat.zero_le _, ?_, ?_, ?_, ?_⟩
  · intro entry hentry
    cases hentry
  · intro _ record hrecord
    cases hrecord
  · intro line hline
    cases hline
  · intro entry hentry
    cases hentry

theorem Follows.step (h : s.Follows) {a : Action} (hturn : s.inTurn a) (hs : s.step a = some s') :
    s'.Follows := by
  cases a with
  | prepare opens config =>
    rw [← Option.some.inj hs]
    exact h.prepare opens config hturn
  | apply i => exact h.apply hs
  | log record =>
    rw [← Option.some.inj hs]
    exact h.log record
  | write i => exact h.write hs

/-- In any run the logger never panics, and its maximum level hides no message that it would write.
If a change is applied before another one is prepared, then every message that is written, is written
where the configuration in force says and asked for by it, and every message that is not written is
not asked for, even if the logger changes while the message is on its way. -/
theorem logger_follows_configuration :
    (∀ s, Reach step anyStep Launched s → s.logger.poisoned = false ∧
      ∀ metadata, s.logger.enabled metadata = true → metadata.level.le s.logger.maxLevel = true) ∧
    ∀ s, Reach step inTurn Launched s →
      (∀ line ∈ s.lines,
        logs line.config line.record.metadata = true ∧ isFor line.config line.sink = true) ∧
      ∀ entry ∈ s.rejected, logs entry.1 entry.2.metadata = false := by
  constructor
  · intro s h
    have hcalm := h.invariant (I := Calm) (fun _ ↦ calm_launched) (fun _ _ _ hs _ hstep ↦ hs.step hstep)
    exact ⟨hcalm.safe, fun _ ↦ le_maxLevel hcalm.safe hcalm.levelled⟩
  · intro s h
    have hfollows := h.invariant (I := Follows) (fun _ ↦ follows_launched)
      (fun _ _ _ hs hturn hstep ↦ hs.step hturn hstep)
    exact ⟨hfollows.lines, hfollows.rejected⟩

/-! ## Two changes -/

namespace TwoChanges

def verbose : LoggingConfig := { LoggingConfig.default with level := Setting.new .Debug }

def syslog : LoggingConfig := { LoggingConfig.default with target := Setting.new .Syslog }

def record : Record := ⟨⟨.Debug, "cascade::tsig"⟩, "Loaded the TSIG store"⟩

def opens (_ : LogTarget) : Bool := true

def start : Logging := ⟨Logger.launch, [], [], none, [], []⟩

/-- The message is on its way when the second change is applied. -/
def inTurnRun : List Action :=
  [.prepare opens LoggingConfig.default, .apply 0, .log record, .prepare opens verbose, .apply 0,
    .log record, .prepare opens syslog, .apply 0, .write 0]

/-- Both changes are prepared from the same logger. -/
def overlappingRun : List Action :=
  [.prepare opens LoggingConfig.default, .apply 0, .prepare opens syslog, .prepare opens verbose,
    .apply 0, .apply 0, .log record, .write 0]

def takesTurns (s : Logging) : Action → Bool
  | .prepare _ _ => s.prepared.isEmpty
  | _ => true

def misplaced (s : Logging) : Bool := s.lines.any (fun line ↦ !isFor line.config line.sink)

end TwoChanges

open TwoChanges in
theorem debug_messages_rejected :
    ∃ s : Logging, s.rejected.length = 2 ∧ (∀ line ∈ s.lines,
        logs line.config line.record.metadata = true ∧ isFor line.config line.sink = true) ∧
      ∀ entry ∈ s.rejected, logs entry.1 entry.2.metadata = false := by
  have hlaunched : start.Launched := rfl
  have hturns : execOk step takesTurns start inTurnRun = true := by decide +kernel
  have hended : (exec step start inTurnRun).any (fun s ↦ decide (s.rejected.length = 2)) = true := by
    decide +kernel
  have hrun : ∃ s, Reach step (fun s a ↦ takesTurns s a = true) Launched s ∧
      decide (s.rejected.length = 2) = true := Reach.of_exec hlaunched inTurnRun hturns hended
  obtain ⟨s, hs, hrejected⟩ := hrun
  have hreach : Reach step inTurn Launched s := by
    apply hs.mono
    intro s a hturn
    cases a with
    | prepare opens config => exact List.isEmpty_iff.mp hturn
    | _ => trivial
  exact ⟨s, of_decide_eq_true hrejected, logger_follows_configuration.2 s hreach⟩

open TwoChanges in
/-- The second change leaves out the target, which the first one has changed since. -/
theorem overlapping_changes_mix :
    ∃ s, Reach step anyStep Launched s ∧
      ∃ line ∈ s.lines, isFor line.config line.sink = false := by
  have hlaunched : start.Launched := rfl
  have hended : (exec step start overlappingRun).any misplaced = true := by decide +kernel
  have hrun : ∃ s, Reach step anyStep Launched s ∧ misplaced s = true :=
    Reach.of_exec_any hlaunched overlappingRun hended
  obtain ⟨s, hs, hmisplaced⟩ := hrun
  obtain ⟨line, hline, hsink⟩ := List.any_eq_true.mp hmisplaced
  exact ⟨s, hs, line, hline, by simpa using hsink⟩

end Logging

end Cascade
