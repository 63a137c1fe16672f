import Cascade.Primaries

/-!
# Attempts to refresh a zone

`refresh_zone_and_update_state` for one zone after the other, with all that is tracked of the
refreshes of a zone: how an attempt begins, the contacts with the primaries with their SOA queries
and transfers, and what is recorded at the end.  Attempts follow each other here; how they
interleave with other tasks is the subject of the maintainer's steps.
-/

namespace Cascade

open Lib

/-- `ZoneRefreshState` with the number in `RefreshInProgress` and the metrics that are only shown. -/
structure ZoneRefreshInfo extends ZoneRefreshState where
  updatesApplied : Nat := 0
  lastRefreshPhaseStartedAt : Option Instant := none
  lastRefreshAttemptedAt : Option Instant := none
  lastSoaSerialCheckSerial : Option Serial := none
  lastRefreshedAt : Option Instant := none
  lastRefreshSucceededSerial : Option Serial := none

namespace ZoneRefreshInfo

def new (soa : Soa) (now : Instant) : ZoneRefreshInfo :=
  { toZoneRefreshState := ZoneRefreshState.new soa now }

def default (now : Instant) : ZoneRefreshInfo :=
  { toZoneRefreshState := ZoneRefreshState.default now }

def setStatus (info : ZoneRefreshInfo) (status : ZoneRefreshStatus) (updatesApplied : Nat) :
    ZoneRefreshInfo :=
  { info with status, updatesApplied }

def refreshSucceeded (info : ZoneRefreshInfo) (newSoa : Soa) (now : Instant) : ZoneRefreshInfo :=
  { info with
    toZoneRefreshState := info.toZoneRefreshState.refreshSucceeded newSoa
    lastRefreshedAt := some now
    lastRefreshSucceededSerial := some newSoa.serial }

def soaSerialCheckSucceeded (info : ZoneRefreshInfo) (serial : Option Serial) (now : Instant) :
    ZoneRefreshInfo :=
  { info with
    toZoneRefreshState := info.toZoneRefreshState.soaSerialCheckSucceeded now
    lastSoaSerialCheckSerial := serial <|> info.lastSoaSerialCheckSerial }

/-- The time since the last refresh. -/
def age (info : ZoneRefreshInfo) (now : Instant) : Option Nat :=
  info.lastRefreshedAt.bind (checkedDurationSince now)

/-- The progress reports of a transfer. -/
def applyUpdates (info : ZoneRefreshInfo) : Nat → ZoneRefreshInfo
  | 0 => info
  | n + 1 =>
    let info := info.applyUpdates n
    if (n + 1) % 10000 = 0 then info.setStatus .RefreshInProgress (n + 1) else info

end ZoneRefreshInfo

namespace RefreshAttempt

open Primaries (Outcome Visits isNewer refreshZone)

/-! ## Contacts -/

/-- What a contact with a primary does to what is tracked of the zone. -/
inductive Report
  | checked (serial : Option Serial) (time : Instant)
  | applied (updates : Nat)
  | refreshed (soa : Soa) (time : Instant)

def Report.apply (info : ZoneRefreshInfo) : Report → ZoneRefreshInfo
  | .checked serial time => info.soaSerialCheckSucceeded serial time
  | .applied updates => info.applyUpdates updates
  | .refreshed soa time => info.refreshSucceeded soa time

/-- How a transfer goes: the updates applied before it ends, the apex SOA record that it leaves in the
zone (which it writes to at once), and the time it takes. -/
structure Transfer where
  updates : Nat
  zoneSoa : Option Soa
  result : Except ZoneMaintainerError Unit
  duration : Nat

/-- How a primary answers: the SOA query with the time it takes, and the transfers of both rounds. -/
structure Answers where
  soaQuery : Except ZoneMaintainerError Serial
  queryTime : Nat
  transfer : Nat → Transfer

/-- A call of `refresh_zone` under way. -/
structure Scene where
  now : Instant
  zoneSoa : Option Soa
  contacts : Nat
  reports : List Report

def Scene.report (s : Scene) (report : Report) : Scene := { s with reports := s.reports ++ [report] }

/-- The response code of a server that does not know a kind of query. -/
def notimp : UInt16 := 4

def doXfr (xfrType : XfrType) (transfer : Transfer) (s : Scene) :
    Except ZoneMaintainerError Soa × Scene :=
  if xfrType = .IXFR ∧ s.zoneSoa = none then
    (.error (.InternalError "Unable to read SOA for zone when preparing for IXFR in"), s)
  else
    let s := { s.report (.applied transfer.updates) with
      now := s.now + transfer.duration, zoneSoa := transfer.zoneSoa }
    match transfer.result, transfer.zoneSoa with
    | .error err, _ => (.error err, s)
    | .ok (), none => (.error (.InternalError "SOA for zone missing post XFR in"), s)
    | .ok (), some soa => (.ok soa, s)

/-- The rounds of `refresh_zone_from_addr` from the `i`-th one on. -/
def transferRounds (answers : Answers) : List XfrType → Nat → Scene → Outcome × Scene
  | [], _, s => (.ok none, s)
  | xfrType :: xfrTypes, i, s =>
    match doXfr xfrType (answers.transfer i) s with
    | (.ok soa, s) => (.ok (some soa), s.report (.refreshed soa s.now))
    | (.error err, s) =>
      if err = .ResponseError notimp ∧ xfrType = .IXFR then
        transferRounds answers xfrTypes (i + 1) s
      else (.error err, s)

/-- A contact with a primary of a zone that is tracked. -/
def refreshZoneFromAddr (answers : Nat → Answers) (currentSerial : Option Serial) (s : Scene)
    (_ : SocketAddr) (config : XfrConfig) : Outcome × Scene :=
  let answer := answers s.contacts
  let s := { s with contacts := s.contacts + 1, now := s.now + answer.queryTime }
  match answer.soaQuery with
  | .error err => (.error err, s)
  | .ok serial =>
    if currentSerial.all serial.gt then
      transferRounds answer (config.transfers currentSerial) 0
        (s.report (.checked (some serial) s.now))
    else (.ok none, s.report (.checked none s.now))

/-- What a call of `refresh_zone` comes to.  The zone is recorded as refreshed only when a newer
version was brought. -/
structure RefreshRun where
  reports : List Report
  result : Outcome
  endedAt : Instant
  newer_of_refreshed : ∀ soa time, Report.refreshed soa time ∈ reports →
    ∃ soa, result = .ok (some soa)

def NotRefreshed (s : Scene) : Prop := ∀ soa time, Report.refreshed soa time ∉ s.reports

theorem notRefreshed_report {s : Scene} (h : NotRefreshed s) (report : Report)
    (hreport : ∀ soa time, Report.refreshed soa time ≠ report) : NotRefreshed (s.report report) := by
  intro soa time hmem
  cases List.mem_append.mp hmem with
  | inl hold => exact h soa time hold
  | inr hnew => exact hreport soa time (List.mem_singleton.mp hnew)

theorem notRefreshed_doXfr {s : Scene} (h : NotRefreshed s) (xfrType : XfrType)
    (transfer : Transfer) : NotRefreshed (doXfr xfrType transfer s).2 := by
  have hnext := notRefreshed_report h (.applied transfer.updates) (fun _ _ ↦ nofun)
  unfold doXfr
  split
  · exact h
  · simp only
    split
    · exact hnext
    · exact hnext
    · exact hnext

theorem notRefreshed_transferRounds {answers : Answers} {xfrTypes : List XfrType} {i : Nat}
    {s : Scene} (h : NotRefreshed s)
    (hout : isNewer (transferRounds answers xfrTypes i s).1 = false) :
    NotRefreshed (transferRounds answers xfrTypes i s).2 := by
  induction xfrTypes generalizing i s with
  | nil => exact h
  | cons xfrType xfrTypes ih =>
    rw [transferRounds] at hout ⊢
    have hnext := notRefreshed_doXfr h xfrType (answers.transfer i)
    cases hxfr : doXfr xfrType (answers.transfer i) s with
    | mk result s' =>
      rw [hxfr] at hnext
      simp only [hxfr] at hout ⊢
      cases result with
      | ok soa => simp [isNewer] at hout
      | error err =>
        simp only at hout ⊢
        split
        · rename_i hnot
          rw [if_pos hnot] at hout
          exact ih hnext hout
        · exact hnext

theorem notRefreshed_contact {answers : Nat → Answers} {currentSerial : Option Serial} (s : Scene)
    (addr : SocketAddr) (config : XfrConfig) (h : NotRefreshed s)
    (hout : isNewer (refreshZoneFromAddr answers currentSerial s addr config).1 = false) :
    NotRefreshed (refreshZoneFromAddr answers currentSerial s addr config).2 := by
  unfold refreshZoneFromAddr at hout ⊢
  simp only at hout ⊢
  cases hquery : (answers s.contacts).soaQuery with
  | error err =>
    simp only
    exact h
  | ok serial =>
    simp only [hquery] at hout ⊢
    split
    · rename_i hgt
      rw [if_pos hgt] at hout
      exact notRefreshed_transferRounds (notRefreshed_report h _ (fun _ _ ↦ nofun)) hout
    · exact notRefreshed_report h _ (fun _ _ ↦ nofun)

/-- `refresh_zone` for a secondary zone that is tracked. -/
def visits (config : ZoneConfig) (initialXfrAddr : Option SocketAddr) (info : ZoneRefreshInfo)
    (zoneSoa : Option Soa) (startedAt : Instant) (answers : Nat → Answers) : Visits Scene :=
  refreshZone config initialXfrAddr (info.age startedAt) (.ok zoneSoa)
    (refreshZoneFromAddr answers) ⟨startedAt, zoneSoa, 0, []⟩

theorem newer_of_visits_refreshed {config : ZoneConfig} {initialXfrAddr : Option SocketAddr}
    {info : ZoneRefreshInfo} {zoneSoa : Option Soa} {startedAt : Instant}
    {answers : Nat → Answers} {soa : Soa} {time : Instant}
    (h : Report.refreshed soa time ∈
      (visits config initialXfrAddr info zoneSoa startedAt answers).state.reports) :
    ∃ soa, (visits config initialXfrAddr info zoneSoa startedAt answers).result =
      some (.ok (some soa)) := by
  by_contra hnot
  have hnone := not_exists.mp hnot
  unfold visits at h hnone
  rw [Primaries.refreshZone_eq] at h hnone
  exact Primaries.visitPrimaries_invariant (P := NotRefreshed) notRefreshed_contact _ _ _
    (fun _ _ hmem ↦ List.not_mem_nil hmem) hnone soa time h

/-- The result is there: a secondary zone has a primary. -/
def refresh (config : ZoneConfig) (hsecondary : config.isSecondary = true)
    (initialXfrAddr : Option SocketAddr) (info : ZoneRefreshInfo) (zoneSoa : Option Soa)
    (startedAt : Instant) (answers : Nat → Answers) : RefreshRun :=
  let r := visits config initialXfrAddr info zoneSoa startedAt answers
  have hsome : r.result.isSome = true :=
    Primaries.refreshZone_isSome config initialXfrAddr (info.age startedAt) zoneSoa
      (refreshZoneFromAddr answers) ⟨startedAt, zoneSoa, 0, []⟩ hsecondary
  { reports := r.state.reports
    result := r.result.get hsome
    endedAt := r.state.now
    newer_of_refreshed := by
      intro soa time h
      have ⟨soa', hsoa'⟩ := newer_of_visits_refreshed h
      exact ⟨soa', Option.get_of_eq_some hsome hsoa'⟩ }

/-! ## An attempt -/

/-- What is known of a zone: what is tracked of its refreshes, and whether it is marked as expired. -/
structure TrackedZone where
  info : ZoneRefreshInfo
  expired : Bool

structure Attempt where
  cause : ZoneRefreshCause
  startedAt : Instant
  run : RefreshRun

def begin (cause : ZoneRefreshCause) (now : Instant) (info : ZoneRefreshInfo) : ZoneRefreshInfo :=
  match cause with
  | .SoaRetryTimer =>
    { info with lastRefreshAttemptedAt := some now }.setStatus .RetryInProgress 0
  | _ =>
    { info with lastRefreshPhaseStartedAt := some now
                lastRefreshAttemptedAt := some now }.setStatus .RefreshInProgress 0

/-- The end of an attempt: what it returns, the zone after it, and the refresh that it asks for, as
its cause and after how many seconds. -/
structure Finished where
  result : Except Unit Unit
  zone : TrackedZone
  scheduled : Option (ZoneRefreshCause × UInt32)

def finish (zone : TrackedZone) (res : Outcome) (now : Instant) : Finished :=
  let info := zone.info
  match res with
  | .error _ =>
    if info.status = .RetryInProgress then
      if info.isExpired now then ⟨.error (), { zone with expired := true }, none⟩
      else ⟨.error (), zone, some (.SoaRetryTimer, info.retry)⟩
    else
      ⟨.error (), { zone with info := info.setStatus .RetryPending 0 },
        some (.SoaRetryTimer, info.retry)⟩
  | .ok newSoa =>
    let info := (newSoa.elim info (info.refreshSucceeded · now)).setStatus .RefreshPending 0
    ⟨.ok (), { zone with info }, some (.SoaRefreshTimer, info.refresh)⟩

/-- What is tracked when `refresh_zone` returns. -/
def afterRun (a : Attempt) (info : ZoneRefreshInfo) : ZoneRefreshInfo :=
  a.run.reports.foldl Report.apply (begin a.cause a.startedAt info)

/-- `refresh_zone_and_update_state` for a zone that is tracked. -/
def refreshZoneAndUpdateState (a : Attempt) (zone : TrackedZone) : Finished :=
  finish { zone with info := afterRun a zone.info } a.run.result a.run.endedAt

/-! ## The status after an attempt -/

/-- A progress report is made for every 10000th update of a transfer. -/
def Report.showsProgress : Report → Bool
  | .applied updates => decide (10000 ≤ updates)
  | _ => false

def RefreshRun.showsProgress (run : RefreshRun) : Bool := run.reports.any Report.showsProgress

-- Progress reports change the status and nothing else.
theorem applyUpdates_eq (info : ZoneRefreshInfo) (n : Nat) :
    ∃ k, info.applyUpdates n =
      if 10000 ≤ n then info.setStatus .RefreshInProgress k else info := by
  induction n with
  | zero => exact ⟨0, rfl⟩
  | succ n ih =>
    have ⟨k, hk⟩ := ih
    rw [ZoneRefreshInfo.applyUpdates, hk]
    by_cases hreport : (n + 1) % 10000 = 0
    · have hmany : 10000 ≤ n + 1 := by omega
      refine ⟨n + 1, ?_⟩
      simp only [if_pos hreport, if_pos hmany]
      split
      · rfl
      · rfl
    · refine ⟨k, ?_⟩
      simp only [if_neg hreport]
      by_cases hmany : 10000 ≤ n
      · rw [if_pos hmany, if_pos (by omega)]
      · rw [if_neg hmany, if_neg (by omega)]

-- What one report records, unless it is that of a newer version.
theorem apply_report (info : ZoneRefreshInfo) (report : Report)
    (hnot : ∀ soa time, report ≠ .refreshed soa time) :
    (report.apply info).status =
        (if report.showsProgress then .RefreshInProgress else info.status) ∧
      (report.apply info).expire = info.expire ∧
      (report.apply info).zoneCreatedAt = info.zoneCreatedAt := by
  cases report with
  | checked serial time => exact ⟨rfl, rfl, rfl⟩
  | applied updates =>
    have ⟨k, hk⟩ := applyUpdates_eq info updates
    rw [Report.apply, hk, Report.showsProgress]
    by_cases hmany : 10000 ≤ updates
    · rw [if_pos hmany, decide_eq_true hmany]
      exact ⟨rfl, rfl, rfl⟩
    · rw [if_neg hmany, decide_eq_false hmany]
      exact ⟨rfl, rfl, rfl⟩
  | refreshed soa time => exact absurd rfl (hnot soa time)

theorem foldl_reports (reports : List Report) (info : ZoneRefreshInfo)
    (hnot : ∀ soa time, Report.refreshed soa time ∉ reports) :
    (reports.foldl Report.apply info).status =
        (if reports.any Report.showsProgress then .RefreshInProgress else info.status) ∧
      (reports.foldl Report.apply info).expire = info.expire ∧
      (reports.foldl Report.apply info).zoneCreatedAt = info.zoneCreatedAt := by
  induction reports generalizing info with
  | nil => exact ⟨rfl, rfl, rfl⟩
  | cons report reports ih =>
    have hone := apply_report info report
      (fun soa time heq ↦ hnot soa time (heq ▸ List.mem_cons_self))
    have hrest := ih (report.apply info)
      (fun soa time hmem ↦ hnot soa time (List.mem_cons_of_mem report hmem))
    rw [List.foldl_cons, hrest.1, hrest.2.1, hrest.2.2, hone.1, hone.2.1, hone.2.2]
    refine ⟨?_, rfl, rfl⟩
    rw [List.any_cons]
    cases report.showsProgress with
    | true => simp
    | false => simp

theorem not_refreshed {run : RefreshRun} (h : ∀ soa, run.result ≠ .ok (some soa)) :
    ∀ soa time, Report.refreshed soa time ∉ run.reports := by
  intro soa time hmem
  have ⟨soa', hsoa'⟩ := run.newer_of_refreshed soa time hmem
  exact h soa' hsoa'

theorem not_refreshed_of_error {run : RefreshRun} {err : ZoneMaintainerError}
    (h : run.result = .error err) : ∀ soa time, Report.refreshed soa time ∉ run.reports := by
  apply not_refreshed
  intro soa
  rw [h]
  nofun

theorem toZoneRefreshState_begin (cause : ZoneRefreshCause) (now : Instant)
    (info : ZoneRefreshInfo) : (begin cause now info).toZoneRefreshState =
      { info.toZoneRefreshState with status := ZoneMaintainer.statusOf cause } := by
  cases cause with
  | SoaRetryTimer => rfl
  | ManualTrigger => rfl
  | NotifyFromPrimary addr => rfl
  | SoaRefreshTimer => rfl
  | SoaRefreshTimerAfterStartup => rfl
  | SoaRefreshTimerAfterZoneAdded => rfl

theorem begin_status (cause : ZoneRefreshCause) (now : Instant) (info : ZoneRefreshInfo) :
    (begin cause now info).status = ZoneMaintainer.statusOf cause :=
  congrArg ZoneRefreshState.status (toZoneRefreshState_begin cause now info)

theorem statusOf_eq_retry_iff (cause : ZoneRefreshCause) :
    ZoneMaintainer.statusOf cause = .RetryInProgress ↔ cause = .SoaRetryTimer := by
  cases cause <;> simp [ZoneMaintainer.statusOf]

-- When an attempt fails, its status is still that of a retry only if it is one and has not shown any
-- progress.
theorem afterRun_status_iff {a : Attempt} {err : ZoneMaintainerError}
    (herr : a.run.result = .error err) (info : ZoneRefreshInfo) :
    (afterRun a info).status = .RetryInProgress ↔
      a.cause = .SoaRetryTimer ∧ a.run.showsProgress = false := by
  have hstatus := (foldl_reports a.run.reports (begin a.cause a.startedAt info)
    (not_refreshed_of_error herr)).1
  rw [afterRun, hstatus, begin_status, RefreshRun.showsProgress]
  cases a.run.reports.any Report.showsProgress with
  | true => simp
  | false => simp [statusOf_eq_retry_iff]

/-- After an attempt the status is that of a pending refresh or retry, of a refresh exactly when `Ok`
was returned, if and only if it was no failed retry without a progress report. -/
theorem status_truthful_iff (a : Attempt) (zone : TrackedZone) :
    let done := refreshZoneAndUpdateState a zone
    ((done.zone.info.status = .RefreshPending ∨ done.zone.info.status = .RetryPending) ∧
      (done.zone.info.status = .RefreshPending ↔ done.result = .ok ())) ↔
        (a.cause = .SoaRetryTimer → (∃ err, a.run.result = .error err) →
          a.run.showsProgress = true) := by
  intro done
  cases hres : a.run.result with
  | ok newSoa =>
    have hdone : done.zone.info.status = .RefreshPending ∧ done.result = .ok () := by
      simp only [done, refreshZoneAndUpdateState, hres, finish]
      exact ⟨rfl, trivial⟩
    rw [hdone.1, hdone.2]
    simp
  | error err =>
    have hretry := afterRun_status_iff hres zone.info
    by_cases hstatus : (afterRun a zone.info).status = .RetryInProgress
    · have hdone : done.zone.info.status = .RetryInProgress := by
        simp only [done, refreshZoneAndUpdateState, hres, finish, if_pos hstatus]
        split
        · exact hstatus
        · exact hstatus
      have ⟨hcause, hprogress⟩ := hretry.mp hstatus
      rw [hdone, hprogress]
      simp [hcause]
    · have hdone : done.zone.info.status = .RetryPending ∧ done.result = .error () := by
        simp only [done, refreshZoneAndUpdateState, hres, finish, if_neg hstatus]
        exact ⟨rfl, trivial⟩
      have hnot : a.cause = .SoaRetryTimer → a.run.showsProgress = true := by
        intro hcause
        by_contra hfalse
        exact hstatus (hretry.mpr ⟨hcause, Bool.eq_false_iff.mpr hfalse⟩)
      rw [hdone.1, hdone.2]
      simpa using hnot

/-! ## A primary that cannot be reached -/

namespace Unreachable

/-- The zone's REFRESH is longer than its EXPIRE. -/
def soa : Soa := { ZoneMaintainer.ShortRun.soa with refresh := 7200, expire := 3600 }

def answers : Answers :=
  { soaQuery := .error .NoConnectionAvailable
    queryTime := seconds 5
    transfer := fun _ ↦ ⟨0, none, .ok (), 0⟩ }

theorem secondary_isSecondary :
    (ZoneMaintainer.ShortRun.secondary .AxfrOnly).isSecondary = true := rfl

/-- The zone has one primary. -/
def attempt (cause : ZoneRefreshCause) (startedAt : Instant) : Attempt :=
  { cause
    startedAt
    run := refresh (ZoneMaintainer.ShortRun.secondary .AxfrOnly) secondary_isSecondary none
      (.new soa 0) (some soa) startedAt (fun _ ↦ answers) }

def zone : TrackedZone := ⟨.new soa 0, false⟩

end Unreachable

/-- A retry that fails leaves the status of a retry in progress. -/
theorem failed_retry_in_progress :
    let done :=
      refreshZoneAndUpdateState (Unreachable.attempt .SoaRetryTimer (seconds 300)) Unreachable.zone
    done.result = .error () ∧ done.zone.info.status = .RetryInProgress ∧
      done.scheduled = some (.SoaRetryTimer, 300) := by
  exact ⟨rfl, rfl, rfl⟩

/-! ## Runs of attempts -/

def Report.checkTime : Report → Option Instant
  | .checked _ time => some time
  | _ => none

/-- The last time at which a SOA serial check succeeded, which was `before` before the run. -/
def RefreshRun.lastCheck (run : RefreshRun) (before : Instant) : Instant :=
  (run.reports.filterMap Report.checkTime).getLast?.getD before

/-- An attempt of the past: whether it failed, whether the last SOA serial check was then longer ago
than EXPIRE, and whether the zone was marked as expired when it returned. -/
structure Entry where
  failed : Bool
  overdue : Bool
  expired : Bool

/-- A zone with its past.  `lastCheck` and `expire` are what the attempts brought, apart from what is
tracked: the time of the last SOA serial check or of the creation, and the EXPIRE value in force. -/
structure History where
  zone : TrackedZone
  now : Instant
  lastCheck : Instant
  expire : UInt32
  log : List Entry

def History.overdue (h : History) (a : Attempt) : Bool :=
  decide (intoDuration h.expire < a.run.endedAt - a.run.lastCheck h.lastCheck)

def RefreshRun.failed (run : RefreshRun) : Bool := !run.result.isOk

/-- The EXPIRE value of a newer version. -/
def RefreshRun.expire (run : RefreshRun) (before : UInt32) : UInt32 :=
  match run.result with
  | .ok (some soa) => soa.expire
  | _ => before

/-- The next attempt, which may come at any time. -/
def step (h : History) (a : Attempt) : Option History :=
  if h.now ≤ a.startedAt ∧ a.startedAt ≤ a.run.endedAt then
    let done := refreshZoneAndUpdateState a h.zone
    some
      { zone := done.zone
        now := a.run.endedAt
        lastCheck := a.run.lastCheck h.lastCheck
        expire := a.run.expire h.expire
        log := h.log ++ [⟨a.run.failed, h.overdue a, done.zone.expired⟩] }
  else none

/-- The zone has just come to be tracked. -/
def Started (h : History) : Prop :=
  (∃ soa, h.zone.info = .new soa h.now) ∨ h.zone.info = .default h.now

def Fresh (h : History) : Prop :=
  Started h ∧ h.zone.expired = false ∧ h.lastCheck = h.now ∧ h.expire = h.zone.info.expire ∧
    h.log = []

/-- If the attempt fails later than EXPIRE, and the zone is not marked yet, then it is a retry and no
transfer of it got as far as a progress report. -/
def MarksOverdue (h : History) (a : Attempt) : Prop :=
  a.run.failed = true → h.overdue a = true → h.zone.expired = false →
    a.cause = .SoaRetryTimer ∧ a.run.showsProgress = false

/-- What is tracked is what the attempts brought. -/
structure Consistent (h : History) : Prop where
  expire : h.zone.info.expire = h.expire
  lastCheck : h.zone.info.lastSoaSerialCheckSucceededAt.getD h.zone.info.zoneCreatedAt = h.lastCheck

theorem foldl_lastCheck (reports : List Report) (info : ZoneRefreshInfo) :
    (reports.foldl Report.apply info).lastSoaSerialCheckSucceededAt.getD
        (reports.foldl Report.apply info).zoneCreatedAt =
      (reports.filterMap Report.checkTime).getLast?.getD
        (info.lastSoaSerialCheckSucceededAt.getD info.zoneCreatedAt) := by
  induction reports generalizing info with
  | nil => rfl
  | cons report reports ih =>
    rw [List.foldl_cons, ih]
    cases report with
    | checked serial time =>
      have hfirst : (Report.checked serial time :: reports).filterMap Report.checkTime =
          time :: reports.filterMap Report.checkTime := rfl
      rw [hfirst]
      cases hrest : reports.filterMap Report.checkTime with
      | nil => rfl
      | cons t ts => simp [List.getLast?_cons]
    | applied updates =>
      have ⟨k, hk⟩ := applyUpdates_eq info updates
      rw [List.filterMap_cons_none rfl, Report.apply, hk]
      split
      · rfl
      · rfl
    | refreshed soa time => rfl

theorem begin_lastCheck (cause : ZoneRefreshCause) (now : Instant) (info : ZoneRefreshInfo) :
    (begin cause now info).lastSoaSerialCheckSucceededAt.getD (begin cause now info).zoneCreatedAt =
      info.lastSoaSerialCheckSucceededAt.getD info.zoneCreatedAt := by
  cases cause <;> rfl

theorem begin_expire (cause : ZoneRefreshCause) (now : Instant) (info : ZoneRefreshInfo) :
    (begin cause now info).expire = info.expire := by
  cases cause <;> rfl

theorem afterRun_lastCheck (a : Attempt) {h : History} (hc : Consistent h) :
    (afterRun a h.zone.info).lastSoaSerialCheckSucceededAt.getD
        (afterRun a h.zone.info).zoneCreatedAt = a.run.lastCheck h.lastCheck := by
  rw [afterRun, foldl_lastCheck, begin_lastCheck, hc.lastCheck]
  rfl

theorem afterRun_isExpired {a : Attempt} {h : History} (hc : Consistent h)
    (hfailed : a.run.failed = true) :
    (afterRun a h.zone.info).isExpired a.run.endedAt = h.overdue a := by
  have hnot : ∀ soa time, Report.refreshed soa time ∉ a.run.reports := by
    cases hres : a.run.result with
    | error err => exact not_refreshed_of_error hres
    | ok newSoa => simp [RefreshRun.failed, hres, Except.isOk, Except.toBool] at hfailed
  have hexpire : (afterRun a h.zone.info).expire = h.expire := by
    rw [afterRun, (foldl_reports a.run.reports _ hnot).2.1, begin_expire, hc.expire]
  unfold ZoneRefreshState.isExpired History.overdue
  rw [any_checkedDurationSince, hexpire, afterRun_lastCheck a hc]

-- An attempt marks a zone exactly if it fails too late, as a retry without a progress report.
theorem attempt_expired_iff {a : Attempt} {h : History} (hc : Consistent h) :
    (refreshZoneAndUpdateState a h.zone).zone.expired = true ↔
      h.zone.expired = true ∨ (a.run.failed = true ∧ h.overdue a = true ∧
        a.cause = .SoaRetryTimer ∧ a.run.showsProgress = false) := by
  unfold refreshZoneAndUpdateState
  cases hres : a.run.result with
  | ok newSoa =>
    simp [finish, RefreshRun.failed, hres, Except.isOk, Except.toBool]
  | error err =>
    have hfailed : a.run.failed = true := by
      simp [RefreshRun.failed, hres, Except.isOk, Except.toBool]
    rw [← afterRun_status_iff hres h.zone.info, ← afterRun_isExpired hc hfailed, hfailed]
    unfold finish
    by_cases hstatus : (afterRun a h.zone.info).status = .RetryInProgress
    · simp only [if_pos hstatus]
      cases (afterRun a h.zone.info).isExpired a.run.endedAt with
      | true => simp [hstatus]
      | false => simp
    · simp [hstatus]

-- The end of an attempt changes EXPIRE only for a newer version.
theorem finish_tracked (zone : TrackedZone) (res : Outcome) (now : Instant) :
    let info := (finish zone res now).zone.info
    info.lastSoaSerialCheckSucceededAt = zone.info.lastSoaSerialCheckSucceededAt ∧
      info.zoneCreatedAt = zone.info.zoneCreatedAt ∧
      (∀ soa, res = .ok (some soa) → info.expire = soa.expire) ∧
      ((∀ soa, res ≠ .ok (some soa)) → info.expire = zone.info.expire) := by
  intro info
  cases res with
  | error err =>
    have hinfo : info = zone.info ∨ info = zone.info.setStatus .RetryPending 0 := by
      simp only [info, finish]
      split
      · split
        · exact Or.inl rfl
        · exact Or.inl rfl
      · exact Or.inr rfl
    cases hinfo with
    | inl h =>
      rw [h]
      exact ⟨rfl, rfl, nofun, fun _ ↦ rfl⟩
    | inr h =>
      rw [h]
      exact ⟨rfl, rfl, nofun, fun _ ↦ rfl⟩
  | ok newSoa =>
    cases newSoa with
    | none => exact ⟨rfl, rfl, nofun, fun _ ↦ rfl⟩
    | some soa =>
      refine ⟨rfl, rfl, ?_, fun hnot ↦ absurd rfl (hnot soa)⟩
      intro soa' hsoa'
      cases hsoa'
      rfl

theorem step_consistent {h h' : History} {a : Attempt} (hc : Consistent h)
    (hstep : step h a = some h') : Consistent h' := by
  unfold step at hstep
  split at hstep
  · cases hstep
    have hfinish := finish_tracked { h.zone with info := afterRun a h.zone.info } a.run.result
      a.run.endedAt
    constructor
    · show (refreshZoneAndUpdateState a h.zone).zone.info.expire = a.run.expire h.expire
      unfold refreshZoneAndUpdateState
      by_cases hnewer : ∃ soa, a.run.result = .ok (some soa)
      · have ⟨soa, hsoa⟩ := hnewer
        rw [hfinish.2.2.1 soa hsoa]
        simp only [RefreshRun.expire, hsoa]
      · have hnot := not_exists.mp hnewer
        have hexpire := (foldl_reports a.run.reports (begin a.cause a.startedAt h.zone.info)
          (not_refreshed hnot)).2.1
        rw [hfinish.2.2.2 hnot]
        simp only
        rw [afterRun, hexpire, begin_expire, hc.expire]
        unfold RefreshRun.expire
        split
        · rename_i soa hsoa
          exact absurd hsoa (hnot soa)
        · rfl
    · show (refreshZoneAndUpdateState a h.zone).zone.info.lastSoaSerialCheckSucceededAt.getD
        (refreshZoneAndUpdateState a h.zone).zone.info.zoneCreatedAt = a.run.lastCheck h.lastCheck
      unfold refreshZoneAndUpdateState
      rw [hfinish.1, hfinish.2.1]
      exact afterRun_lastCheck a hc
  · cases hstep

theorem started_consistent {h : History} (hs : Fresh h) : Consistent h := by
  have ⟨hstarted, _, hcheck, hexpire, _⟩ := hs
  refine ⟨hexpire.symm, ?_⟩
  rw [hcheck]
  cases hstarted with
  | inl hnew =>
    have ⟨soa, hsoa⟩ := hnew
    rw [hsoa]
    rfl
  | inr hdefault =>
    rw [hdefault]
    rfl

-- What a step adds to the log.
theorem step_log {h h' : History} {a : Attempt} (hstep : step h a = some h') :
    h'.zone = (refreshZoneAndUpdateState a h.zone).zone ∧
      h'.log = h.log ++ [⟨a.run.failed, h.overdue a, h'.zone.expired⟩] := by
  unfold step at hstep
  split at hstep
  · cases hstep
    exact ⟨rfl, rfl⟩
  · cases hstep

-- A marked zone has an attempt in its past that failed too late.
theorem expired_only_overdue {h : History} (hr : Reach step anyStep Fresh h) :
    Consistent h ∧
      (h.zone.expired = true → ∃ e ∈ h.log, e.failed = true ∧ e.overdue = true) := by
  refine hr.invariant (I := fun h ↦ Consistent h ∧
    (h.zone.expired = true → ∃ e ∈ h.log, e.failed = true ∧ e.overdue = true)) ?_ ?_
  · intro h hs
    refine ⟨started_consistent hs, ?_⟩
    intro hexp
    rw [hs.2.1] at hexp
    cases hexp
  · intro h a h' ih _ hstep
    have ⟨hzone, hlog⟩ := step_log hstep
    refine ⟨step_consistent ih.1 hstep, ?_⟩
    intro hexp
    rw [hlog]
    rw [hzone, attempt_expired_iff ih.1] at hexp
    cases hexp with
    | inl hold =>
      have ⟨e, he, hfailed⟩ := ih.2 hold
      exact ⟨e, List.mem_append_left _ he, hfailed⟩
    | inr hnow =>
      exact ⟨_, List.mem_append_right _ (List.mem_singleton.mpr rfl), hnow.1, hnow.2.1⟩

theorem overdue_marked {h : History} (hr : Reach step MarksOverdue Fresh h) :
    Consistent h ∧
      ∀ e ∈ h.log, e.failed = true → e.overdue = true → e.expired = true := by
  refine hr.invariant (I := fun h ↦ Consistent h ∧
    ∀ e ∈ h.log, e.failed = true → e.overdue = true → e.expired = true) ?_ ?_
  · intro h hs
    refine ⟨started_consistent hs, ?_⟩
    intro e he
    rw [hs.2.2.2.2] at he
    cases he
  · intro h a h' ih hok hstep
    have ⟨hzone, hlog⟩ := step_log hstep
    refine ⟨step_consistent ih.1 hstep, ?_⟩
    intro e he hfailed hoverdue
    rw [hlog] at he
    cases List.mem_append.mp he with
    | inl hold => exact ih.2 e hold hfailed hoverdue
    | inr hnew =>
      rw [List.mem_singleton.mp hnew] at hfailed hoverdue ⊢
      simp only at hfailed hoverdue ⊢
      rw [hzone, attempt_expired_iff ih.1]
      by_cases hexp : h.zone.expired = true
      · exact Or.inl hexp
      · have hmarks := hok hfailed hoverdue (Bool.eq_false_iff.mpr hexp)
        exact Or.inr ⟨hfailed, hoverdue, hmarks⟩

/-- In every run of attempts in which those that fail too late, while the zone is not marked, are
retries without a progress report: whenever an attempt has failed later than EXPIRE after the last
SOA serial check, the zone was marked as expired when it returned.  And in every run whatsoever in
which no attempt has failed so late, the zone is not marked. -/
theorem failed_past_expire_marks (h : History) :
    (Reach step MarksOverdue Fresh h →
      ∀ e ∈ h.log, e.failed = true → e.overdue = true → e.expired = true) ∧
      (Reach step anyStep Fresh h →
        (∀ e ∈ h.log, e.failed = true → e.overdue = false) → h.zone.expired = false) := by
  refine ⟨fun hr ↦ (overdue_marked hr).2, ?_⟩
  intro hr hnever
  apply Bool.eq_false_iff.mpr
  intro hexp
  have ⟨e, he, hfailed, hoverdue⟩ := (expired_only_overdue hr).2 hexp
  rw [hnever e he hfailed] at hoverdue
  cases hoverdue

namespace Unreachable

def start : History := ⟨zone, 0, 0, 3600, []⟩

theorem fresh : Fresh start := ⟨Or.inl ⟨soa, rfl⟩, rfl, rfl, rfl, rfl⟩

/-- The zone after one attempt. -/
def after (cause : ZoneRefreshCause) (startedAt : Instant) : History :=
  { zone := (refreshZoneAndUpdateState (attempt cause startedAt) zone).zone
    now := startedAt + seconds 5
    lastCheck := 0
    expire := 3600
    log := [⟨true, decide (seconds 3600 < startedAt + seconds 5),
      (refreshZoneAndUpdateState (attempt cause startedAt) zone).zone.expired⟩] }

end Unreachable

/-- A retry that fails past EXPIRE, and one that fails before. -/
theorem retry_marks :
    (∀ e ∈ (Unreachable.after .SoaRetryTimer (seconds 7200)).log, e.failed = true → e.overdue = true →
      e.expired = true) ∧
      (Unreachable.after .SoaRetryTimer (seconds 300)).zone.expired = false := by
  have hlate : Reach step MarksOverdue Fresh (Unreachable.after .SoaRetryTimer (seconds 7200)) := by
    apply Reach.next (a := Unreachable.attempt .SoaRetryTimer (seconds 7200)) (.start Unreachable.fresh)
    · exact fun _ _ _ ↦ ⟨rfl, rfl⟩
    · rfl
  have hearly : Reach step anyStep Fresh (Unreachable.after .SoaRetryTimer (seconds 300)) :=
    .next (a := Unreachable.attempt .SoaRetryTimer (seconds 300)) (.start Unreachable.fresh) trivial rfl
  refine ⟨(failed_past_expire_marks _).1 hlate, (failed_past_expire_marks _).2 hearly ?_⟩
  intro e he _
  rw [List.mem_singleton.mp he]
  rfl

/-- The first refresh of a zone that is loaded with a REFRESH beyond its EXPIRE fails too late and
does not mark it. -/
theorem late_refresh_not_marked :
    Reach step anyStep Fresh (Unreachable.after .SoaRefreshTimerAfterZoneAdded (seconds 7200)) ∧
      (Unreachable.after .SoaRefreshTimerAfterZoneAdded (seconds 7200)).log = [⟨true, true, false⟩] := by
  refine ⟨.next (a := Unreachable.attempt .SoaRefreshTimerAfterZoneAdded (seconds 7200))
    (.start Unreachable.fresh) trivial rfl, rfl⟩

end RefreshAttempt

end Cascade
