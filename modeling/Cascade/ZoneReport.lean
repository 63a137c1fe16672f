import Cascade.RefreshAttempt

/-!
# Status reports

The text of a status report on a zone, and over all histories of what is tracked of the refreshes of
a zone whether the report can be written: it takes two serials for granted once something was
recorded together with them.
-/

namespace Cascade

open Lib

namespace ZoneReport

/-! ## The text -/

/-- `Duration::as_secs` in decimal. -/
def secondsText (duration : Nat) : String := toString (duration / seconds 1)

def ago (now : Instant) (at' : Instant) : String :=
  match checkedDurationSince now at' with
  | some duration => secondsText duration ++ "s ago"
  | none => "unknown"

def agoOrNever (now : Instant) (at' : Option Instant) : String := at'.elim "never" (ago now)

def serialText (serial : Serial) : String := toString serial.val.toNat

def statusText (status : ZoneRefreshStatus) (updatesApplied : Nat) : String :=
  match status with
  | .RefreshPending => "refresh pending"
  | .RefreshInProgress =>
    "refresh in progress (" ++ toString updatesApplied ++ " updates applied)"
  | .RetryPending => "retrying"
  | .RetryInProgress => "retry in progress"
  | .NotifyInProgress => "notify in progress"

/-- The line on the last refresh, if there was one; `none` is the panic of an `unwrap`. -/
def refreshedLine (info : ZoneRefreshInfo) (now : Instant) : Option String :=
  match info.lastRefreshedAt with
  | none => some ""
  | some lastRefreshedAt =>
    info.lastRefreshSucceededSerial.map (fun serial ↦
      "        serial: " ++ serialText serial ++ " (" ++ ago now lastRefreshedAt ++ ")\n")

/-- When the last SOA serial check succeeded; `none` is the panic of an `unwrap`. -/
def checkText (info : ZoneRefreshInfo) (now : Instant) : Option String :=
  match info.lastSoaSerialCheckSucceededAt with
  | none => some "never"
  | some at' =>
    match checkedDurationSince now at' with
    | none => some "unknown"
    | some duration =>
      info.lastSoaSerialCheckSerial.map (fun serial ↦
        secondsText duration ++ "s ago (serial: " ++ serialText serial ++ ")")

inductive ZoneReportDetails
  | Primary
  | PendingSecondary (state : ZoneRefreshInfo)
  | Secondary (state : ZoneRefreshInfo)

/-- The text for a secondary zone. -/
def secondaryText (state : ZoneRefreshInfo) (now : Instant) : Option String := do
  let refreshed ← refreshedLine state now
  let checked ← checkText state now
  some ("        type: secondary\n" ++
    "        created at: " ++ ago now state.zoneCreatedAt ++ "\n" ++
    "        state: " ++ statusText state.status state.updatesApplied ++ "\n" ++
    refreshed ++
    "        last refresh phase started at: " ++
      agoOrNever now state.lastRefreshPhaseStartedAt ++ "\n" ++
    "        last refresh attempted at: " ++ agoOrNever now state.lastRefreshAttemptedAt ++ "\n" ++
    "        last successful soa check at: " ++ checked ++ "\n" ++
    "        last soa check attempted at: " ++ checked ++ "\n")

/-- `ZoneReportDetails::fmt` -/
def fmt (details : ZoneReportDetails) (now : Instant) : Option String :=
  match details with
  | .Primary => some "        type: primary\n        state: ok\n"
  | .PendingSecondary state | .Secondary state => secondaryText state now

/-- Each time comes with its serial. -/
structure Paired (info : ZoneRefreshInfo) : Prop where
  checked : info.lastSoaSerialCheckSucceededAt.isSome = true →
    info.lastSoaSerialCheckSerial.isSome = true
  refreshed : info.lastRefreshedAt.isSome = true → info.lastRefreshSucceededSerial.isSome = true

-- The two places where a text can panic.
theorem refreshedLine_isSome {info : ZoneRefreshInfo} (h : Paired info) (now : Instant) :
    (refreshedLine info now).isSome = true := by
  have hpair := h.refreshed
  unfold refreshedLine
  cases hat : info.lastRefreshedAt with
  | none => rfl
  | some at' =>
    rw [hat] at hpair
    simpa using hpair rfl

theorem checkText_isSome {info : ZoneRefreshInfo} (h : Paired info) (now : Instant) :
    (checkText info now).isSome = true := by
  have hpair := h.checked
  unfold checkText
  cases hat : info.lastSoaSerialCheckSucceededAt with
  | none => rfl
  | some at' =>
    rw [hat] at hpair
    simp only
    cases checkedDurationSince now at' with
    | none => rfl
    | some duration => simpa using hpair rfl

theorem secondaryText_isSome {info : ZoneRefreshInfo} (h : Paired info) (now : Instant) :
    (secondaryText info now).isSome = true := by
  have ⟨refreshed, hrefreshed⟩ := Option.isSome_iff_exists.mp (refreshedLine_isSome h now)
  have ⟨checked, hchecked⟩ := Option.isSome_iff_exists.mp (checkText_isSome h now)
  unfold secondaryText
  rw [hrefreshed, hchecked]
  rfl

/-! ## Histories -/

/-- What the refresh code does with what is tracked. -/
inductive Update
  | attemptStarted (newPhase : Bool) (now : Instant)
  | setStatus (status : ZoneRefreshStatus) (updatesApplied : Nat)
  | soaSerialCheckSucceeded (serial : Option Serial) (now : Instant)
  | refreshSucceeded (newSoa : Soa) (now : Instant)

def Update.apply (info : ZoneRefreshInfo) : Update → ZoneRefreshInfo
  | .attemptStarted newPhase now =>
    { info with
      lastRefreshPhaseStartedAt := if newPhase then some now else info.lastRefreshPhaseStartedAt
      lastRefreshAttemptedAt := some now }
  | .setStatus status updatesApplied => info.setStatus status updatesApplied
  | .soaSerialCheckSucceeded serial now => info.soaSerialCheckSucceeded serial now
  | .refreshSucceeded newSoa now => info.refreshSucceeded newSoa now

def step (info : ZoneRefreshInfo) (update : Update) : Option ZoneRefreshInfo :=
  some (update.apply info)

def Created (info : ZoneRefreshInfo) : Prop :=
  ∃ now, info = .default now ∨ ∃ soa, info = .new soa now

/-- The first SOA serial check that succeeds finds a newer serial. -/
def SerialKnown (info : ZoneRefreshInfo) : Update → Prop
  | .soaSerialCheckSucceeded none _ => info.lastSoaSerialCheckSerial.isSome = true
  | _ => True

theorem created_paired {info : ZoneRefreshInfo} (h : Created info) : Paired info := by
  have ⟨now, hinfo⟩ := h
  cases hinfo with
  | inl hdefault =>
    rw [hdefault]
    exact ⟨nofun, nofun⟩
  | inr hnew =>
    have ⟨soa, hsoa⟩ := hnew
    rw [hsoa]
    exact ⟨nofun, nofun⟩

theorem update_refreshed {info : ZoneRefreshInfo} (update : Update)
    (h : info.lastRefreshedAt.isSome = true → info.lastRefreshSucceededSerial.isSome = true) :
    (update.apply info).lastRefreshedAt.isSome = true →
      (update.apply info).lastRefreshSucceededSerial.isSome = true := by
  cases update with
  | attemptStarted newPhase now => exact h
  | setStatus status updatesApplied => exact h
  | soaSerialCheckSucceeded serial now => exact h
  | refreshSucceeded newSoa now => exact fun _ ↦ rfl

theorem update_paired {info : ZoneRefreshInfo} {update : Update} (h : Paired info)
    (hok : SerialKnown info update) : Paired (update.apply info) := by
  refine ⟨?_, update_refreshed update h.refreshed⟩
  cases update with
  | attemptStarted newPhase now => exact h.checked
  | setStatus status updatesApplied => exact h.checked
  | refreshSucceeded newSoa now => exact h.checked
  | soaSerialCheckSucceeded serial now =>
    intro _
    cases serial with
    | some serial => rfl
    | none => exact hok

/-- In every history in which the first SOA serial check that succeeds finds a newer serial, each
recorded time comes with its serial, and no report on the zone panics. -/
theorem report_written {info : ZoneRefreshInfo} (h : Reach step SerialKnown Created info) :
    Paired info ∧ ∀ now, (fmt .Primary now).isSome = true ∧
      (fmt (.PendingSecondary info) now).isSome = true ∧
      (fmt (.Secondary info) now).isSome = true := by
  have hpaired : Paired info := by
    refine h.invariant (fun _ hc ↦ created_paired hc) ?_
    intro s a s' hs hok hstep
    cases hstep
    exact update_paired hs hok
  refine ⟨hpaired, fun now ↦ ⟨rfl, ?_, ?_⟩⟩
  · exact secondaryText_isSome hpaired now
  · exact secondaryText_isSome hpaired now

/-! ## Attempts as histories -/

open RefreshAttempt

def progressUpdates : Nat → List Update
  | 0 => []
  | n + 1 =>
    progressUpdates n ++
      if (n + 1) % 10000 = 0 then [.setStatus .RefreshInProgress (n + 1)] else []

def reportUpdates : Report → List Update
  | .checked serial time => [.soaSerialCheckSucceeded serial time]
  | .applied updates => progressUpdates updates
  | .refreshed soa time => [.refreshSucceeded soa time]

def beginUpdates (cause : ZoneRefreshCause) (now : Instant) : List Update :=
  match cause with
  | .SoaRetryTimer => [.attemptStarted false now, .setStatus .RetryInProgress 0]
  | _ => [.attemptStarted true now, .setStatus .RefreshInProgress 0]

theorem foldl_progressUpdates (info : ZoneRefreshInfo) (n : Nat) :
    (progressUpdates n).foldl Update.apply info = info.applyUpdates n := by
  induction n with
  | zero => rfl
  | succ n ih =>
    rw [progressUpdates, List.foldl_append, ih, ZoneRefreshInfo.applyUpdates]
    split
    · rfl
    · rfl

theorem foldl_reportUpdates (info : ZoneRefreshInfo) (report : Report) :
    (reportUpdates report).foldl Update.apply info = report.apply info := by
  cases report with
  | checked serial time => rfl
  | applied updates => exact foldl_progressUpdates info updates
  | refreshed soa time => rfl

theorem foldl_beginUpdates (cause : ZoneRefreshCause) (now : Instant) (info : ZoneRefreshInfo) :
    (beginUpdates cause now).foldl Update.apply info = begin cause now info := by
  cases cause <;> rfl

-- What an attempt does before its end is a history of these updates.
theorem afterRun_eq (a : Attempt) (info : ZoneRefreshInfo) :
    afterRun a info =
      (beginUpdates a.cause a.startedAt ++ a.run.reports.flatMap reportUpdates).foldl Update.apply
        info := by
  rw [List.foldl_append, foldl_beginUpdates, afterRun]
  generalize begin a.cause a.startedAt info = begun
  induction a.run.reports generalizing begun with
  | nil => rfl
  | cons report reports ih =>
    rw [List.foldl_cons, ih, List.flatMap_cons, List.foldl_append, foldl_reportUpdates]

theorem exec_updates (updates : List Update) (info : ZoneRefreshInfo) :
    exec step info updates = some (updates.foldl Update.apply info) := by
  induction updates generalizing info with
  | nil => rfl
  | cons update updates ih => exact ih (update.apply info)

theorem afterRun_reach (a : Attempt) {info : ZoneRefreshInfo}
    (h : Reach step anyStep Created info) : Reach step anyStep Created (afterRun a info) := by
  rw [afterRun_eq]
  exact Reach.exec_any h _ (exec_updates _ info)

theorem finish_reach (zone : TrackedZone) (h : Reach step anyStep Created zone.info)
    (res : Primaries.Outcome) (now : Instant) :
    Reach step anyStep Created (finish zone res now).zone.info := by
  unfold finish
  cases res with
  | error err =>
    simp only
    split
    · split
      · exact h
      · exact h
    · exact h.next (a := .setStatus .RetryPending 0) trivial rfl
  | ok newSoa =>
    cases newSoa with
    | none => exact h.next (a := .setStatus .RefreshPending 0) trivial rfl
    | some soa =>
      have hrefreshed := h.next (a := .refreshSucceeded soa now) trivial rfl
      exact hrefreshed.next (a := .setStatus .RefreshPending 0) trivial rfl

-- So the histories reach what any sequence of attempts leaves.
theorem attempt_reach (a : Attempt) {zone : TrackedZone}
    (h : Reach step anyStep Created zone.info) :
    Reach step anyStep Created (refreshZoneAndUpdateState a zone).zone.info :=
  finish_reach { zone with info := afterRun a zone.info } (afterRun_reach a h) _ _

/-! ## A zone that is up to date -/

namespace UpToDate

def soa : Soa := ZoneMaintainer.ShortRun.soa

/-- The primary has the version that the zone holds. -/
def answers : Answers :=
  { soaQuery := .ok soa.serial
    queryTime := seconds 5
    transfer := fun _ ↦ ⟨0, none, .ok (), 0⟩ }

def attempt : Attempt :=
  { cause := .SoaRefreshTimerAfterZoneAdded
    startedAt := seconds 3600
    run := refresh (ZoneMaintainer.ShortRun.secondary .AxfrOnly) Unreachable.secondary_isSecondary
      none (.new soa 0) (some soa) (seconds 3600) (fun _ ↦ answers) }

/-- What is tracked after the first refresh since the zone was loaded. -/
def info : ZoneRefreshInfo := (refreshZoneAndUpdateState attempt ⟨.new soa 0, false⟩).zone.info

theorem created : Reach step anyStep Created (.new soa 0) := .start ⟨0, Or.inr ⟨soa, rfl⟩⟩

end UpToDate

/-- A new version, and then a check that finds no other. -/
theorem checked_twice_written :
    (fmt (.Secondary ((ZoneRefreshInfo.default 0).soaSerialCheckSucceeded (some ⟨1⟩) (seconds 5)
      |>.soaSerialCheckSucceeded none (seconds 3600))) (seconds 3700)).isSome = true := by
  have hstart : Reach step SerialKnown Created (.default 0) := .start ⟨0, Or.inl rfl⟩
  have hfirst := hstart.next (a := Update.soaSerialCheckSucceeded (some ⟨1⟩) (seconds 5)) trivial rfl
  have hsecond := hfirst.next (a := Update.soaSerialCheckSucceeded none (seconds 3600)) rfl rfl
  exact ((report_written hsecond).2 (seconds 3700)).2.2

/-- The first check finds that a zone that was loaded with its data is up to date: its time is
recorded without a serial, and the report on the zone panics. -/
theorem up_to_date_report_panics :
    Reach step anyStep Created UpToDate.info ∧ ¬Paired UpToDate.info ∧
      fmt (.Secondary UpToDate.info) (seconds 3700) = none := by
  refine ⟨attempt_reach UpToDate.attempt UpToDate.created, ?_, rfl⟩
  intro h
  exact absurd (h.checked rfl) (by decide)

end ZoneReport

end Cascade
