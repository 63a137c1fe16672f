import Cascade.Acl
import Cascade.Lib.Channel
import Cascade.Lib.HashMap
import Cascade.Lib.Heap
import Cascade.Lib.Runs

/-!
# The zone maintainer

The run loop of `ZoneMaintainer` and the tasks around it: the callers of `insert_zone`, and the
tasks that the loop spawns for refresh timers and for NOTIFYs.  They share the pending zones and the
time tracking, each behind a lock, the active zones, which are replaced as a whole, and a bounded
channel of events that only the loop receives from.  A step is one access of one task to what is
shared; what the network answers is an input of the step.  The zones are written through, so what a
transfer deletes or adds is gone or there at once, whether the transfer ends well or not.

Locks are granted in any order.  The time since the last refresh is never below the minimum
between two refreshes, which is zero, so that check is left out, as is the status report that
nothing asks for.
-/

namespace Cascade

open Lib

structure ZoneId where
  name : Name
  zoneClass : Class
deriving DecidableEq

inductive XfrType
  | AXFR
  | IXFR
deriving DecidableEq

namespace XfrConfig

/-- The kind of transfer in the `i`-th round of `refresh_zone_from_addr`. -/
def xfrType (config : XfrConfig) (currentSerial : Option Serial) (i : Nat) : Option XfrType :=
  match config.strategy with
  | .None => none
  | .AxfrOnly => some .AXFR
  | .IxfrOnly => some .IXFR
  | .IxfrWithAxfrFallback =>
    if i = 0 then
      match currentSerial with
      | some _ => some .IXFR
      | none => some .AXFR
    else some .AXFR

/-- AXFR is always by TCP. -/
def allows (config : XfrConfig) : XfrType → Bool
  | .AXFR => true
  | .IXFR => config.ixfrTransport ≠ .None

/-- The transfers of the two rounds. -/
def transfers (config : XfrConfig) (currentSerial : Option Serial) : List XfrType :=
  ([0, 1].filterMap (config.xfrType currentSerial)).filter config.allows

end XfrConfig

/-- A zone with its settings; of its content no more than the apex SOA record is looked at. -/
structure MaintainedZone where
  config : ZoneConfig
  soa : Option Soa
  expired : Bool

abbrev MemberZones := HashMap ZoneId Handle

inductive ZoneError
  | TemporarilyUnavailable
deriving DecidableEq

/-! ## Refreshing -/

/-- How many records a transfer has brought so far is shown only. -/
inductive ZoneRefreshStatus
  | RefreshPending
  | RefreshInProgress
  | RetryPending
  | RetryInProgress
  | NotifyInProgress
deriving DecidableEq

structure ZoneRefreshState where
  refresh : UInt32
  retry : UInt32
  expire : UInt32
  status : ZoneRefreshStatus
  zoneCreatedAt : Instant
  lastSoaSerialCheckSucceededAt : Option Instant

namespace ZoneRefreshState

def new (soa : Soa) (now : Instant) : ZoneRefreshState :=
  ⟨soa.refresh, soa.retry, soa.expire, .RefreshPending, now, none⟩

def default (now : Instant) : ZoneRefreshState := ⟨0, 300, 3600, .RefreshPending, now, none⟩

def isExpired (s : ZoneRefreshState) (now : Instant) : Bool :=
  (checkedDurationSince now (s.lastSoaSerialCheckSucceededAt.getD s.zoneCreatedAt)).any
    (fun duration ↦ decide (intoDuration s.expire < duration))

def refreshSucceeded (s : ZoneRefreshState) (newSoa : Soa) : ZoneRefreshState :=
  { s with refresh := newSoa.refresh, retry := newSoa.retry, expire := newSoa.expire
           status := .RefreshPending }

def soaSerialCheckSucceeded (s : ZoneRefreshState) (now : Instant) : ZoneRefreshState :=
  { s with lastSoaSerialCheckSucceededAt := some now }

end ZoneRefreshState

inductive ZoneRefreshCause
  | ManualTrigger
  | NotifyFromPrimary (addr : IpAddr)
  | SoaRefreshTimer
  | SoaRefreshTimerAfterStartup
  | SoaRefreshTimerAfterZoneAdded
  | SoaRetryTimer

structure ZoneRefreshInstant where
  cause : ZoneRefreshCause
  zoneId : ZoneId
  endInstant : Instant

def ZoneRefreshInstant.new (now : Instant) (zoneId : ZoneId) (refresh : UInt32)
    (cause : ZoneRefreshCause) : ZoneRefreshInstant :=
  ⟨cause, zoneId, now + intoDuration refresh⟩

/-- A zone has one timer, the one that fires first. -/
def refreshZoneAt (timers : List ZoneRefreshInstant) (new : ZoneRefreshInstant) :
    List ZoneRefreshInstant :=
  match timers with
  | [] => [new]
  | timer :: timers =>
    if timer.zoneId = new.zoneId then
      if timer.endInstant < new.endInstant then timer :: timers else new :: timers
    else timer :: refreshZoneAt timers new

inductive Event
  | ZoneRefreshRequested (cause : ZoneRefreshCause) (zoneId : ZoneId) (after : Option UInt32)
  | ZoneChanged (zoneId : ZoneId) (source : Option IpAddr)
  | ZoneAdded (zoneId : ZoneId)

namespace ZoneMaintainer

abbrev TaskId := Nat

/-- A call of `refresh_zone_and_update_state`, and whether the zone was found among the pending
ones. -/
structure Refresh where
  cause : ZoneRefreshCause
  zoneId : ZoneId
  handle : Handle
  isPending : Bool

/-- The primaries that are still to be asked, the current one included, the number of those that
have answered that no transfer is needed or allowed, and whether one of them has failed. -/
structure Primaries where
  currentSerial : Option Serial
  remaining : List (SocketAddr × XfrConfig)
  numOk : Nat
  savedErr : Bool

/-- The current primary has failed. -/
def Primaries.failed (primaries : Primaries) : Primaries := { primaries with savedErr := true }

inductive RefreshStage
  | starting (initialXfrAddr : Option SocketAddr)
  | reading (initialXfrAddr : Option SocketAddr)
  | querying (primaries : Primaries)
  | requesting (primaries : Primaries) (transfers : List XfrType)
  | transferring (primaries : Primaries) (transfers : List XfrType)
  | changed (primaries : Primaries) (transfers : List XfrType)
  | finishing (res : Except Unit (Option Soa))
  | rescheduled (ok : Bool)
  | migrated

/-- Where a task is.  From the lookup of its zone on, a task that was spawned for a timer or a NOTIFY
holds the read guard of the pending zones, and while it asks for the next refresh
(`rescheduled`) also the write guard of the time tracking. -/
inductive Task
  | timer (cause : ZoneRefreshCause) (zoneId : ZoneId) (zones : MemberZones)
  | known (cause : ZoneRefreshCause) (zoneId : ZoneId) (zones : MemberZones)
  | notify (zoneId : ZoneId) (source : Option IpAddr) (zones : MemberZones)
  | notifying
  | asked (source : IpAddr) (refresh : Refresh)
  | accepted (source : IpAddr) (refresh : Refresh)
  | refresh (refresh : Refresh) (stage : RefreshStage)
  | insert (zoneId : ZoneId) (handle : Handle) (newZones : MemberZones)
  | announcing (zoneId : ZoneId) (newZones : MemberZones)
  | storing (newZones : MemberZones)
  | loading
  | updating (zones : MemberZones)
  | sending (event : Event)
  | ended

/-- Where the run loop is.  From `tracking` to `updating` it holds the write guard of the pending
zones. -/
inductive RunLoop
  | idle
  | added (zoneId : ZoneId)
  | tracking (zoneId : ZoneId) (handle : Handle)
  | promoting (zoneId : ZoneId) (handle : Handle) (soaRefresh : UInt32)
  | storing (zoneId : ZoneId) (soaRefresh : UInt32) (newZones : MemberZones)
  | loading (zoneId : ZoneId) (soaRefresh : UInt32)
  | updating (zoneId : ZoneId) (soaRefresh : UInt32) (zones : MemberZones)
  | panicked

def Task.holdsPending : Task → Bool
  | .notifying | .asked _ _ | .accepted _ _ | .refresh _ _ => true
  | _ => false

def Task.holdsTracking : Task → Bool
  | .refresh _ (.rescheduled _) => true
  | _ => false

def RunLoop.holdsPending : RunLoop → Bool
  | .idle | .added _ | .panicked => false
  | _ => true

end ZoneMaintainer

open ZoneMaintainer in
structure ZoneMaintainer where
  now : Instant
  zoneHeap : Heap ZoneId MaintainedZone
  pendingZones : HashMap ZoneId Handle
  memberZones : MemberZones
  loadedArc : MemberZones
  channel : Channel TaskId Event
  timeTracking : HashMap ZoneId ZoneRefreshState
  refreshTimers : List ZoneRefreshInstant
  tasks : List Task
  runLoop : RunLoop

namespace ZoneMaintainer

/-- The capacity of the channel. -/
def capacity : Nat := 10

def new : ZoneMaintainer where
  now := 0
  zoneHeap := Heap.empty
  pendingZones := ∅
  memberZones := ∅
  loadedArc := ∅
  channel := Channel.empty
  timeTracking := ∅
  refreshTimers := []
  tasks := []
  runLoop := .idle

/-- Nobody holds the lock of the pending zones for writing. -/
def pendingReadable (m : ZoneMaintainer) : Bool := !m.runLoop.holdsPending

/-- Nobody holds the lock of the pending zones. -/
def pendingFree (m : ZoneMaintainer) : Bool :=
  m.pendingReadable && !m.tasks.any Task.holdsPending

/-- Nobody holds the lock of the time tracking. -/
def trackingFree (m : ZoneMaintainer) : Bool := !m.tasks.any Task.holdsTracking

def spawn (m : ZoneMaintainer) (task : Task) : ZoneMaintainer :=
  { m with tasks := m.tasks ++ [task] }

def setTask (m : ZoneMaintainer) (i : TaskId) (task : Task) : ZoneMaintainer :=
  { m with tasks := m.tasks.set i task }

/-- The task `i` sends an event, and is at `task` when it has been sent. -/
def sendFrom (m : ZoneMaintainer) (i : TaskId) (event : Event) (task : Task) : ZoneMaintainer :=
  { m.setTask i task with channel := m.channel.send capacity i event }

def track (m : ZoneMaintainer) (zoneId : ZoneId) (info : ZoneRefreshState) : ZoneMaintainer :=
  { m with timeTracking := m.timeTracking.insert zoneId info }

/-- Changes what is recorded of a zone, if anything is. -/
def retrack (m : ZoneMaintainer) (zoneId : ZoneId) (f : ZoneRefreshState → ZoneRefreshState) :
    ZoneMaintainer :=
  match m.timeTracking.lookup zoneId with
  | some info => m.track zoneId (f info)
  | none => m

def isSecondary (m : ZoneMaintainer) (zoneId : ZoneId) (handle : Handle) : Bool :=
  (m.zoneHeap.get zoneId handle).any (fun zone ↦ zone.config.isSecondary)

def soa (m : ZoneMaintainer) (zoneId : ZoneId) (handle : Handle) : Option Soa :=
  (m.zoneHeap.get zoneId handle).bind MaintainedZone.soa

/-! ## The run loop -/

/-- Receives an event, and handles it at once unless it needs the lock of the pending zones. -/
def receive (m : ZoneMaintainer) : Option ZoneMaintainer :=
  match m.runLoop, m.channel.receive with
  | .idle, some (event, channel) =>
    let m := { m with channel := channel }
    match event with
    | .ZoneChanged zoneId source => some (m.spawn (.notify zoneId source m.loadedArc))
    | .ZoneAdded zoneId => some { m with runLoop := .added zoneId }
    | .ZoneRefreshRequested cause zoneId after =>
      let timer := ZoneRefreshInstant.new m.now zoneId (after.getD 0) cause
      some { m with refreshTimers := refreshZoneAt m.refreshTimers timer }
  | _, _ => none

/-- `on_refresh_timer`: a timer is looked at only when there is no event. -/
def fire (m : ZoneMaintainer) (k : Nat) : Option ZoneMaintainer :=
  match m.runLoop, m.channel.events, m.refreshTimers[k]? with
  | .idle, [], some timer =>
    if timer.endInstant ≤ m.now then
      some ({ m with refreshTimers := m.refreshTimers.eraseIdx k }.spawn
        (.timer timer.cause timer.zoneId m.loadedArc))
    else none
  | _, _, _ => none

/-- The timer that `on_zone_added` sets. -/
def scheduleAdded (m : ZoneMaintainer) (zoneId : ZoneId) (soaRefresh : Option UInt32) :
    ZoneMaintainer :=
  let timer := ZoneRefreshInstant.new m.now zoneId (soaRefresh.getD 0) .SoaRefreshTimerAfterZoneAdded
  { m with refreshTimers := refreshZoneAt m.refreshTimers timer, runLoop := .idle }

/-- `track_zone_freshness`: the recorded refresh time of a secondary zone, which is recorded now if
the zone is new and not empty. -/
def trackZoneFreshness (m : ZoneMaintainer) (zoneId : ZoneId) (handle : Handle) :
    Except Unit (Option UInt32) × ZoneMaintainer :=
  if m.isSecondary zoneId handle then
    match m.timeTracking.lookup zoneId, m.soa zoneId handle with
    | none, some soa => (.ok (some soa.refresh), m.track zoneId (.new soa m.now))
    | none, none => (.ok none, m.track zoneId (.default m.now))
    | some info, _ => (.ok (some info.refresh), m)
  else (.error (), m)

/-- The next step of `on_zone_added`. -/
def loopNext (m : ZoneMaintainer) : Option ZoneMaintainer :=
  match m.runLoop with
  | .added zoneId =>
    if m.pendingFree then
      match m.pendingZones.lookup zoneId with
      | some handle => some { m with runLoop := .tracking zoneId handle }
      | none => some { m with runLoop := .idle }
    else none
  | .tracking zoneId handle =>
    if m.trackingFree then
      match m.trackZoneFreshness zoneId handle with
      | (.ok (some soaRefresh), m) =>
        some { m with pendingZones := m.pendingZones.erase zoneId
                      runLoop := .promoting zoneId handle soaRefresh }
      | (.ok none, m) => some (m.scheduleAdded zoneId none)
      | (.error (), m) => some { m with runLoop := .idle }
    else none
  | .promoting zoneId handle soaRefresh =>
    if zoneId ∈ m.loadedArc then some { m with runLoop := .panicked }
    else
      some { m with runLoop := .storing zoneId soaRefresh (m.loadedArc.insert zoneId handle) }
  | .storing zoneId soaRefresh newZones =>
    some { m with memberZones := newZones, runLoop := .loading zoneId soaRefresh }
  | .loading zoneId soaRefresh =>
    some { m with runLoop := .updating zoneId soaRefresh m.memberZones }
  | .updating zoneId soaRefresh zones =>
    some ({ m with loadedArc := zones }.scheduleAdded zoneId (some soaRefresh))
  | .idle | .panicked => none

/-! ## The tasks -/

/-- What a task learns from outside.  An update of a transfer other than a commit leaves the zone with
or without an apex SOA record (`write`): the first one of an AXFR deletes all records. -/
inductive Input
  | next
  | knownPrimary (known : Bool)
  | soaAnswer (serial : Option Serial)
  | write (soa : Option Soa)
  | commit (soa : Soa)
  | progress
  | finished
  | notImplemented
  | failed

/-- `insert_zone` -/
def insertNext (m : ZoneMaintainer) (i : TaskId) : Task → Option ZoneMaintainer
  | .insert zoneId handle newZones =>
    if m.isSecondary zoneId handle then
      if m.pendingFree then
        some ({ m with pendingZones := m.pendingZones.insert zoneId handle }.setTask i
          (.announcing zoneId newZones))
      else none
    else if zoneId ∈ newZones then some (m.setTask i .ended)
    else some (m.setTask i (.announcing zoneId (newZones.insert zoneId handle)))
  | .announcing zoneId newZones => some (m.sendFrom i (.ZoneAdded zoneId) (.storing newZones))
  | .storing newZones => some ({ m with memberZones := newZones }.setTask i .loading)
  | .loading => some (m.setTask i (.updating m.memberZones))
  | .updating zones => some ({ m with loadedArc := zones }.setTask i .ended)
  | .sending event => some (m.sendFrom i event .ended)
  | _ => none

/-- The task of a refresh timer until it starts to refresh. -/
def timerNext (m : ZoneMaintainer) (i : TaskId) : Task → Option ZoneMaintainer
  | .timer cause zoneId zones =>
    if m.trackingFree then
      if zoneId ∈ m.timeTracking then some (m.setTask i (.known cause zoneId zones))
      else some (m.setTask i .ended)
    else none
  | .known cause zoneId zones =>
    if m.pendingReadable then
      match (m.pendingZones.lookup zoneId).map (fun handle ↦ (true, handle)) <|>
          (zones.lookup zoneId).map (fun handle ↦ (false, handle)) with
      | none => some (m.setTask i .ended)
      | some (isPending, handle) =>
        if m.isSecondary zoneId handle then
          some (m.setTask i (.refresh ⟨cause, zoneId, handle, isPending⟩ (.starting none)))
        else some (m.setTask i .ended)
    else none
  | _ => none

/-- `handle_notify` until it starts to refresh. -/
def notifyNext (m : ZoneMaintainer) (i : TaskId) : Task → Input → Option ZoneMaintainer
  | .notify zoneId source zones, .next =>
    if m.pendingReadable then
      match (zones.lookup zoneId).map (fun handle ↦ (false, handle)) <|>
          (m.pendingZones.lookup zoneId).map (fun handle ↦ (true, handle)), source with
      | none, _ => some (m.setTask i .ended)
      | some _, none => some (m.setTask i .notifying)
      | some (isPending, handle), some source =>
        some (m.setTask i
          (.asked source ⟨.NotifyFromPrimary source, zoneId, handle, isPending⟩))
    else none
  | .notifying, .next => some (m.setTask i .ended)
  | .asked source refresh, .knownPrimary known =>
    some (m.setTask i (if known then .accepted source refresh else .ended))
  | .accepted source refresh, .next =>
    if m.trackingFree then
      match m.timeTracking.lookup refresh.zoneId with
      | none => some (m.setTask i .ended)
      | some info =>
        if info.status = .NotifyInProgress then some (m.setTask i .ended)
        else
          some ((m.track refresh.zoneId { info with status := .NotifyInProgress }).setTask i
            (.refresh refresh (.starting (some (.new source ianaDnsPortNumber)))))
    else none
  | _, _ => none

/-- The primaries in the order in which `refresh_zone` visits them. -/
def primaryAddrs (config : ZoneConfig) (initialXfrAddr : Option SocketAddr) :
    List (SocketAddr × XfrConfig) :=
  (initialXfrAddr.toList ++ config.requestXfrFrom.keys).filterMap (fun addr ↦
    (config.requestXfrFrom.lookup addr).map (fun xfrConfig ↦ (addr, xfrConfig)))

/-- The status while a refresh is under way. -/
def statusOf : ZoneRefreshCause → ZoneRefreshStatus
  | .SoaRetryTimer => .RetryInProgress
  | _ => .RefreshInProgress

/-- The end of `refresh_zone_and_update_state`. -/
def finishRefresh (m : ZoneMaintainer) (i : TaskId) (r : Refresh) (info : ZoneRefreshState) :
    Except Unit (Option Soa) → ZoneMaintainer
  | .error () =>
    if info.status = .RetryInProgress ∧ info.isExpired m.now = true then
      { m with
        zoneHeap := (m.zoneHeap.get r.zoneId r.handle).elim m.zoneHeap
          (fun zone ↦ m.zoneHeap.set r.zoneId r.handle { zone with expired := true }) }.setTask i
        .ended
    else
      let status := if info.status = .RetryInProgress then .RetryInProgress else .RetryPending
      (m.track r.zoneId { info with status := status }).sendFrom i
        (.ZoneRefreshRequested .SoaRetryTimer r.zoneId (some info.retry))
        (.refresh r (.rescheduled false))
  | .ok newSoa =>
    let info := { newSoa.elim info info.refreshSucceeded with status := .RefreshPending }
    (m.track r.zoneId info).sendFrom i
      (.ZoneRefreshRequested .SoaRefreshTimer r.zoneId (some info.refresh))
      (.refresh r (.rescheduled true))

/-- `refresh_zone_and_update_state` and what its callers do afterwards. -/
def refreshNext (m : ZoneMaintainer) (i : TaskId) (r : Refresh) :
    RefreshStage → Input → Option ZoneMaintainer
  | .starting initialXfrAddr, .next =>
    if m.trackingFree then
      some ((m.retrack r.zoneId (fun info ↦ { info with status := statusOf r.cause })).setTask i
        (.refresh r (.reading initialXfrAddr)))
    else none
  | .reading initialXfrAddr, .next =>
    match m.zoneHeap.get r.zoneId r.handle with
    | some zone =>
      some (m.setTask i (.refresh r (.querying
        ⟨zone.soa.map Soa.serial, primaryAddrs zone.config initialXfrAddr, 0, false⟩)))
    | none => none
  | .querying ⟨_, [], numOk, savedErr⟩, .next =>
    if 0 < numOk then some (m.setTask i (.refresh r (.finishing (.ok none))))
    else if savedErr then some (m.setTask i (.refresh r (.finishing (.error ()))))
    else some (m.setTask i .ended) -- the task panics: no primary has been asked
  | .querying ⟨currentSerial, _ :: remaining, numOk, _⟩, .soaAnswer none =>
    some (m.setTask i (.refresh r (.querying ⟨currentSerial, remaining, numOk, true⟩)))
  | .querying ⟨currentSerial, primary :: remaining, numOk, savedErr⟩, .soaAnswer (some serial) =>
    if m.trackingFree then
      some ((m.retrack r.zoneId (fun info ↦ info.soaSerialCheckSucceeded m.now)).setTask i
        (.refresh r (
          if r.zoneId ∈ m.timeTracking ∧ currentSerial.all serial.gt = false then
            .querying ⟨currentSerial, remaining, numOk + 1, savedErr⟩
          else
            .requesting ⟨currentSerial, remaining, numOk, savedErr⟩
              (primary.2.transfers currentSerial))))
    else none
  | .requesting ⟨currentSerial, remaining, numOk, savedErr⟩ [], .next =>
    some (m.setTask i (.refresh r (.querying ⟨currentSerial, remaining, numOk + 1, savedErr⟩)))
  | .requesting primaries (xfrType :: transfers), .next =>
    if xfrType = .IXFR ∧ m.soa r.zoneId r.handle = none then
      some (m.setTask i (.refresh r (.querying primaries.failed)))
    else some (m.setTask i (.refresh r (.transferring primaries (xfrType :: transfers))))
  | .transferring primaries transfers, .write soa =>
    match m.zoneHeap.get r.zoneId r.handle with
    | some zone =>
      some ({ m with
        zoneHeap := m.zoneHeap.set r.zoneId r.handle { zone with soa := soa } }.setTask i
          (.refresh r (.transferring primaries transfers)))
    | none => none
  | .transferring primaries transfers, .commit soa =>
    match m.zoneHeap.get r.zoneId r.handle with
    | some zone =>
      some ({ m with
        zoneHeap := m.zoneHeap.set r.zoneId r.handle { zone with soa := some soa } }.setTask i
          (.refresh r (.changed primaries transfers)))
    | none => none
  | .transferring primaries transfers, .progress =>
    if m.trackingFree then
      some ((m.retrack r.zoneId (fun info ↦ { info with status := .RefreshInProgress })).setTask i
        (.refresh r (.transferring primaries transfers)))
    else none
  | .transferring primaries _, .finished =>
    if m.trackingFree then
      match m.soa r.zoneId r.handle with
      | some soa =>
        some ((m.retrack r.zoneId (fun info ↦ info.refreshSucceeded soa)).setTask i
          (.refresh r (.finishing (.ok (some soa)))))
      | none => some (m.setTask i (.refresh r (.querying primaries.failed)))
    else none
  | .transferring primaries (.IXFR :: transfers), .notImplemented =>
    some (m.setTask i (.refresh r (.requesting primaries transfers)))
  | .transferring primaries _, .notImplemented | .transferring primaries _, .failed =>
    some (m.setTask i (.refresh r (.querying primaries.failed)))
  | .changed primaries transfers, .next =>
    some (m.sendFrom i (.ZoneChanged r.zoneId none)
      (.refresh r (.transferring primaries transfers)))
  | .finishing res, .next =>
    if m.trackingFree then
      match m.timeTracking.lookup r.zoneId with
      | some info => some (m.finishRefresh i r info res)
      | none => some (m.setTask i .ended)
    else none
  | .rescheduled ok, .next =>
    if ok && r.isPending then
      some (m.sendFrom i (.ZoneAdded r.zoneId) (.refresh r .migrated))
    else some (m.setTask i .ended)
  | .migrated, .next => some (m.setTask i .ended)
  | _, _ => none

/-- The next step of a task. -/
def taskNext (m : ZoneMaintainer) (i : TaskId) (input : Input) : Task → Option ZoneMaintainer
  | .refresh r stage => m.refreshNext i r stage input
  | .timer cause zoneId zones => m.timerNext i (.timer cause zoneId zones)
  | .known cause zoneId zones => m.timerNext i (.known cause zoneId zones)
  | .notify zoneId source zones => m.notifyNext i (.notify zoneId source zones) input
  | .notifying => m.notifyNext i .notifying input
  | .asked source r => m.notifyNext i (.asked source r) input
  | .accepted source r => m.notifyNext i (.accepted source r) input
  | task => m.insertNext i task

/-! ## The API -/

/-- `insert_zone` up to the copy of the active zones. -/
def insertZone (m : ZoneMaintainer) (zoneId : ZoneId) (config : ZoneConfig) (soa : Option Soa) :
    ZoneMaintainer :=
  { m with zoneHeap := m.zoneHeap.alloc zoneId ⟨config, soa, false⟩ }.spawn
    (.insert zoneId (m.zoneHeap.next zoneId) m.loadedArc)

/-- `notify_zone_changed` up to the sending of the event. -/
def notifyZoneChanged (m : ZoneMaintainer) (zoneId : ZoneId) (serial : Option Serial)
    (source : IpAddr) : Option ZoneMaintainer :=
  match m.loadedArc.lookup zoneId with
  | some handle =>
    match serial, m.soa zoneId handle with
    | some serial, some soa =>
      if soa.serial.gt serial then none
      else some (m.spawn (.sending (.ZoneChanged zoneId (some source))))
    | _, _ => some (m.spawn (.sending (.ZoneChanged zoneId (some source))))
  | none =>
    if m.pendingReadable ∧ zoneId ∈ m.pendingZones then
      some (m.spawn (.sending (.ZoneChanged zoneId (some source))))
    else none

/-- `force_zone_refresh` -/
def forceZoneRefresh (m : ZoneMaintainer) (zoneId : ZoneId) : ZoneMaintainer :=
  m.spawn (.sending (.ZoneRefreshRequested .ManualTrigger zoneId none))

/-- The active zone of this name. -/
def activeZone (m : ZoneMaintainer) (zoneId : ZoneId) : Option MaintainedZone :=
  (m.loadedArc.lookup zoneId).bind (m.zoneHeap.get zoneId)

/-- An expired zone is not given out. -/
def unexpired : Option MaintainedZone → Except ZoneError (Option MaintainedZone)
  | some zone => if zone.expired then .error .TemporarilyUnavailable else .ok (some zone)
  | none => .ok none

def getZone (m : ZoneMaintainer) (zoneId : ZoneId) : Except ZoneError (Option MaintainedZone) :=
  unexpired (m.activeZone zoneId)

/-- The zone tree is searched for the closest zone that `qname` is in. -/
def findZone (m : ZoneMaintainer) (qname : Name) (qclass : Class) :
    Except ZoneError (Option MaintainedZone) :=
  unexpired (qname.ancestors.findSome? (fun apexName ↦ m.activeZone ⟨apexName, qclass⟩))

inductive Action
  | tick (elapsed : Nat)
  | insertZone (zoneId : ZoneId) (config : ZoneConfig) (soa : Option Soa)
  | notifyZoneChanged (zoneId : ZoneId) (serial : Option Serial) (source : IpAddr)
  | forceZoneRefresh (zoneId : ZoneId)
  | receive
  | fire (k : Nat)
  | loop
  | task (i : TaskId) (input : Input)

/-- A task that waits for a free place in the channel takes no step. -/
def step (m : ZoneMaintainer) : Action → Option ZoneMaintainer
  | .tick elapsed => some { m with now := m.now + elapsed }
  | .insertZone zoneId config soa => some (m.insertZone zoneId config soa)
  | .notifyZoneChanged zoneId serial source => m.notifyZoneChanged zoneId serial source
  | .forceZoneRefresh zoneId => some (m.forceZoneRefresh zoneId)
  | .receive => m.receive
  | .fire k => m.fire k
  | .loop => m.loopNext
  | .task i input =>
    if m.channel.Waits i then none
    else
      match m.tasks[i]? with
      | some task => m.taskNext i input task
      | none => none

def Started (m : ZoneMaintainer) : Prop := m = new

theorem new_started : new.Started := rfl

/-! ## Short runs -/

namespace ShortRun

/-- A zone in the class `IN` below the root. -/
def zoneId (label : UInt8)
    (h : [[label]].all Label.isValid = true ∧ wireLen [[label]] ≤ 255) : ZoneId :=
  ⟨⟨[[label]], h⟩, .IN⟩

/-- The secondary zone of these runs. -/
def zone : ZoneId := zoneId 48 (by decide)

def primaryZones : List ZoneId :=
  [zoneId 49 (by decide), zoneId 50 (by decide), zoneId 51 (by decide), zoneId 52 (by decide),
    zoneId 53 (by decide), zoneId 54 (by decide), zoneId 55 (by decide), zoneId 56 (by decide),
    zoneId 57 (by decide), zoneId 58 (by decide), zoneId 59 (by decide)]

def soa : Soa := ⟨zone.name, zone.name, ⟨1⟩, 3600, 300, 86400, 60⟩

def primary : ZoneConfig := {}

/-- A zone with one primary server. -/
def secondary (strategy : XfrStrategy) : ZoneConfig :=
  { requestXfrFrom := AList.insert (.V4 0 53) { strategy, ixfrTransport := .Tcp } ∅ }

/-- The zone is active. -/
def served (m : ZoneMaintainer) : Bool := m.getZone zone matches .ok (some _)

/-- The task `i` takes `n` steps. -/
def steps (i : TaskId) (n : Nat) : List Action := List.replicate n (.task i .next)

/-- The secondary zone is inserted, the loop looks at it, and the task 1 starts to refresh it. -/
def firstRefresh (strategy : XfrStrategy) : List Action :=
  [.insertZone zone (secondary strategy) none] ++ steps 0 5 ++ [.receive, .loop, .loop, .fire 0] ++
    steps 1 4 ++ [.task 1 (.soaAnswer (some ⟨1⟩))]

/-- The first version is transferred and committed. -/
def firstTransfer : List Action :=
  firstRefresh .AxfrOnly ++ [.task 1 .next, .task 1 (.commit soa)]

/-- The transfer ends, and the loop makes the zone active. -/
def firstPromotion : List Action :=
  firstTransfer ++ [.task 1 .next, .task 1 .finished] ++ steps 1 3 ++
    [.receive, .receive, .receive] ++ List.replicate 6 .loop

end ShortRun

end ZoneMaintainer

end Cascade
